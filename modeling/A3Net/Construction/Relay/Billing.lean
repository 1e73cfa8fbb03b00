import A3Net.Construction.Token.Pledge
import A3Net.Machine.Table

namespace A3Net.Relay

open Identity Machine Token

/-- The open balances are keyed by the nonce alone. -/
structure BillingState where
  open_ : Table String U128 := ∅
  issued : UInt64 := 0

def saturatingAdd (first second : U128) : U128 :=
  ⟨min (first.val + second.val) (2 ^ 128 - 1), by omega⟩

def saturatingSub (first second : U128) : U128 := ⟨first.val - second.val, by omega⟩

def addOpen (balances : Table String U128) (key : String) (amount : U128) : Table String U128 :=
  AList.insert key (saturatingAdd ((balances.lookup key).getD 0) amount) balances

/-- An error response has a status and a text. -/
structure Rejection where
  status : Nat
  text : String

inductive Response where
  | ok
  | error (rejection : Rejection)

/-- The handlers know the address of the relay. -/
structure EnabledState where
  wallet : Address
  state : BillingState := {}

def expectedChainId : UInt64 := 1

variable (lib : Library) (wallet : Address)

/-- The checks of a pledge end with its body and its recovered signer. -/
def checkPledge (now : Int) (body : String) :
    Except Rejection (PledgeBody × Address) :=
  match Pledge.fromUrl lib (trim body.toList) with
  | .error e =>
    let text := e.text
    .error ⟨400, s!"parse: {text}"⟩
  | .ok pledge =>
    match pledge.verifyWithRecovered lib now with
    | .error e =>
      let text := e.text
      .error ⟨401, s!"verify: {text}"⟩
    | .ok pledgor =>
      let got := pledge.chainId
      if pledge.chainId ≠ expectedChainId then
        .error ⟨400, s!"chain_id mismatch: expected {expectedChainId}, got {got}"⟩
      else if pledge.recipient ≠ wallet then .error ⟨400, "pledge.recipient != this relay"⟩
      else .ok (pledge.toPledgeBody, pledgor)

variable (handle : EnabledState)

def handlePledge (now : Int) (body : String) : EnabledState × Response :=
  match checkPledge lib handle.wallet now body with
  | .error rejection => (handle, .error rejection)
  | .ok (pledge, _) =>
    ({handle with
      state := {handle.state with
        open_ := addOpen handle.state.open_ pledge.nonce pledge.amountAtomic}}, .ok)

/-- The checks of a receipt that do not read the balances. -/
def checkReceipt (receipt : Receipt) : Except Rejection ReceiptBody :=
  match receipt.verify lib with
  | .error e =>
    let text := e.text
    .error ⟨401, s!"verify: {text}"⟩
  | .ok _ =>
    if receipt.relay ≠ wallet then .error ⟨400, "receipt.relay != this relay"⟩
    else .ok receipt.toReceiptBody

def handleRedeem (receipt : Receipt) : EnabledState × Response :=
  match checkReceipt lib handle.wallet receipt with
  | .error rejection => (handle, .error rejection)
  | .ok body =>
    let nonce := body.pledgeNonce
    let charged := body.chargedAtomic
    match handle.state.open_.lookup nonce with
    | none =>
      (handle, .error
        ⟨400, s!"no open pledge with nonce {nonce}; refusing to redeem an orphan receipt"⟩)
    | some balance =>
      if balance < charged then
        (handle, .error
          ⟨400, s!"open balance {balance} for nonce {nonce} is below charged_atomic {charged}"⟩)
      else
        ({handle with
          state := {handle.state with
            open_ := AList.insert nonce (saturatingSub balance charged) handle.state.open_
            issued := handle.state.issued + 1}}, .ok)

/-- A request posts a body. The JSON extractor rejects a body that is no receipt. -/
inductive Post where
  | pledge (now : Int) (body : String)
  | redeem (body : String)

/-- The extractor reads a receipt from its JSON text. -/
abbrev Extractor := String → Except Rejection Receipt

def handlePost (lib : Library) (extract : Extractor) (handle : EnabledState) :
    Post → EnabledState × Response
  | .pledge now body => handlePledge lib handle now body
  | .redeem body =>
    match extract body with
    | .error rejection => (handle, .error rejection)
    | .ok receipt => handleRedeem lib handle receipt

end A3Net.Relay
