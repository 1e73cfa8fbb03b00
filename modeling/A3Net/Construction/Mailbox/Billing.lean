import A3Net.Construction.Mailbox.Server
import A3Net.Construction.Token.Pledge

namespace A3Net.Mailbox

open Identity Token

structure BillingPolicy where
  serverAddress : List Char
  chainId : UInt64
  bonusBytesPerUnit : U128 := 1
  mandatory : Bool := false

inductive BillingError where
  | parse (text : String)
  | verification (text : String)
  | wrongRecipient (expected got : List Char)
  | signerMismatch (sender pledgor : List Char)

/-- A product that does not fit saturates, first at 128 bits and then at 64. -/
def BillingPolicy.bonus (policy : BillingPolicy) (amount : U128) : UInt64 :=
  UInt64.ofNat (min (min (amount.val * policy.bonusBytesPerUnit.val) (2 ^ 128 - 1)) (2 ^ 64 - 1))

/-- A pledge that passes gives its sender more bytes. -/
def BillingPolicy.verifyPledge (lib : Library) (policy : BillingPolicy)
    (pledgeUrl senderId : List Char) (nowUnix : Int) : Except BillingError (Option UInt64) :=
  match Pledge.fromUrl lib pledgeUrl with
  | .error error => .error (.parse error.text)
  | .ok pledge =>
    match pledge.verifyWithRecovered lib nowUnix with
    | .error error => .error (.verification error.text)
    | .ok pledgor =>
      let expected := policy.chainId
      let got := pledge.chainId
      let signer := pledgor.toChecksum lib.keccak256
      let recipient := pledge.recipient.toChecksum lib.keccak256
      if got ≠ expected then
        .error (.verification s!"chain_id mismatch: expected {expected}, got {got}")
      else if signer ≠ senderId then .error (.signerMismatch senderId signer)
      else if recipient ≠ policy.serverAddress then
        .error (.wrongRecipient policy.serverAddress recipient)
      else .ok (some (policy.bonus pledge.amountAtomic))

/-- The names of headers are in lower case, and the values are any bytes. -/
abbrev HeaderMap := List (List Char × Bytes)

/-- A value that is no visible text counts as absent. -/
def visibleText (value : Bytes) : Option (List Char) :=
  if value.all fun byte => byte = 9 || (32 ≤ byte && byte < 127) then
    some (value.map fun byte => Char.ofNat byte.toNat)
  else none

def pledgeHeaderName : List Char :=
  ['x', '-', 'a', '3', 'n', 'e', 't', '-', 'p', 'l', 'e', 'd', 'g', 'e']

/-- The first value of a header counts. -/
def pledgeHeader (headers : HeaderMap) : Option (List Char) :=
  (headers.lookup pledgeHeaderName).bind visibleText

namespace ServerState

variable (state : ServerState)

variable (billing : Option BillingPolicy)

/-- The check asks for a header and does not read it. -/
def checkBilling (headers : HeaderMap) : Except Rejection Unit :=
  match billing with
  | some policy =>
    if policy.mandatory && (pledgeHeader headers).isNone then
      .error (.error (.internal "billing mandatory: missing X-A3Net-Pledge header"))
    else .ok ()
  | none => .ok ()

/-- The handler waits for the store twice, and other requests may change it in between. -/
def finish (prepared : Except Rejection StoredEnvelope) (atCheck atPersist : MemoryStore) :
    MemoryStore × Except Rejection EnqueueOutcome :=
  match prepared with
  | .error rejection => (atPersist, .error rejection)
  | .ok envelope =>
    match state.checkQuota envelope (atCheck.quotaUsage envelope.recipientId) with
    | .error rejection => (atPersist, .error rejection)
    | .ok () =>
      let (stored, outcome) := atPersist.enqueue envelope
      (stored, .ok outcome)

/-- This is `enqueue_handler` of a server with the billing feature. -/
def enqueueHandler (headers : HeaderMap)
    (recipientId : String) (req : EnqueueRequest) (now : DateTime)
    (atCheck atPersist : MemoryStore) : MemoryStore × Except Rejection EnqueueOutcome :=
  state.finish (do
    let sent ← state.authenticate recipientId req now
    checkBilling billing headers
    state.build sent req now) atCheck atPersist

end ServerState
end A3Net.Mailbox
