import A3Net.Construction.Identity.Address
import A3Net.Cryptography.Blake3

namespace A3Net.Token

open Cryptography Identity Machine String

/-- An amount is an unsigned word of 128 bits. -/
abbrev U128 := Fin (2 ^ 128)

instance neZeroU128 : NeZero (2 ^ 128) := ⟨by decide⟩

inductive TokenError where
  | identity (error : IdentityError)
  | invalidUrl (text : String)
  | invalidAmount (text : String)
  | invalidExpiry (text : String)
  | expired (now pledge : Int)
  | recoveredWrongSigner
  | hex (text : String)
deriving DecidableEq

def TokenError.text : TokenError → String
  | identity error =>
    let inner := error.text
    s!"identity error: {inner}"
  | invalidUrl text => s!"invalid URL: {text}"
  | invalidAmount text => s!"invalid amount: {text}"
  | invalidExpiry text => s!"invalid expiry: {text}"
  | expired now pledge => s!"expiry in the past: now={now}, pledge={pledge}"
  | recoveredWrongSigner => "signature does not recover to the pledgor address"
  | hex text => s!"hex decode error: {text}"

def pledgeVersion : UInt8 := 1

structure PledgeBody where
  version : UInt8
  chainId : UInt64
  contract : String
  token : String
  amountAtomic : U128
  recipient : Address
  nonce : String
  expiryUnix : Int
deriving DecidableEq

structure Pledge extends PledgeBody where
  pledgor : Address
  signature : PersonalSignature
deriving DecidableEq

structure ReceiptBody where
  version : UInt8
  pledgeNonce : String
  pledgor : Address
  recipient : Address
  chargedAtomic : U128
  issuedUnix : Int
  relay : Address

structure Receipt extends ReceiptBody where
  signature : PersonalSignature

variable (keccak256 : Bytes → Bytes)

/-- The text prints the fields in their order. -/
def PledgeBody.json (body : PledgeBody) : List Char :=
  jsonObject [
    ("version", decimal body.version.toNat),
    ("chain_id", decimal body.chainId.toNat),
    ("contract", jsonString body.contract.toList),
    ("token", jsonString body.token.toList),
    ("amount_atomic", decimal body.amountAtomic.val),
    ("recipient", jsonString (body.recipient.toChecksum keccak256)),
    ("nonce", jsonString body.nonce.toList),
    ("expiry_unix", decimalInt body.expiryUnix)]

def PledgeBody.digest (body : PledgeBody) : Bytes := (blake3 (utf8Chars (body.json keccak256))).bytes

def ReceiptBody.json (body : ReceiptBody) : List Char :=
  jsonObject [
    ("version", decimal body.version.toNat),
    ("pledge_nonce", jsonString body.pledgeNonce.toList),
    ("pledgor", jsonString (body.pledgor.toChecksum keccak256)),
    ("recipient", jsonString (body.recipient.toChecksum keccak256)),
    ("charged_atomic", decimal body.chargedAtomic.val),
    ("issued_unix", decimalInt body.issuedUnix),
    ("relay", jsonString (body.relay.toChecksum keccak256))]

def ReceiptBody.digest (body : ReceiptBody) : Bytes := (blake3 (utf8Chars (body.json keccak256))).bytes

variable (lib : Library)

def recover (digest : Bytes) (signature : PersonalSignature) : Except TokenError Address :=
  match lib.recoverPersonal digest signature with
  | .ok address => .ok address
  | .error error => .error (.identity error)

/-- The pledgor is whoever signed the body. -/
def Pledge.verifyWithRecovered (pledge : Pledge) (now : Int) : Except TokenError Address :=
  match recover lib (pledge.toPledgeBody.digest lib.keccak256) pledge.signature with
  | .error error => .error error
  | .ok recovered =>
    if pledge.expiryUnix ≤ now then .error (.expired now pledge.expiryUnix) else .ok recovered

def Receipt.verify (receipt : Receipt) : Except TokenError Unit :=
  match recover lib (receipt.toReceiptBody.digest lib.keccak256) receipt.signature with
  | .error error => .error error
  | .ok recovered => if recovered ≠ receipt.relay then .error .recoveredWrongSigner else .ok ()

def parseChainId (text : List Char) : Except TokenError UInt64 :=
  match parseUnsigned text with
  | some value =>
    if value < 2 ^ 64 then .ok (UInt64.ofNat value) else .error (bad (ofList text))
  | none => .error (bad (ofList text))
where
  bad (shown : String) : TokenError := .invalidUrl s!"bad chain_id: {shown}"

/-- A number of more than 128 bits is an error, and so is any other text. -/
def parseAmount (text : List Char) : Except TokenError U128 :=
  match parseUnsigned text with
  | some value =>
    if small : value < 2 ^ 128 then .ok ⟨value, small⟩
    else .error (.invalidAmount (ofList text))
  | none => .error (.invalidAmount (ofList text))

def parseExpiry (text : List Char) : Except TokenError Int :=
  match parseSigned (2 ^ 63) text with
  | some value => .ok value
  | none => .error (.invalidExpiry (ofList text))

def parseSignature (text : List Char) : Except TokenError PersonalSignature :=
  match decodeHex lib ((stripPrefix ['0', 'x'] text).getD text) with
  | .error e => .error (.hex e)
  | .ok bytes =>
    match PersonalSignature.fromCompact bytes with
    | .error error => .error (.identity error)
    | .ok signature => .ok signature

def parseRecipient (text : List Char) : Except TokenError Address :=
  match Address.ofHex lib text with
  | .error error => .error (.identity error)
  | .ok address => .ok address

/-- The pledgor of a parsed pledge is a placeholder. -/
def Pledge.fromUrl (text : List Char) : Except TokenError Pledge :=
  match stripPrefix "a3net-token://".toList text with
  | none => .error (.invalidUrl (ofList text))
  | some rest =>
    match rest.splitOn '/' with
    | [chain, contract, token, amount, recipient, nonce, expiry, signature] => do
        let chainId ← parseChainId chain
        let amountAtomic ← parseAmount amount
        let recipient ← parseRecipient lib recipient
        let expiryUnix ← parseExpiry expiry
        let signature ← parseSignature lib signature
        .ok {
          version := pledgeVersion
          chainId := chainId
          contract := ofList (asciiLower contract)
          token := ofList (asciiLower token)
          amountAtomic := amountAtomic
          recipient := recipient
          nonce := ofList nonce
          expiryUnix := expiryUnix
          pledgor := Address.zero
          signature := signature}
    | parts =>
      let got := parts.length
      .error (.invalidUrl s!"expected 8 path segments, got {got}")

end A3Net.Token
