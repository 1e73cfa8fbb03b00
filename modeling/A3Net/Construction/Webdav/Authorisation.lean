/-
The clock stands still during a request.
-/

import A3Net.Construction.Pairing.Capability
import A3Net.Machine.Table
import A3Net.Machine.Text

namespace A3Net.Webdav

open Cryptography Machine Pairing

/-- A string of 32 bytes is a nonce, a signature or a key. -/
abbrev Bytes32 := Vector UInt8 32

structure CapabilityToken where
  capabilityId : String
  nonce : Bytes32
  expiresUnixMs : Int64
  signature : Bytes32

structure TokenWire where
  capabilityId : String
  nonceHex : List Char
  expiresUnixMs : Int64
  signatureHex : List Char

inductive TokenError where
  | missingBearer
  | base64 (text : String)
  | json (text : String)
  | hex (text : String)
  | nonceLength (length : Nat)
  | signatureLength (length : Nat)
  | badSignature

/-- These are the functions that the crate takes from its libraries, with the texts of their
errors. -/
structure Library where
  decodeBase64 : List Char → Except String Bytes
  parseWire : Bytes → Except String TokenWire
  hexError : String → String
  sha256 : Bytes → Bytes32

section Token

variable (lib : Library)

def decodeHex32 (text : List Char) : Except String Bytes32 :=
  match bytesOfHexChars text with
  | none => .error (lib.hexError (String.ofList text))
  | some bytes =>
    if size : bytes.length = 32 then .ok ⟨bytes.toArray, by simp [size]⟩
    else
      let got := bytes.length
      .error s!"expected 32 bytes, got {got}"

/-- The lengths of the two texts are checked after they were decoded. -/
def CapabilityToken.fromHeader (header : String) : Except TokenError CapabilityToken := do
  let text := header.toList
  let raw ← match ((stripPrefix "Capability ".toList text).or
      (stripPrefix "capability ".toList text)).or (stripPrefix "Bearer ".toList text) with
    | some rest => .ok (trim rest)
    | none => .error .missingBearer
  let bytes ← (lib.decodeBase64 raw).mapError TokenError.base64
  let wire ← (lib.parseWire bytes).mapError TokenError.json
  let nonce ← (decodeHex32 lib wire.nonceHex).mapError TokenError.hex
  let signature ← (decodeHex32 lib wire.signatureHex).mapError TokenError.hex
  if (utf8Chars wire.nonceHex).length ≠ 64 then
    .error (.nonceLength (utf8Chars wire.nonceHex).length)
  else if (utf8Chars wire.signatureHex).length ≠ 64 then
    .error (.signatureLength (utf8Chars wire.signatureHex).length)
  else .ok ⟨wire.capabilityId, nonce, wire.expiresUnixMs, signature⟩

/-- A long key is hashed first, and a short one is filled with zeros. -/
def hmacSha256 (key msg : Bytes) : Bytes32 :=
  let short := if 64 < key.length then (lib.sha256 key).toList else key
  let block := short ++ List.replicate (64 - short.length) 0
  let inner := block.map fun byte => 0x36 ^^^ byte
  let outer := block.map fun byte => 0x5c ^^^ byte
  lib.sha256 (outer ++ (lib.sha256 (inner ++ msg)).toList)

def canonical (capabilityId : String) (nonce : Bytes32) (expiresUnixMs : Int64) : Bytes :=
  utf8 capabilityId ++ utf8 "|" ++ utf8Chars (hexChars nonce.toList) ++ utf8 "|" ++
    utf8Chars (decimalInt expiresUnixMs.toInt)

structure TokenVerifier where
  key : Bytes32

def TokenVerifier.verify (verifier : TokenVerifier) (token : CapabilityToken) :
    Except TokenError Unit :=
  let expected := hmacSha256 lib verifier.key.toList
    (canonical token.capabilityId token.nonce token.expiresUnixMs)
  if expected = token.signature then .ok () else .error .badSignature

end Token

inductive AclDecision where
  | allow
  | unauthenticated
  | forbidden (reason : String)
  | rejected (reason : String)
deriving DecidableEq

inductive AclError where
  | notConfigured

structure ResolvedCapability where
  caps : CapabilitySet
  expiresUnixMs : Int64
  revoked : Bool

/-- This is the capability resolver of the middleware. -/
abbrev CapabilityResolver := String → Except AclError ResolvedCapability

/-- The replay log has one nonce for each capability. -/
structure StaticCapabilityResolver where
  inner : Table String ResolvedCapability := ∅
  seenNonces : Table String Bytes32 := ∅

namespace StaticCapabilityResolver

variable (resolver : StaticCapabilityResolver)

def resolve : CapabilityResolver := fun capabilityId =>
  match resolver.inner.lookup capabilityId with
  | some resolved => .ok resolved
  | none => .error .notConfigured

variable (capabilityId : String)

def isNonceSeen (nonce : Bytes32) : Bool :=
  ((resolver.seenNonces.lookup capabilityId).map fun seen => decide (seen = nonce)).getD false

def recordNonce (nonce : Bytes32) : StaticCapabilityResolver :=
  {resolver with seenNonces := resolver.seenNonces.insert capabilityId nonce}

end StaticCapabilityResolver

def capabilityFor (verb : String) : Option Capability :=
  match String.ofList (asciiLower verb.toList) with
  | "options" | "head" => none
  | "get" | "propfind" => some .filesRead
  | "put" | "mkcol" | "delete" | "move" | "copy" => some .filesWrite
  | _ => none

def authorise (capabilityId : Option String) (verb : String) (caps : CapabilitySet) :
    AclDecision :=
  if capabilityId.isNone then .unauthenticated
  else if caps.caps.isEmpty then .forbidden "no capabilities"
  else
    match capabilityFor verb with
    | some cap =>
      if caps.contains cap then .allow
      else
        let name := cap.name
        .forbidden s!"missing capability {name} for {verb}"
    | none => .rejected s!"unknown verb {verb}"

inductive HttpError where
  | unauthorised
  | forbidden (reason : String)
  | internal (reason : String)

def forbiddenFrom : AclDecision → HttpError
  | .unauthenticated => .unauthorised
  | .forbidden reason => .forbidden reason
  | .rejected reason => .forbidden reason
  | .allow => .internal "logic bug"

/-- The resolver of the middleware and the one with the replay log are two objects. -/
structure HandlerState where
  resolver : CapabilityResolver
  staticResolver : Option StaticCapabilityResolver
  verifier : TokenVerifier

structure Request where
  verb : String
  header : Option String
  now : Int64

namespace HandlerState

variable (lib : Library)

def verify (state : HandlerState) (header : Option String) : Except HttpError CapabilityToken :=
  match header with
  | none => .error .unauthorised
  | some text =>
    match CapabilityToken.fromHeader lib text with
    | .error _ => .error .unauthorised
    | .ok token =>
      match state.verifier.verify lib token with
      | .error _ => .error .unauthorised
      | .ok () => .ok token

variable (state : HandlerState) (req : Request)

/-- These are the checks before the replay log is asked. -/
def examine : Except HttpError (CapabilityToken × ResolvedCapability) :=
  match state.verify lib req.header with
  | .error error => .error error
  | .ok token =>
    match state.resolver token.capabilityId with
    | .error _ => .error .unauthorised
    | .ok resolved =>
      if resolved.revoked then .error (.forbidden "credential revoked")
      else if resolved.expiresUnixMs < req.now then .error (.forbidden "credential expired")
      else if token.expiresUnixMs < req.now then .error (.forbidden "token expired")
      else .ok (token, resolved)

/-- The nonce is recorded before the capability is checked. -/
def guardReplay (token : CapabilityToken) : Except HttpError HandlerState :=
  match state.staticResolver with
  | none => .ok state
  | some log =>
    if log.isNonceSeen token.capabilityId token.nonce then .error (.forbidden "replayed nonce")
    else .ok {state with staticResolver := some (log.recordNonce token.capabilityId token.nonce)}

def verifyAndAuthorise : Except HttpError CapabilitySet × HandlerState :=
  match state.examine lib req with
  | .error error => (.error error, state)
  | .ok (token, resolved) =>
    match state.guardReplay token with
    | .error error => (.error error, state)
    | .ok recorded =>
      match authorise (some token.capabilityId) req.verb resolved.caps with
      | .allow => (.ok resolved.caps, recorded)
      | decision => (.error (forbiddenFrom decision), recorded)

end HandlerState
end A3Net.Webdav
