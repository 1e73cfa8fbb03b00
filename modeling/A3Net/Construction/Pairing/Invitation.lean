import A3Net.Construction.Identity.Address
import A3Net.Construction.Pairing.Capability
import A3Net.Construction.Types.NodeId
import A3Net.Cryptography.Blake3

namespace A3Net.Pairing

open Cryptography Identity

abbrev Nonce32 := Vector UInt8 32

abbrev CredentialId := Vector UInt8 16

inductive PairingError where
  | malformed (what reason : String)
  | invitationExpired (expiredAtUnix nowUnix : Int64)
  | requestExpired (expiredAtUnix nowUnix : Int64)
  | nonceReplay (noncePrefix : Bytes)
  | nonceMismatch
  | clockSkew (maxSeconds peerUnix nowUnix : Int64)
  | unsupportedScheme (schemeTag : UInt8)
  | signatureLength (expected got : Nat)
  | issuerSignatureInvalid
  | transportSignatureInvalid
  | nodeIdMismatch
  | deviceRevoked (id : CredentialId)
  | deviceExpired (id : CredentialId) (expiredAtUnix : Int64)
  | deviceNotFound (id : CredentialId)
  | storage (text : String)

/-- A call panics, fails or succeeds. -/
abbrev PairingResult (α : Type) := Option (Except PairingError α)

/-- The hasher reads its updates one after the other. -/
def hashUpdates (updates : List Bytes) : Digest := blake3 updates.flatten

/-- A time is written with eight bytes in two's complement. -/
def toBeBytes (time : Int64) : Bytes := bigEndian 8 time.toUInt64.toNat

def splitScheme : Bytes → Except PairingError (UInt8 × Bytes)
  | [] => .error (.signatureLength 1 0)
  | tag :: signature => .ok (tag, signature)

/-- The invitation and the response carry the same kind of signature of a wallet. -/
def recoverIssuer (lib : Library) (what : String) (digest : Digest) (signature : Bytes) :
    Except PairingError Address :=
  if signature.isEmpty then .error (.signatureLength 66 0)
  else
    match splitScheme signature with
    | .error error => .error error
    | .ok (tag, compact) =>
      if tag ≠ 0 then .error (.unsupportedScheme tag)
      else if compact.length ≠ 65 then .error (.signatureLength 65 compact.length)
      else
        match PersonalSignature.fromCompact compact with
        | .error error =>
          let text := error.text
          .error (.malformed what s!"from_compact: {text}")
        | .ok personal =>
          match lib.recoverPersonal digest.bytes personal with
          | .error _ => .error .issuerSignatureInvalid
          | .ok recovered => .ok recovered

/-- The salt may have any length, and the note is not signed. -/
structure InvitationPayload where
  version : UInt8
  issuerNodeId : NodeId
  issuerWallet : Address
  salt : Bytes
  capabilities : CapabilitySet
  expiresAtUnix : Int64
  note : Option String

structure SignedInvitation where
  payload : InvitationPayload
  signature : Bytes

def invitationDomainTag : Bytes := utf8 "a3net-pairing-invitation/v1\x00"

variable (payload : InvitationPayload)

def invitationFields (node : Bytes) : List Bytes := [
  invitationDomainTag,
  [payload.version],
  node,
  payload.issuerWallet.bytes,
  payload.salt,
  utf8Chars payload.capabilities.canonical,
  toBeBytes payload.expiresAtUnix]

/-- These are the updates of the hasher, once the node identifier is decoded. -/
def invitationUpdates : Option (List Bytes) :=
  payload.issuerNodeId.asBytes.map (invitationFields payload)

def pairingInvitationDigest : Option Digest :=
  (invitationUpdates payload).map hashUpdates

def credentialIdTag : Bytes := utf8 "a3net-pairing/credential-id/v1\x00"

/-- The credential has the first half of the digest. -/
def deriveCredentialId (issuer invitee : NodeId) (salt : Vector UInt8 32) : Option CredentialId := do
  let issuerBytes ← issuer.asBytes
  let inviteeBytes ← invitee.asBytes
  let digest := hashUpdates [credentialIdTag, issuerBytes, inviteeBytes, salt.toList]
  return ⟨(digest.bytes.take 16).toArray, by simp [digest.size]⟩

namespace SignedInvitation

def verify (lib : Library) (invitation : SignedInvitation) (now : Int64) : PairingResult Unit :=
  let payload := invitation.payload
  if payload.version ≠ 1 then
    let version := payload.version
    some (.error (.malformed "invitation.version" s!"unsupported version {version}"))
  else if payload.expiresAtUnix ≠ Int64.maxValue ∧ payload.expiresAtUnix < now then
    some (.error (.invitationExpired payload.expiresAtUnix now))
  else
    (pairingInvitationDigest payload).map fun digest =>
      match recoverIssuer lib "signed_invitation.signature" digest invitation.signature with
      | .error error => .error error
      | .ok recovered =>
        if recovered ≠ payload.issuerWallet then .error .issuerSignatureInvalid else .ok ()

def credentialId (invitation : SignedInvitation) (invitee : NodeId) : PairingResult CredentialId :=
  let salt := invitation.payload.salt
  if size : salt.length = 32 then
    (deriveCredentialId invitation.payload.issuerNodeId invitee ⟨salt.toArray, by simpa⟩).map .ok
  else
    let got := salt.length
    some (.error (.malformed "invitation_payload.salt" s!"salt must be 32 bytes, got {got}"))

end SignedInvitation
end A3Net.Pairing
