/-
A roster that comes from the network holds whatever texts its sender wrote. The virtual addresses
and the times of a roster are left out, because no signature covers them.
-/

import A3Net.Construction.Types.Mesh
import A3Net.Cryptography.Encoding

namespace A3Net.MeshCoordinator

open Cryptography

structure ReceivedMember where
  nodeId : NodeId
  hostname : String
  isCoordinator : Bool
deriving DecidableEq

structure ReceivedRoster where
  networkId : MeshNetworkId
  version : UInt64
  members : List ReceivedMember
  signature : String

/-- This is the byte of `|`. -/
def bar : UInt8 := 0x7c

/-- An identifier that is not hexadecimal panics. -/
def ReceivedMember.signingBytes (member : ReceivedMember) : Option Bytes := do
  let id ← member.nodeId.asBytes
  return id ++ bar :: (utf8 member.hostname ++ bar :: (if member.isCoordinator then 1 else 0) ::
    [bar])

def ReceivedRoster.signingPreimage (roster : ReceivedRoster) : Option Bytes := do
  let members ← roster.members.mapM ReceivedMember.signingBytes
  return bigEndian 8 roster.version.toNat ++ (utf8 roster.networkId.text ++
    bar :: (bigEndian 4 roster.members.length ++ bar :: members.flatten))

/-- The library explains each refusal. -/
structure Ed25519 where
  keyError : Bytes → Option String
  hexError : String → String
  verifyError : Bytes → Bytes → Bytes → Option String

namespace RosterVerifier

/-- The error is the text of an invalid signature. -/
def verify (lib : Ed25519) (roster : ReceivedRoster) (pubkey : Bytes) :
    Option (Except String Unit) :=
  if roster.signature.isEmpty then some (.error "empty signature")
  else
    match lib.keyError pubkey with
    | some e => some (.error s!"malformed pubkey: {e}")
    | none =>
      match fromHex roster.signature with
      | none =>
        let e := lib.hexError roster.signature
        some (.error s!"hex decode: {e}")
      | some signature =>
        let got := signature.length
        if got ≠ 64 then some (.error s!"expected 64 bytes, got {got}")
        else do
          let bytes ← roster.signingPreimage
          match lib.verifyError pubkey bytes signature with
          | some e => return .error s!"ed25519 verify: {e}"
          | none => return .ok ()

end RosterVerifier

/-- This is the helper of `a3net-types` for any verifier. -/
def verifyRosterSignature (verifyRoster : Bytes → Bytes → Bool) (roster : ReceivedRoster) :
    Option Bool := do
  let bytes ← roster.signingPreimage
  match fromHex roster.signature with
  | none => return false
  | some signature =>
    if signature.length ≠ 64 then return false else return verifyRoster bytes signature

end A3Net.MeshCoordinator
