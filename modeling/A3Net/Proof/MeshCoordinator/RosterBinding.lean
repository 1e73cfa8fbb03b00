/-
The separators of the signed bytes may also stand in a hostname, so the bytes alone do not say where
a hostname ends.
-/

import A3Net.Construction.MeshCoordinator.RosterSign
import A3Net.Cryptography.Blake3

namespace A3Net.MeshCoordinator

open Cryptography List ReceivedMember Option

/-- A roster verifies under a key in one of the two ways. -/
def Verified (lib : Ed25519) (key : Bytes) (roster : ReceivedRoster) : Prop :=
  RosterVerifier.verify lib roster key = some (.ok ()) ∨
    verifyRosterSignature (fun bytes sig => lib.verifyError key bytes sig = none) roster = some true

def IdealRosters (lib : Ed25519) : Prop :=
  Ideal fun key bytes sig => lib.verifyError key bytes sig = none

/-- Two rosters verify with one signature under one key. -/
structure Twins (lib : Ed25519) (key : Bytes) (first second : ReceivedRoster) : Prop where
  verified : Verified lib key first
  otherVerified : Verified lib key second
  signature : fromHex first.signature = fromHex second.signature

variable (first second : ReceivedRoster)

def SameContent : Prop :=
  first.networkId = second.networkId ∧ first.version = second.version ∧
    first.members = second.members

/-- The shape of a member is the length of its hostname, and the length and the case of the letters
of its identifier. -/
def ReceivedMember.shape (member : ReceivedMember) : List Bool × Nat :=
  (member.nodeId.text.map Char.isUpper, (utf8 member.hostname).length)

def SameShape : Prop :=
  (utf8 first.networkId.text).length = (utf8 second.networkId.text).length ∧
    first.members.map ReceivedMember.shape = second.members.map ReceivedMember.shape

variable {bytes : Bytes}

theorem signingBytes_eq_some_iff {member : ReceivedMember} :
    member.signingBytes = some bytes ↔
      ∃ id, bytesOfHexChars member.nodeId.text = some id ∧
        id ++ bar :: (utf8 member.hostname ++
          bar :: (if member.isCoordinator then 1 else 0) :: [bar]) = bytes := by
  simp only [signingBytes, NodeId.asBytes, bind_eq_bind,
    bind_eq_some_iff, Option.pure_def, Option.some.injEq]

theorem flag_injective {first second : Bool}
    (same : (if first then 1 else 0 : UInt8) = if second then 1 else 0) : first = second := by
  cases first <;> cases second <;> simp_all

/-- Members of one shape are read off the front of the bytes. -/
theorem member_bound {first second : ReceivedMember} {others rest tail : Bytes}
    (one : first.signingBytes = some bytes) (other : second.signingBytes = some others)
    (shape : first.shape = second.shape) (same : bytes ++ rest = others ++ tail) :
    first = second ∧ rest = tail := by
  obtain ⟨id, decoded, rfl⟩ := signingBytes_eq_some_iff.mp one
  obtain ⟨id', decoded', rfl⟩ := signingBytes_eq_some_iff.mp other
  obtain ⟨spelling, host⟩ := Prod.mk.inj shape
  have lengths : id.length = id'.length := by
    have texts := congrArg List.length spelling
    rw [length_map, length_map, bytesOfHexChars_length decoded,
      bytesOfHexChars_length decoded'] at texts
    omega
  simp only [append_assoc, cons_append, nil_append] at same
  obtain ⟨rfl, later⟩ := append_inj same lengths
  obtain ⟨hosts, last⟩ := append_inj (tail_eq_of_cons_eq later) host
  have flags := head_eq_of_cons_eq (tail_eq_of_cons_eq last)
  have ends := tail_eq_of_cons_eq (tail_eq_of_cons_eq last)
  have texts := bytesOfHexChars_injective decoded decoded' spelling
  refine ⟨?_, tail_eq_of_cons_eq ends⟩
  obtain ⟨⟨text⟩, hostname, coordinator⟩ := first
  obtain ⟨⟨text'⟩, hostname', coordinator'⟩ := second
  rw [show text = text' from texts, show hostname = hostname' from utf8_injective hosts,
    show coordinator = coordinator' from flag_injective flags]

theorem members_bound {first second : List ReceivedMember} {bytes others : List Bytes}
    (one : first.mapM signingBytes = some bytes) (other : second.mapM signingBytes = some others)
    (shape : first.map shape = second.map shape)
    (same : bytes.flatten = others.flatten) : first = second := by
  induction first generalizing second bytes others with
  | nil => exact (map_eq_nil_iff.mp shape.symm).symm
  | cons member rest ih =>
    cases second with
    | nil => cases shape
    | cons member' rest' =>
      obtain ⟨here, later⟩ := List.cons.inj shape
      simp only [mapM_cons, bind_eq_bind, bind_eq_some_iff, Option.pure_def,
        Option.some.injEq] at one other
      obtain ⟨head, signed, tail, signedRest, rfl⟩ := one
      obtain ⟨head', signed', tail', signedRest', rfl⟩ := other
      obtain ⟨rfl, rests⟩ := member_bound signed signed' here same
      rw [ih signedRest signedRest' later rests]

variable {roster : ReceivedRoster}

theorem signingPreimage_eq_some_iff :
    roster.signingPreimage = some bytes ↔
      ∃ members, roster.members.mapM signingBytes = some members ∧
        bigEndian 8 roster.version.toNat ++ (utf8 roster.networkId.text ++
          bar :: (bigEndian 4 roster.members.length ++ bar :: members.flatten)) = bytes := by
  simp only [ReceivedRoster.signingPreimage, bind_eq_bind, bind_eq_some_iff,
    Option.pure_def, Option.some.injEq]

/-- Signed bytes of one shape belong to one roster. -/
theorem roster_bound {first second : ReceivedRoster} (one : first.signingPreimage = some bytes)
    (other : second.signingPreimage = some bytes) (shape : SameShape first second) :
    SameContent first second := by
  obtain ⟨members, signed, rfl⟩ := signingPreimage_eq_some_iff.mp one
  obtain ⟨members', signed', same⟩ := signingPreimage_eq_some_iff.mp other
  obtain ⟨versions, rest⟩ := bigEndian_append_injective same.symm
  obtain ⟨networks, counted⟩ := append_inj rest shape.1
  obtain ⟨-, listed⟩ := append_inj (tail_eq_of_cons_eq counted) (by simp)
  exact ⟨congrArg MeshNetworkId.mk (utf8_injective networks), versions,
    members_bound signed signed' shape.2 (tail_eq_of_cons_eq listed)⟩

variable {lib : Ed25519} {key : Bytes}

/-- Both ways of verification accept the signature of the same bytes. -/
theorem Verified.signed (verified : Verified lib key roster) :
    ∃ bytes sig, roster.signingPreimage = some bytes ∧
      fromHex roster.signature = some sig ∧ lib.verifyError key bytes sig = none := by
  rcases verified with direct | helper
  · revert direct
    fun_cases RosterVerifier.verify lib roster key with
    | case5 _ _ sig decoded =>
      intro direct
      simp only [bind_eq_bind, bind_eq_some_iff] at direct
      obtain ⟨bytes, preimage, accepted⟩ := direct
      refine ⟨bytes, sig, preimage, decoded, ?_⟩
      split at accepted
      · cases accepted
      · assumption
    | _ => rintro ⟨⟩
  · simp only [verifyRosterSignature, bind_eq_bind, bind_eq_some_iff] at helper
    obtain ⟨bytes, preimage, accepted⟩ := helper
    split at accepted
    · cases accepted
    next sig decoded =>
      refine ⟨bytes, sig, preimage, decoded, ?_⟩
      split_ifs at accepted
      · cases accepted
      · exact of_decide_eq_true (some.inj accepted)

theorem Twins.preimage {first second : ReceivedRoster} (ideal : IdealRosters lib)
    (twins : Twins lib key first second) :
    ∃ bytes, first.signingPreimage = some bytes ∧ second.signingPreimage = some bytes := by
  obtain ⟨bytes, sig, one, decoded, accepted⟩ := twins.verified.signed
  obtain ⟨bytes', signature', other, decoded', accepted'⟩ := twins.otherVerified.signed
  have signatures := (decoded.symm.trans (twins.signature.trans decoded'))
  cases some.inj signatures
  rw [← ideal key sig bytes bytes' accepted accepted'] at other
  exact ⟨bytes, one, other⟩

/-- Two rosters with one signature have the same content exactly when their texts have the same
lengths and their identifiers are spelled in the same case. -/
theorem roster_bound_iff (lib : Ed25519) (key : Bytes) (first second : ReceivedRoster)
    (ideal : IdealRosters lib) (twins : Twins lib key first second) :
    SameContent first second ↔ SameShape first second := by
  constructor
  · rintro ⟨network, -, members⟩
    unfold SameShape
    rw [network, members]
    exact ⟨rfl, rfl⟩
  · intro shape
    obtain ⟨bytes, one, other⟩ := twins.preimage ideal
    exact roster_bound one other shape

/-- This identifier repeats one byte. -/
def repeatedId (byte : UInt8) : NodeId := ⟨hexChars (List.replicate 32 byte)⟩

/-- This is a hostname that reads on as the rest of a member and the next one. -/
def longHost (host : String) (byte : Char) (next : String) : String :=
  String.ofList (host.toList ++ '|' :: Char.ofNat 0 :: '|' :: List.replicate 32 byte ++
    '|' :: next.toList)

def sampleNetwork : MeshNetworkId := ⟨toHex (List.replicate 32 0x11)⟩

def sampleSignature : Bytes := List.replicate 64 0

def splitLate : ReceivedRoster where
  networkId := sampleNetwork
  version := 1
  members := [⟨repeatedId 1, "a", false⟩, ⟨repeatedId 0x62, longHost "x" 'c' "y", false⟩]
  signature := toHex sampleSignature

def splitEarly : ReceivedRoster where
  networkId := sampleNetwork
  version := 1
  members := [⟨repeatedId 1, longHost "a" 'b' "x", false⟩, ⟨repeatedId 0x63, "y", false⟩]
  signature := toHex sampleSignature

/-- The coordinator signed one message. -/
def signedOnce (msg : Bytes) : Ed25519 where
  keyError _ := none
  hexError text := text
  verifyError _ bytes _ := if bytes = msg then none else some "signature error"

theorem signedOnce_ideal (msg : Bytes) : IdealRosters (signedOnce msg) := by
  intro key sig first second one other
  simp only [signedOnce, ite_eq_left_iff, reduceCtorEq, imp_false, not_not] at one other
  exact one.trans other.symm

theorem verify_signedOnce {msg : Bytes} (signed : roster.signature = toHex sampleSignature)
    (laid : roster.signingPreimage = some msg) :
    RosterVerifier.verify (signedOnce msg) roster key = some (.ok ()) := by
  have decoded : fromHex roster.signature = some sampleSignature := by
    rw [signed, fromHex, toHex, String.toList_ofList, bytesOfHexChars_hexChars]
  have nonempty : roster.signature.isEmpty = false := by
    rw [signed]
    decide +kernel
  have sixtyFour : sampleSignature.length = 64 := length_replicate
  simp [RosterVerifier.verify, nonempty, laid, decoded, signedOnce, sixtyFour]

/-- Both rosters are written as the same bytes. -/
theorem split_preimages : splitEarly.signingPreimage = splitLate.signingPreimage := by
  decide +kernel

theorem splitLate_preimage : ∃ msg, splitLate.signingPreimage = some msg := by
  exact ⟨_, rfl⟩

/-- The two rosters verify with one signature, and the theorem compares them. -/
theorem roster_bound_split :
    ∃ lib, IdealRosters lib ∧ Twins lib [] splitLate splitEarly ∧
      (SameContent splitLate splitEarly ↔ SameShape splitLate splitEarly) := by
  obtain ⟨msg, late⟩ := splitLate_preimage
  have ideal := signedOnce_ideal msg
  have twins : Twins (signedOnce msg) [] splitLate splitEarly :=
    ⟨.inl (verify_signedOnce rfl late),
      .inl (verify_signedOnce rfl (split_preimages.trans late)), rfl⟩
  exact ⟨signedOnce msg, ideal, twins, roster_bound_iff _ [] splitLate splitEarly ideal twins⟩

/-- A hostname with separators moves the border between two members. -/
theorem roster_not_bound :
    ¬ ∀ (lib : Ed25519) (key : Bytes) (first second : ReceivedRoster),
      IdealRosters lib → RosterVerifier.verify lib first key = some (.ok ()) →
        RosterVerifier.verify lib second key = some (.ok ()) →
          first.signature = second.signature → first.members.length < 2 ^ 32 →
            second.members.length < 2 ^ 32 → SameContent first second := by
  intro all
  obtain ⟨msg, late⟩ := splitLate_preimage
  have early := split_preimages.trans late
  have same := all (signedOnce msg) [] splitLate splitEarly (signedOnce_ideal msg)
    (verify_signedOnce rfl late) (verify_signedOnce rfl early) rfl (by decide) (by decide)
  exact absurd same.2.2 (by decide +kernel)

end A3Net.MeshCoordinator
