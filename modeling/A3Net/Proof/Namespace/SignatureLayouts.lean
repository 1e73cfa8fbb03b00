import A3Net.Construction.Namespace.Ipns
import A3Net.Cryptography.Blake3

namespace A3Net.Ipns

open Cryptography

/-- The three ways in which a signature is checked. -/
inductive Check where
  | signature | protobuf | legacy

inductive Layout where
  | standard | legacy

def Check.layout : Check → Layout
  | .signature | .protobuf => .standard
  | .legacy => .legacy

variable {lib : Ed25519} {key : Bytes}

namespace Ed25519

theorem eq_of_fromBytes {verifier : Verifier} (built : lib.fromBytes key = .ok verifier) :
    verifier = lib.verifier key := by
  unfold fromBytes at built
  split at built
  · exact (Except.ok.inj built).symm
  · cases built

theorem verify_of_verifier {data signature : Bytes}
    (verified : lib.verifier key data signature = true) : lib.verify key data signature = true := by
  unfold verifier at verified
  split at verified
  · cases verified
  · exact verified

end Ed25519

namespace IpnRecord

def signedBytes (record : IpnRecord) : Layout → Bytes
  | .standard => record.signingData
  | .legacy => record.legacySigningData

/-- The check takes the record under the public key. -/
def Accepted (lib : Ed25519) (key : Bytes) (record : IpnRecord) : Check → Prop
  | .signature => ∃ verifier, lib.fromBytes key = .ok verifier ∧
      record.verifySignature verifier = true
  | .protobuf => record.verifyProtobufSignature lib key = .ok ()
  | .legacy => ∃ verifier, lib.fromBytes key = .ok verifier ∧
      record.verifySignatureLegacy verifier = true

/-- The records agree on what they say and for how long. -/
def Agree (first second : IpnRecord) : Prop :=
  first.value = second.value ∧ first.sequence = second.sequence ∧
    first.ttlSecs = second.ttlSecs ∧ first.expires = second.expires

variable (record : IpnRecord)

variable {first second : IpnRecord}

theorem agree_of_signingData (same : first.signingData = second.signingData) :
    first.Agree second := by
  simp only [signingData, List.append_assoc, List.cons_append, List.nil_append] at same
  injection same with _ same
  injection same with _ same
  obtain ⟨sequences, same⟩ := bigEndian_append_injective same
  obtain ⟨ttls, same⟩ := bigEndian_append_injective same
  injection same with _ same
  obtain ⟨expiries, values⟩ := bigEndian_append_injective same
  exact ⟨utf8_injective values, sequences, ttls, expiries⟩

theorem agree_of_legacySigningData (same : first.legacySigningData = second.legacySigningData) :
    first.Agree second := by
  simp only [legacySigningData, List.append_assoc, List.cons_append, List.nil_append] at same
  injection same with _ same
  injection same with _ same
  obtain ⟨sequences, same⟩ := bigEndian_append_injective same
  obtain ⟨ttls, same⟩ := bigEndian_append_injective same
  obtain ⟨_, same⟩ := bigEndian_append_injective same
  obtain ⟨expiries, same⟩ := bigEndian_append_injective same
  obtain ⟨_, values⟩ := List.append_inj same (by simp)
  exact ⟨utf8_injective values, sequences, ttls, expiries⟩

/-- The legacy layout has eleven more bytes beside the value. -/
theorem values_differ_of_layouts (same : first.signingData = second.legacySigningData) :
    first.value ≠ second.value := by
  intro equal
  have lengths := congrArg List.length same
  simp [signingData, legacySigningData, equal] at lengths
  omega

theorem agree_iff_layout {firstLayout secondLayout : Layout}
    (same : first.signedBytes firstLayout = second.signedBytes secondLayout) :
    first.Agree second ↔ firstLayout = secondLayout := by
  cases firstLayout <;> cases secondLayout
  · exact ⟨fun _ => rfl, fun _ => agree_of_signingData same⟩
  · exact ⟨fun agree => absurd agree.1 (values_differ_of_layouts same), fun equal => by cases equal⟩
  · exact ⟨fun agree => absurd agree.1.symm (values_differ_of_layouts same.symm),
      fun equal => by cases equal⟩
  · exact ⟨fun _ => rfl, fun _ => agree_of_legacySigningData same⟩

theorem Accepted.verified {record : IpnRecord} {check : Check}
    (accepted : record.Accepted lib key check) :
    lib.verify key (record.signedBytes check.layout) record.signature = true := by
  cases check with
  | signature =>
    obtain ⟨verifier, built, verified⟩ := accepted
    rw [Ed25519.eq_of_fromBytes built, verifySignature] at verified
    split at verified
    · cases verified
    · exact Ed25519.verify_of_verifier verified
  | legacy =>
    obtain ⟨verifier, built, verified⟩ := accepted
    rw [Ed25519.eq_of_fromBytes built, verifySignatureLegacy] at verified
    split at verified
    · cases verified
    · exact Ed25519.verify_of_verifier verified
  | protobuf =>
    rw [Accepted, verifyProtobufSignature] at accepted
    split_ifs at accepted
    cases built : lib.fromBytes key with
    | error error =>
      rw [built] at accepted
      cases accepted
    | ok verifier =>
      rw [built] at accepted
      by_cases verified : verifier record.signingData record.signature = true
      · rw [Ed25519.eq_of_fromBytes built] at verified
        exact Ed25519.verify_of_verifier verified
      · simp [verified] at accepted

/-- Records that are accepted with one signature agree exactly when they are accepted in one
layout. -/
theorem accepted_agree_iff {lib : Ed25519}
    (ideal : Ideal fun key data signature => lib.verify key data signature = true)
    {key : Bytes} {first second : IpnRecord} {firstCheck secondCheck : Check}
    (signatures : first.signature = second.signature)
    (firstAccepted : first.Accepted lib key firstCheck)
    (secondAccepted : second.Accepted lib key secondCheck) :
    first.Agree second ↔ firstCheck.layout = secondCheck.layout := by
  have one := firstAccepted.verified
  have other := secondAccepted.verified
  rw [← signatures] at other
  exact agree_iff_layout (ideal key first.signature _ _ one other)

/-- The owner of the key signed this record in the legacy layout. -/
def signedRecord : IpnRecord where
  name := "n"
  value := "hello"
  sequence := 1
  ttlSecs := 3600
  created := 0x65010203
  expires := 0x65011013
  signature := List.replicate 64 7
  sigType := 1
  validityType := "0"
  validityOffset := 3600

/-- This library accepts one message. -/
def sampleLibrary : Ed25519 where
  isKey := fun _ => true
  verify := fun _ data _ => data = signedRecord.legacySigningData

theorem sampleLibrary_ideal :
    Ideal fun key data signature => sampleLibrary.verify key data signature = true := by
  intro key signature first second one other
  rw [of_decide_eq_true one, of_decide_eq_true other]

/-- The bytes of the signed record, read in the standard layout. -/
def replayedRecord : IpnRecord where
  name := "n"
  value := "\x00\x00\x00e\x01\x10\x13\x00\x00\x00\x05hello"
  sequence := 1
  ttlSecs := 3600
  created := 0
  expires := 0x6501020300
  signature := List.replicate 64 7
  sigType := 1
  validityType := "0"
  validityOffset := 0

def sampleKey : Bytes := List.replicate 32 1

theorem signedRecord_accepted : signedRecord.Accepted sampleLibrary sampleKey .legacy :=
  ⟨_, rfl, by decide⟩

theorem accepted_agree_sample :
    (Ideal fun key data signature => sampleLibrary.verify key data signature = true) ∧
      signedRecord.Accepted sampleLibrary sampleKey .legacy ∧
      (signedRecord.Agree signedRecord ↔ Check.legacy.layout = Check.legacy.layout) :=
  ⟨sampleLibrary_ideal, signedRecord_accepted,
    accepted_agree_iff sampleLibrary_ideal rfl signedRecord_accepted signedRecord_accepted⟩

/-- The signature of a legacy record is taken for another record with a much later expiry. -/
theorem accepted_replayed :
    ¬ ∀ (lib : Ed25519),
      (Ideal fun key data signature => lib.verify key data signature = true) →
      ∀ (key : Bytes) (first second : IpnRecord) (firstCheck secondCheck : Check),
        first.signature = second.signature → first.Accepted lib key firstCheck →
        second.Accepted lib key secondCheck → first.Agree second := by
  intro binding
  have replayed : replayedRecord.Accepted sampleLibrary sampleKey .signature := ⟨_, rfl, by decide⟩
  have agree := binding sampleLibrary sampleLibrary_ideal sampleKey signedRecord replayedRecord
    .legacy .signature rfl signedRecord_accepted replayed
  exact absurd agree.1 (by decide)

open List

/-- A record comes back from its protobuf form without its name and its time of creation, and no
check of its signature looks at these. -/
theorem protobuf_round_trip (record : IpnRecord) (signed : record.signature.length = 64)
    (typed : record.validityType = "0" ∨ record.validityType = "1") :
    fromIpnsProtobuf record.toIpnsProtobuf = .ok {record with name := "", created := 0} ∧
      ∀ (lib : Ed25519) (key : Bytes),
        verifyProtobufSignature lib {record with name := "", created := 0} key =
          record.verifyProtobufSignature lib key := by
  refine ⟨?_, fun _ _ => rfl⟩
  obtain ⟨header, shape, size⟩ : ∃ header, record.toIpnsProtobuf =
      header ++ utf8 record.value ++ record.signature ∧ header.length = 35 := ⟨_, rfl, by simp⟩
  have ends : (header ++ utf8 record.value).length = 35 + (utf8 record.value).length := by
    rw [length_append, size]
  have length : record.toIpnsProtobuf.length = 35 + (utf8 record.value).length + 64 := by
    rw [shape, length_append, ends, signed]
  have value : (record.toIpnsProtobuf.take (35 + (utf8 record.value).length)).drop 35 =
      utf8 record.value := by
    rw [shape, take_left' ends, drop_left' size]
  have sig : record.toIpnsProtobuf.drop (35 + (utf8 record.value).length) = record.signature := by
    rw [shape, drop_left' ends]
  have word (number : UInt64) : UInt64.ofNat (ofBigEndian (bigEndian 8 number.toNat)) = number := by
    rw [ofBigEndian_bigEndian 8 number.toNat_lt, UInt64.ofNat_toNat]
  have byte : UInt8.ofNat (ofBigEndian (bigEndian 2 record.sigType.toNat)) = record.sigType := by
    have bound := record.sigType.toNat_lt
    rw [ofBigEndian_bigEndian 2 (by omega), UInt8.ofNat_toNat]
  have validity : (if record.toIpnsProtobuf[26]? = some 1 then "1" else "0") =
      record.validityType := by
    obtain typed | typed := typed <;> simp [toIpnsProtobuf, getElem?_append, validityByte, typed]
  have text : fromUtf8 (utf8 record.value) = some record.value.toList := fromUtf8_utf8Chars
  unfold fromIpnsProtobuf
  simp only [length, Nat.add_sub_cancel, value, sig, signed, validity, text]
  rw [if_neg (by omega), if_neg (by simp)]
  simp [wordAt, toIpnsProtobuf, drop_append, drop_of_length_le, word, byte]

theorem protobuf_round_trip_signed :
    fromIpnsProtobuf signedRecord.toIpnsProtobuf =
      .ok {signedRecord with name := "", created := 0} :=
  (protobuf_round_trip signedRecord rfl (.inl rfl)).1

end IpnRecord
end A3Net.Ipns
