/-
A stored digest is compared only as far as it goes, whatever hash function it names.
-/

import A3Net.Construction.Types.Cid

namespace A3Net.Cid

open Cryptography

/-- A content that matches has its complete hash in the identifier, and no other content matches. -/
structure Binds (cid : Cid) : Prop where
  complete : ∀ content, cid.verifyContent content →
    cid.multihash.code = HashCode.blake3.toU64 ∧ cid.multihash.digest = (blake3 content).bytes
  once : ∀ first second, cid.verifyContent first → cid.verifyContent second →
    Resists blake3 first second → first = second

/-- The check binds an identifier that some content matches exactly when the identifier has a
complete BLAKE3 digest. -/
theorem content_check_binds_iff (cid : Cid) {content : Bytes}
    (matched : cid.verifyContent content) :
    cid.Binds ↔
      cid.multihash.code = HashCode.blake3.toU64 ∧ cid.multihash.digest.length = 32 := by
  constructor
  · intro binds
    obtain ⟨code, digest⟩ := binds.complete content matched
    exact ⟨code, digest ▸ (blake3 content).size⟩
  · rintro ⟨code, whole⟩
    have complete : ∀ content, cid.verifyContent content →
        cid.multihash.digest = (blake3 content).bytes := by
      intro content verified
      have size := (blake3 content).size
      simpa [verifyContent, whole, size, List.take_of_length_le] using verified
    refine ⟨fun content verified => ⟨code, complete content verified⟩, ?_⟩
    intro first second one other resists
    apply resists
    apply Digest.bytes_injective
    rw [← complete first one, complete second other]

/-- This identifier has the complete hash of a content. -/
def wholeCid (content : Bytes) : Cid := newV1 .raw ⟨HashCode.blake3.toU64, (blake3 content).bytes⟩

theorem wholeCid_matches (content : Bytes) : (wholeCid content).verifyContent content := by
  simp [wholeCid, newV1, verifyContent]

theorem wholeCid_whole (content : Bytes) :
    (wholeCid content).multihash.code = HashCode.blake3.toU64 ∧
      (wholeCid content).multihash.digest.length = 32 :=
  ⟨rfl, (blake3 content).size⟩

theorem wholeCid_binds : (wholeCid [1, 2, 3]).Binds :=
  (content_check_binds_iff _ (wholeCid_matches [1, 2, 3])).mpr (wholeCid_whole [1, 2, 3])

/-- An empty digest passes the parser and matches every content. -/
theorem empty_digest_matches :
    ¬ ∀ (bytes : Bytes) (multihash : Multihash), Multihash.fromBytes bytes = some multihash →
      (newV1 .raw multihash).Binds := by
  intro binds
  have empty : Multihash.fromBytes [0x1e, 0] = some ⟨0x1e, []⟩ := by decide
  have complete := (binds [0x1e, 0] _ empty).complete [] (by simp [newV1, verifyContent])
  have size := (blake3 []).size
  rw [← complete.2] at size
  cases size

end A3Net.Cid
