/-
This file says which accepted proofs describe the content: the check binds the bytes to the sides of
the path, and nothing binds the sides to the index and the offsets.
-/

import A3Net.Proof.Blobstore.BaoBinding

namespace A3Net.Blobstore

open Cryptography Machine ContentHash List Option

namespace MerklePath

/-- The null siblings are skipped. -/
def stepsOf (siblings : List MerkleSibling) : List MerkleStep :=
  siblings.filterMap fun sibling =>
    if sibling.isNull then none else sibling.hash.asBytesArray.map (MerkleStep.mk sibling.isLeft)

/-- The sides of the siblings from the root down. -/
def sides (path : MerklePath) : List Bool :=
  ((path.siblings.filter fun sibling => !sibling.isNull).map MerkleSibling.isLeft).reverse

/-- One round hashes the pair of a step. -/
theorem combine_ofDigest {cur : Digest} {sibling : MerkleSibling}
    (present : sibling.isNull = false) :
    combine (.ofDigest cur) sibling = sibling.hash.asBytesArray.map fun bytes =>
      .ofDigest (blake3 ((MerkleStep.mk sibling.isLeft bytes).input cur)) := by
  unfold combine
  cases decoded : sibling.hash.asBytesArray with
  | none => cases sibling.isLeft <;> simp [present, combineHashPair, decoded]
  | some bytes =>
    cases sibling.isLeft <;>
      simp [present, combineHashPair, decoded, fromBytes_eq, MerkleStep.input]

theorem foldlM_combine {siblings : List MerkleSibling} {start : Digest} {result : ContentHash}
    (finished : siblings.foldlM combine (ofDigest start) = some result) :
    result = .ofDigest (MerkleStep.climb blake3 start (stepsOf siblings)) ∧
      (stepsOf siblings).map MerkleStep.onLeft =
        (siblings.filter fun sibling => !sibling.isNull).map MerkleSibling.isLeft := by
  induction siblings generalizing start with
  | nil =>
    cases finished
    exact ⟨rfl, rfl⟩
  | cons sibling rest ih =>
    rw [foldlM_cons, bind_eq_bind, bind_eq_some_iff] at finished
    obtain ⟨next, combined, finished⟩ := finished
    cases null : sibling.isNull with
    | true =>
      have same : next = .ofDigest start := by
        simpa [combine, null] using combined.symm
      rw [same] at finished
      simpa [stepsOf, null] using ih finished
    | false =>
      rw [combine_ofDigest null, map_eq_some_iff] at combined
      obtain ⟨bytes, decoded, hashed⟩ := combined
      rw [← hashed] at finished
      have steps : stepsOf (sibling :: rest) =
          MerkleStep.mk sibling.isLeft bytes :: stepsOf rest := by
        simp [stepsOf, null, decoded]
      obtain ⟨climbed, sides⟩ := ih finished
      rw [steps]
      constructor
      · rw [climbed]
        rfl
      · simp [sides, null]

theorem verify_accepts {path : MerklePath} {leafHash expectedRoot : ContentHash}
    (accepted : path.verify leafHash expectedRoot = some (.ok ())) :
    path.computeRoot leafHash = some expectedRoot := by
  obtain ⟨computedRoot, computed, outcome⟩ := map_eq_some_iff.mp accepted
  by_cases same : computedRoot = expectedRoot
  · rw [computed, same]
  · rw [if_pos same] at outcome
    cases outcome

end MerklePath

namespace BaoProof

variable (proof : BaoProof) {expectedRoot : ContentHash}

/-- These are all bytes that `verify` hashes. -/
def hashed : List Bytes :=
  (proof.leaves.zip proof.paths).flatMap fun (leaf, path) =>
    leaf.data :: MerkleStep.inputs blake3 (blake3 leaf.data) (MerklePath.stepsOf path.siblings)

variable (content : Bytes)

/-- Every leaf is the chunk at the index and the offset that it and its path give. -/
def Describes : Prop :=
  proof.totalLen = content.length ∧
    ∀ leaf path, (leaf, path) ∈ proof.leaves.zip proof.paths →
      leaf.offset = path.leafIndex * chunkSize ∧ path.leafOffset = path.leafIndex * chunkSize ∧
        (pieces chunkSize content)[path.leafIndex]? = some leaf.data

/-- The sides lead to a node with the bytes. A path that goes on below a chunk is judged by the hash
of its leaf. -/
def Reaches (leaf : BaoLeaf) (path : MerklePath) (chunk : Bytes) : Prop :=
  match (BaoTree.chunkTree content).descend path.sides with
  | some subtree => subtree.preimage blake3 = chunk
  | none => leaf.hash = ContentHash.fromBytes chunk

/-- The fields that no check reads agree with the content and with the sides of the paths. -/
def Placed : Prop :=
  proof.totalLen = content.length ∧
    ∀ leaf path, (leaf, path) ∈ proof.leaves.zip proof.paths →
      leaf.offset = path.leafIndex * chunkSize ∧ path.leafOffset = path.leafIndex * chunkSize ∧
        ∃ chunk, (pieces chunkSize content)[path.leafIndex]? = some chunk ∧
          Reaches content leaf path chunk

theorem verifyEach_accepts {pairs : List (BaoLeaf × MerklePath)}
    (accepted : verifyEach expectedRoot pairs = some (.ok ())) {leaf : BaoLeaf} {path : MerklePath}
    (member : (leaf, path) ∈ pairs) :
    leaf.hash = fromBytes leaf.data ∧ path.computeRoot leaf.hash = some expectedRoot := by
  induction pairs with
  | nil => cases member
  | cons pair rest ih =>
    obtain ⟨firstLeaf, firstPath⟩ := pair
    rw [verifyEach] at accepted
    by_cases correct : fromBytes firstLeaf.data = firstLeaf.hash
    · rw [if_neg (not_not_intro correct)] at accepted
      cases checked : firstPath.verify firstLeaf.hash expectedRoot with
      | none =>
        rw [checked] at accepted
        cases accepted
      | some outcome =>
        rw [checked] at accepted
        cases outcome with
        | error error => cases accepted
        | ok _ =>
          rcases mem_cons.mp member with same | later
          · cases same
            exact ⟨correct.symm, MerklePath.verify_accepts checked⟩
          · exact ih accepted later
    · rw [if_pos correct] at accepted
      cases accepted

/-- What `verify` checks. -/
theorem verify_accepts {proof : BaoProof} (accepted : proof.verify expectedRoot = some (.ok ()))
    {leaf : BaoLeaf} {path : MerklePath} (member : (leaf, path) ∈ proof.leaves.zip proof.paths) :
    leaf.hash = fromBytes leaf.data ∧ path.computeRoot leaf.hash = some expectedRoot := by
  unfold verify at accepted
  split at accepted
  · cases accepted
  · split at accepted
    · cases accepted
    · exact verifyEach_accepts accepted member

section Accepted

variable {content : Bytes} {leaf : BaoLeaf} {path : MerklePath}
  (hashes : leaf.hash = ContentHash.fromBytes leaf.data)
  (computed : path.computeRoot leaf.hash = some (BaoTree.address (BaoTree.chunkTree content)))
  (resists : ∀ one ∈ leaf.data :: MerkleStep.inputs blake3 (blake3 leaf.data)
    (MerklePath.stepsOf path.siblings), ∀ other ∈ BaoTree.hashed content, Resists blake3 one other)

include hashes computed resists

/-- The bytes of an accepted leaf are those to which its path leads. -/
theorem leaf_preimage {subtree : MerkleTree Bytes}
    (reached : (BaoTree.chunkTree content).descend path.sides = some subtree) :
    subtree.preimage blake3 = leaf.data := by
  rw [hashes] at computed
  obtain ⟨climbed, sides⟩ := MerklePath.foldlM_combine computed
  apply MerkleStep.climb_preimage (ofDigest_injective climbed).symm resists
  rw [map_reverse, sides]
  exact reached

theorem reaches_iff {chunk : Bytes} (member : chunk ∈ BaoTree.hashed content) :
    Reaches content leaf path chunk ↔ chunk = leaf.data := by
  unfold Reaches
  cases reached : (BaoTree.chunkTree content).descend path.sides with
  | some subtree =>
    show subtree.preimage blake3 = chunk ↔ chunk = leaf.data
    rw [leaf_preimage hashes computed resists reached]
    exact eq_comm
  | none =>
    show leaf.hash = fromBytes chunk ↔ chunk = leaf.data
    rw [hashes]
    constructor
    · intro equal
      have digests := ofDigest_injective equal
      exact (resists leaf.data mem_cons_self chunk member digests).symm
    · intro equal
      rw [equal]

end Accepted

/-- An accepted proof describes the content exactly when its unchecked fields are placed. -/
theorem verify_describes_iff {content : Bytes} {tree : BaoTree}
    (built : BaoTree.build content = some tree) {proof : BaoProof}
    (accepted : proof.verify tree.rootHash = some (.ok ()))
    (resists : ∀ one ∈ proof.hashed, ∀ other ∈ BaoTree.hashed content, Resists blake3 one other) :
    proof.Describes content ↔ proof.Placed content := by
  rw [BaoTree.rootHash_of_build built] at accepted
  have reaches : ∀ leaf path, (leaf, path) ∈ proof.leaves.zip proof.paths →
      ((pieces chunkSize content)[path.leafIndex]? = some leaf.data ↔
        ∃ chunk, (pieces chunkSize content)[path.leafIndex]? = some chunk ∧
          Reaches content leaf path chunk) := by
    intro leaf path member
    obtain ⟨hashes, computed⟩ := verify_accepts accepted member
    have own := fun one oneIn => resists one (mem_flatMap.mpr ⟨(leaf, path), member, oneIn⟩)
    cases found : (pieces chunkSize content)[path.leafIndex]? with
    | none => simp
    | some chunk =>
      have hashed := BaoTree.chunk_mem_hashed (mem_of_getElem? found)
      simp only [some.injEq, exists_eq_left']
      exact (reaches_iff hashes computed own hashed).symm
  constructor
  · intro described
    refine ⟨described.1, fun leaf path member => ?_⟩
    obtain ⟨leafOffset, pathOffset, data⟩ := described.2 leaf path member
    exact ⟨leafOffset, pathOffset, (reaches leaf path member).mp data⟩
  · intro placed
    refine ⟨placed.1, fun leaf path member => ?_⟩
    obtain ⟨leafOffset, pathOffset, reached⟩ := placed.2 leaf path member
    exact ⟨leafOffset, pathOffset, (reaches leaf path member).mpr reached⟩

/-- This proof is about the content of the one byte 7. It has the only chunk twice, and calls it the
chunk at the index the second time. -/
def singleProof (index : Nat) : BaoProof where
  rootHash := ContentHash.fromBytes [7]
  totalLen := 1
  leaves := [BaoLeaf.new 0 [7], BaoLeaf.new (index * chunkSize) [7]]
  paths := [⟨0, 0, 1, []⟩, ⟨index, index * chunkSize, 1, []⟩]

theorem singleProof_accepted (index : Nat) :
    (singleProof index).verify (fromBytes [7]) = some (.ok ()) := by
  simp [verify, singleProof, verifyEach, BaoLeaf.new, MerklePath.verify, MerklePath.computeRoot]

theorem singleProof_resists (index : Nat) :
    ∀ one ∈ (singleProof index).hashed, ∀ other ∈ BaoTree.hashed [7], Resists blake3 one other := by
  intro one member
  have own : (singleProof index).hashed = [[7], [7]] := rfl
  obtain rfl : one = [7] := by simpa [own] using member
  exact BaoTree.hashed_singleton_resists 7 [7] mem_cons_self

theorem verify_describes_single :
    ∃ tree, BaoTree.build [7] = some tree ∧
      (singleProof 0).verify tree.rootHash = some (.ok ()) ∧
      (∀ one ∈ (singleProof 0).hashed, ∀ other ∈ BaoTree.hashed [7], Resists blake3 one other) ∧
      ((singleProof 0).Describes [7] ↔ (singleProof 0).Placed [7]) := by
  obtain ⟨tree, built, root, _⟩ := BaoTree.build_spec [7]
  have accepted : (singleProof 0).verify tree.rootHash = some (.ok ()) := by
    rw [root]
    exact singleProof_accepted 0
  have resists := singleProof_resists 0
  exact ⟨tree, built, accepted, resists, verify_describes_iff built accepted resists⟩

/-- The only chunk is accepted as the second one as well. -/
theorem verify_displaced :
    ¬ ∀ (content : Bytes) (tree : BaoTree) (proof : BaoProof),
      BaoTree.build content = some tree → proof.verify tree.rootHash = some (.ok ()) →
      (∀ one ∈ proof.hashed, ∀ other ∈ BaoTree.hashed content, Resists blake3 one other) →
      proof.Describes content := by
  intro sound
  obtain ⟨tree, built, root, _⟩ := BaoTree.build_spec [7]
  have accepted : (singleProof 1).verify tree.rootHash = some (.ok ()) := by
    rw [root]
    exact singleProof_accepted 1
  have described := sound [7] tree (singleProof 1) built accepted
    (singleProof_resists 1)
  have claimed := (described.2 _ _ (mem_cons_of_mem _ mem_cons_self)).2.2
  cases claimed

end BaoProof
end A3Net.Blobstore
