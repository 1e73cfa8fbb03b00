import A3Net.Construction.Blobstore.BaoTree
import A3Net.Cryptography.Merkle

namespace A3Net.Blobstore

open Cryptography Machine MerkleTree List Option

theorem combineHashPair_ofDigest (first second : Digest) :
    combineHashPair (.ofDigest first) (.ofDigest second) =
      some (.ofDigest (blake3 (first.bytes ++ second.bytes))) := by
  simp only [combineHashPair, ContentHash.asBytesArray_ofDigest, bind_eq_bind, bind_some]
  rfl

namespace BaoTree

variable (content : Bytes)

/-- This is the tree over the chunks of a content. -/
def chunkTree : MerkleTree Bytes := ofLeaves [] (pieces chunkSize content)

/-- These are all bytes that `build` hashes. -/
def hashed : List Bytes := (chunkTree content).inputs blake3

/-- The address of a subtree is kept in the place of the subtree. -/
def address (tree : MerkleTree Bytes) : ContentHash := .ofDigest (tree.root blake3)

theorem foldl_pushLeaf (chunks : List Bytes) (leaves : List BaoLeaf) (offset : Nat) :
    (chunks.foldl pushLeaf (leaves, offset)).1.map BaoLeaf.hash =
        leaves.map BaoLeaf.hash ++ (chunks.map leaf).map address ∧
      (chunks.foldl pushLeaf (leaves, offset)).2 = offset + chunks.flatten.length := by
  induction chunks generalizing leaves offset with
  | nil => simp
  | cons chunk rest ih =>
    obtain ⟨hashes, size⟩ := ih (leaves ++ [BaoLeaf.new offset chunk]) (offset + chunk.length)
    constructor
    · rw [foldl_cons, pushLeaf, hashes, map_append, append_assoc]
      rfl
    · rw [foldl_cons, pushLeaf, size, flatten_cons, length_append, Nat.add_assoc]

theorem nextLevel_address (trees : List (MerkleTree Bytes)) :
    nextLevel (trees.map address) = some ((pairUp node trees).map address) := by
  fun_induction pairUp node trees with
  | case1 first second rest ih =>
    rw [map_cons, map_cons, nextLevel, ih]
    simp only [address, combineHashPair_ofDigest, bind_eq_bind, bind_some]
    rfl
  | case2 | case3 => rfl

theorem climbLevels_address (bound : Nat) (trees : List (MerkleTree Bytes)) (height : Nat) :
    ∃ top, climbLevels bound (trees.map address) height =
      some ((reduce node bound trees).map address, top) := by
  induction bound generalizing trees height with
  | zero => exact ⟨height, rfl⟩
  | succ bound ih =>
    rw [climbLevels, reduce, length_map]
    split
    · exact ⟨height, rfl⟩
    · rw [nextLevel_address]
      exact ih _ _

theorem computeRootAndHeight_address {leaves : List BaoLeaf} {chunks : List Bytes}
    (hashes : leaves.map BaoLeaf.hash = (chunks.map leaf).map address) :
    ∃ height, computeRootAndHeight leaves = some (address (ofLeaves [] chunks), height) := by
  have count : leaves.length = chunks.length := by
    simpa using congrArg List.length hashes
  by_cases present : chunks = []
  · rw [present, length_nil, length_eq_zero_iff] at count
    rw [present, count]
    exact ⟨0, rfl⟩
  · obtain ⟨top, climbed⟩ := climbLevels_address chunks.length (chunks.map leaf) 0
    have nonempty : leaves.isEmpty = false := by
      rw [isEmpty_eq_false_iff, ← length_pos_iff, count]
      exact length_pos_iff.mpr present
    rw [computeRootAndHeight, nonempty, count, hashes, climbed, reduce_leaves_eq present]
    exact ⟨_, rfl⟩

/-- The root is the address of the tree over the chunks. -/
theorem build_spec : ∃ tree, build content = some tree ∧
    tree.rootHash = address (chunkTree content) ∧ tree.totalLen = content.length := by
  obtain ⟨hashes, size⟩ := foldl_pushLeaf (pieces chunkSize content) [] 0
  rw [pieces_flatten chunkSize_pos, Nat.zero_add] at size
  obtain ⟨height, computed⟩ := computeRootAndHeight_address hashes
  simp only [build, computed]
  exact ⟨_, rfl, rfl, size⟩

variable {content : Bytes}

theorem rootHash_of_build {tree : BaoTree} (built : build content = some tree) :
    tree.rootHash = address (chunkTree content) := by
  obtain ⟨other, builtOther, root, _⟩ := build_spec content
  rw [some.inj (built.symm.trans builtOther), root]

theorem totalLen_of_build {tree : BaoTree} (built : build content = some tree) :
    tree.totalLen = content.length := by
  obtain ⟨other, builtOther, _, size⟩ := build_spec content
  rw [some.inj (built.symm.trans builtOther), size]

theorem chunkTree_leaves (present : content ≠ []) :
    (chunkTree content).leaves = pieces chunkSize content := by
  apply leaves_ofLeaves
  intro empty
  apply present
  rw [← pieces_flatten chunkSize_pos content, empty, flatten_nil]

theorem chunk_mem_hashed {chunk : Bytes} (member : chunk ∈ pieces chunkSize content) :
    chunk ∈ hashed content := by
  have present : content ≠ [] := by
    intro empty
    rw [empty] at member
    cases member
  apply leaves_subset_inputs
  rwa [chunkTree_leaves present]

/-- The root and the length bind the content. -/
theorem build_binding {first second : Bytes} {firstTree secondTree : BaoTree}
    (firstBuilt : build first = some firstTree) (secondBuilt : build second = some secondTree)
    (resists : ∀ one ∈ hashed first, ∀ other ∈ hashed second, Resists blake3 one other)
    (roots : firstTree.rootHash = secondTree.rootHash)
    (lengths : firstTree.totalLen = secondTree.totalLen) : first = second := by
  rw [totalLen_of_build firstBuilt, totalLen_of_build secondBuilt] at lengths
  rw [rootHash_of_build firstBuilt, rootHash_of_build secondBuilt] at roots
  have shapes : (chunkTree first).shape = (chunkTree second).shape :=
    shape_ofLeaves (pieces_length_eq chunkSize_pos lengths)
  have trees : chunkTree first = chunkTree second :=
    eq_of_root_eq shapes (ContentHash.ofDigest_injective roots) resists
  by_cases present : first = []
  · rw [present, length_nil] at lengths
    rw [present, length_eq_zero_iff.mp lengths.symm]
  · have other : second ≠ [] := by
      rwa [← length_pos_iff, ← lengths, length_pos_iff]
    calc first = (chunkTree first).leaves.flatten := by
          rw [chunkTree_leaves present, pieces_flatten chunkSize_pos]
      _ = second := by
          rw [trees, chunkTree_leaves other, pieces_flatten chunkSize_pos]

/-- A content of one byte has one hash input. -/
theorem hashed_singleton_resists (byte : UInt8) :
    ∀ one ∈ hashed [byte], ∀ other ∈ hashed [byte], Resists blake3 one other := by
  have single : hashed [byte] = [[byte]] := by rfl
  intro one oneIn other otherIn _
  rw [single, mem_singleton] at oneIn otherIn
  rw [oneIn, otherIn]

theorem build_binding_sample :
    ∃ tree, build [7] = some tree ∧
      (∀ one ∈ hashed [7], ∀ other ∈ hashed [7], Resists blake3 one other) ∧
      ([7] : Bytes) = [7] := by
  obtain ⟨tree, built, _⟩ := build_spec [7]
  have resists := hashed_singleton_resists 7
  exact ⟨tree, built, resists, build_binding built built resists rfl rfl⟩

end BaoTree
end A3Net.Blobstore
