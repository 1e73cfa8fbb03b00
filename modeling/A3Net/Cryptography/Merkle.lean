/-
A tree is built level by level, and a path climbs from some data to the root.
-/

import A3Net.Cryptography.Blake3
import Mathlib.Data.List.Induction

namespace A3Net.Cryptography

open List

section Levels

variable {Item Other : Type*} (join : Item → Item → Item)

/-- The last item of an odd level is carried up. -/
def pairUp : List Item → List Item
  | first :: second :: rest => join first second :: pairUp rest
  | [last] => [last]
  | [] => []

/-- The first argument bounds the number of levels. -/
def reduce : Nat → List Item → List Item
  | 0, level => level
  | bound + 1, level => if level.length ≤ 1 then level else reduce bound (pairUp join level)

theorem length_pairUp (level : List Item) :
    (pairUp join level).length = (level.length + 1) / 2 := by
  fun_induction pairUp join level with
  | case1 first second rest ih =>
    simp only [length_cons, ih]
    omega
  | case2 | case3 => simp

theorem length_reduce {bound : Nat} (level : List Item) (enough : level.length ≤ bound) :
    (reduce join bound level).length = min level.length 1 := by
  induction bound generalizing level with
  | zero =>
    rw [reduce]
    omega
  | succ bound ih =>
    rw [reduce]
    split
    · omega
    · have shorter := length_pairUp join level
      rw [ih _ (by omega), shorter]
      omega

variable {join} {other : Other → Other → Other} {image : Item → Other}

section

variable (hom : ∀ first second, image (join first second) = other (image first) (image second))
include hom

theorem map_pairUp (level : List Item) :
    (pairUp join level).map image = pairUp other (level.map image) := by
  fun_induction pairUp join level with
  | case1 first second rest ih => simp only [map_cons, pairUp, hom, ih]
  | case2 | case3 => rfl

theorem map_reduce (bound : Nat) (level : List Item) :
    (reduce join bound level).map image = reduce other bound (level.map image) := by
  induction bound generalizing level with
  | zero => rfl
  | succ bound ih =>
    rw [reduce, reduce, length_map, ← map_pairUp hom, ← ih]
    split <;> rfl

end

end Levels

inductive MerkleTree (Leaf : Type*) where
  | leaf (data : Leaf)
  | node (left right : MerkleTree Leaf)

namespace MerkleTree

section Shape

variable {Leaf : Type*}

def shape : MerkleTree Leaf → MerkleTree Unit
  | .leaf _ => .leaf ()
  | .node left right => .node left.shape right.shape

def leaves : MerkleTree Leaf → List Leaf
  | .leaf data => [data]
  | .node left right => left.leaves ++ right.leaves

/-- Every step says whether the right subtree is taken. -/
def descend : MerkleTree Leaf → List Bool → Option (MerkleTree Leaf)
  | tree, [] => some tree
  | .leaf _, _ :: _ => none
  | .node left right, goRight :: rest => (if goRight then right else left).descend rest

/-- The leaves are joined level by level, and the default stands for an empty list. -/
def ofLeaves (default : Leaf) (data : List Leaf) : MerkleTree Leaf :=
  (reduce .node data.length (data.map .leaf)).headD (.leaf default)

theorem flatMap_leaves_pairUp (level : List (MerkleTree Leaf)) :
    (pairUp .node level).flatMap leaves = level.flatMap leaves := by
  fun_induction pairUp MerkleTree.node level with
  | case1 first second rest ih =>
    simp only [flatMap_cons, leaves, ih, append_assoc]
  | case2 | case3 => rfl

theorem flatMap_leaves_reduce (bound : Nat) (level : List (MerkleTree Leaf)) :
    (reduce .node bound level).flatMap leaves = level.flatMap leaves := by
  induction bound generalizing level with
  | zero => rfl
  | succ bound ih =>
    rw [reduce]
    split
    · rfl
    · rw [ih, flatMap_leaves_pairUp]

variable {data : List Leaf} {default : Leaf}

/-- One tree remains after the last level. -/
theorem reduce_leaves_eq (present : data ≠ []) :
    reduce .node data.length (data.map .leaf) = [ofLeaves default data] := by
  have positive : 0 < data.length := length_pos_iff.mpr present
  have single := length_reduce MerkleTree.node (data.map .leaf) (Nat.le_of_eq (length_map _))
  rw [length_map, Nat.min_eq_right positive] at single
  obtain ⟨top, equal⟩ := length_eq_one_iff.mp single
  rw [ofLeaves, equal]
  rfl

theorem leaves_ofLeaves (default : Leaf) (present : data ≠ []) :
    (ofLeaves default data).leaves = data := by
  have kept := flatMap_leaves_reduce data.length (data.map MerkleTree.leaf)
  rw [reduce_leaves_eq present, flatMap_singleton, flatMap_map] at kept
  rw [kept]
  exact flatMap_singleton' data

theorem shape_ofLeaves {first second : List Leaf} (same : first.length = second.length) :
    (ofLeaves default first).shape = (ofLeaves default second).shape := by
  have hom : ∀ left right : MerkleTree Leaf,
      (node left right).shape = node left.shape right.shape :=
    fun _ _ => rfl
  have flat : ∀ data : List Leaf, (ofLeaves default data).shape =
      (reduce .node data.length (List.replicate data.length (.leaf ()))).headD (.leaf ()) := by
    intro data
    have leaves : (data.map MerkleTree.leaf).map shape = List.replicate data.length (.leaf ()) := by
      rw [map_map]
      exact map_const'
    rw [← leaves, ← map_reduce hom, ofLeaves]
    cases reduce node data.length (data.map leaf) <;> rfl
  rw [flat, flat, same]

end Shape

variable (hash : Bytes → Digest)

def root : MerkleTree Bytes → Digest
  | .leaf data => hash data
  | .node left right => hash (left.root.bytes ++ right.root.bytes)

/-- The root of a tree is the hash of these bytes. -/
def preimage : MerkleTree Bytes → Bytes
  | .leaf data => data
  | .node left right => (left.root hash).bytes ++ (right.root hash).bytes

/-- These are all bytes that are hashed for the root. -/
def inputs : MerkleTree Bytes → List Bytes
  | .leaf data => [data]
  | .node left right => (node left right).preimage hash :: (left.inputs ++ right.inputs)

variable (tree : MerkleTree Bytes)

theorem root_eq : tree.root hash = hash (tree.preimage hash) := by
  cases tree <;> rfl

theorem preimage_mem_inputs : tree.preimage hash ∈ tree.inputs hash := by
  cases tree with
  | leaf data => exact mem_singleton.mpr rfl
  | node left right => exact mem_cons_self

theorem leaves_subset_inputs : tree.leaves ⊆ tree.inputs hash := by
  induction tree with
  | leaf data => exact List.Subset.refl _
  | node left right leftIh rightIh =>
    intro data member
    apply mem_cons_of_mem
    rcases mem_append.mp member with inLeft | inRight
    · exact mem_append_left _ (leftIh inLeft)
    · exact mem_append_right _ (rightIh inRight)

variable {hash}

/-- Equal bytes of two digests each have equal digests. -/
theorem pair_injective {left right first second : Digest}
    (equal : left.bytes ++ right.bytes = first.bytes ++ second.bytes) :
    left = first ∧ right = second := by
  have halves := append_inj equal (left.size.trans first.size.symm)
  exact ⟨Digest.bytes_injective halves.1, Digest.bytes_injective halves.2⟩

theorem preimage_eq_of_root_eq {data : Bytes} {tree : MerkleTree Bytes}
    (resists : ∀ other ∈ tree.inputs hash, Resists hash data other)
    (top : hash data = tree.root hash) : data = tree.preimage hash := by
  rw [root_eq] at top
  exact resists _ (preimage_mem_inputs hash tree) top

/-- The root binds every leaf of a tree of known shape. -/
theorem eq_of_root_eq {first second : MerkleTree Bytes} (shapes : first.shape = second.shape)
    (roots : first.root hash = second.root hash)
    (resists : ∀ one ∈ first.inputs hash, ∀ other ∈ second.inputs hash, Resists hash one other) :
    first = second := by
  induction first generalizing second with
  | leaf data =>
    cases second with
    | leaf other =>
      exact congrArg leaf (resists data mem_cons_self other mem_cons_self roots)
    | node left right => cases shapes
  | node left right leftIh rightIh =>
    cases second with
    | leaf other => cases shapes
    | node leftOther rightOther =>
      obtain ⟨leftRoots, rightRoots⟩ := pair_injective
        (preimage_eq_of_root_eq (resists _ mem_cons_self) roots)
      injection shapes with leftShapes rightShapes
      have leftEqual := leftIh leftShapes leftRoots (fun one oneIn other otherIn =>
        resists one (mem_cons_of_mem _ (mem_append_left _ oneIn)) other
          (mem_cons_of_mem _ (mem_append_left _ otherIn)))
      have rightEqual := rightIh rightShapes rightRoots (fun one oneIn other otherIn =>
        resists one (mem_cons_of_mem _ (mem_append_right _ oneIn)) other
          (mem_cons_of_mem _ (mem_append_right _ otherIn)))
      rw [leftEqual, rightEqual]

end MerkleTree

/-- A path gives the sibling of every node, with its side. -/
structure MerkleStep where
  onLeft : Bool
  sibling : Digest

namespace MerkleStep

def input (cur : Digest) (step : MerkleStep) : Bytes :=
  if step.onLeft then step.sibling.bytes ++ cur.bytes
  else cur.bytes ++ step.sibling.bytes

variable (hash : Bytes → Digest) (start : Digest)

/-- The steps are taken from the bottom to the root. -/
def climb (steps : List MerkleStep) : Digest :=
  steps.foldl (fun cur step => hash (step.input cur)) start

/-- These are all bytes that are hashed on the way. -/
def inputs : Digest → List MerkleStep → List Bytes
  | _, [] => []
  | cur, step :: rest => step.input cur :: inputs (hash (step.input cur)) rest

theorem climb_append_singleton (steps : List MerkleStep) (last : MerkleStep) :
    climb hash start (steps ++ [last]) = hash (last.input (climb hash start steps)) := by
  rw [climb, foldl_append]
  rfl

theorem inputs_append_singleton (steps : List MerkleStep) (last : MerkleStep) :
    inputs hash start (steps ++ [last]) =
      inputs hash start steps ++ [last.input (climb hash start steps)] := by
  induction steps generalizing start with
  | nil => rfl
  | cons step rest ih => exact congrArg _ (ih _)

variable {hash}

/-- A climb to the root of a tree starts from the bytes of the node to which its sides lead, unless
the sides lead below a leaf. -/
theorem climb_preimage {tree : MerkleTree Bytes} {data : Bytes} {steps : List MerkleStep}
    (top : climb hash (hash data) steps = tree.root hash)
    (resists : ∀ one ∈ data :: inputs hash (hash data) steps, ∀ other ∈ tree.inputs hash,
      Resists hash one other)
    {subtree : MerkleTree Bytes}
    (reached : tree.descend (steps.reverse.map MerkleStep.onLeft) = some subtree) :
    subtree.preimage hash = data := by
  -- The last step of the climb is the first one of the descent.
  induction steps using List.reverseRecOn generalizing tree with
  | nil =>
    cases reached
    exact (MerkleTree.preimage_eq_of_root_eq (resists data mem_cons_self) top).symm
  | append_singleton steps last ih =>
    rw [inputs_append_singleton] at resists
    rw [climb_append_singleton] at top
    have equal := MerkleTree.preimage_eq_of_root_eq (resists _
      (mem_cons_of_mem _ (mem_append_right _ mem_cons_self))) top
    rw [reverse_append, reverse_singleton, singleton_append, map_cons] at reached
    cases tree with
    | leaf bytes => cases reached
    | node left right =>
      have below : ∀ one ∈ data :: inputs hash (hash data) steps,
          ∀ other ∈ left.inputs hash ++ right.inputs hash, Resists hash one other := by
        intro one oneIn other otherIn
        apply resists one _ other (mem_cons_of_mem _ otherIn)
        exact mem_append_left _ oneIn
      cases side : last.onLeft with
      | false =>
        simp only [MerkleTree.descend, side] at reached
        simp only [input, side] at equal
        exact ih (MerkleTree.pair_injective equal).1
          (fun one oneIn other otherIn =>
            below one oneIn other (mem_append_left _ otherIn))
          reached
      | true =>
        simp only [MerkleTree.descend, side] at reached
        simp only [input, side] at equal
        exact ih (MerkleTree.pair_injective equal).2
          (fun one oneIn other otherIn =>
            below one oneIn other (mem_append_right _ otherIn))
          reached

end MerkleStep

end A3Net.Cryptography
