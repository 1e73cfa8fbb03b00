import A3Net.Construction.Blobstore.Store

namespace A3Net.Blobstore

open Cryptography Machine ContentHash

/-- No result stands for the panic of `as_bytes_array`. -/
def combineHashPair (first second : ContentHash) : Option ContentHash := do
  let firstBytes ← first.asBytesArray
  let secondBytes ← second.asBytesArray
  return fromBytes (firstBytes.bytes ++ secondBytes.bytes)

structure BaoLeaf where
  offset : Nat
  data : Bytes
  hash : ContentHash

def BaoLeaf.new (offset : Nat) (data : Bytes) : BaoLeaf :=
  ⟨offset, data, fromBytes data⟩

/-- The parents are derived from the leaves when they are needed. -/
structure BaoTree where
  leaves : List BaoLeaf
  rootHash : ContentHash
  totalLen : Nat
  height : Nat

namespace BaoTree

/-- The leaves come with the offset of the next one. -/
def pushLeaf (state : List BaoLeaf × Nat) (chunk : Bytes) : List BaoLeaf × Nat :=
  (state.1 ++ [BaoLeaf.new state.2 chunk], state.2 + chunk.length)

def nextLevel : List ContentHash → Option (List ContentHash)
  | first :: second :: rest => do
      let parent ← combineHashPair first second
      let parents ← nextLevel rest
      return parent :: parents
  | [last] => some [last]
  | [] => some []

/-- The first argument bounds the number of rounds. -/
def climbLevels : Nat → List ContentHash → Nat → Option (List ContentHash × Nat)
  | 0, level, height => some (level, height)
  | bound + 1, level, height =>
    if level.length ≤ 1 then some (level, height)
    else do
      let next ← nextLevel level
      climbLevels bound next (height + 1)

def computeRootAndHeight (leaves : List BaoLeaf) : Option (ContentHash × Nat) :=
  if leaves.isEmpty then some (fromBytes [], 0)
  else do
    let (level, height) ← climbLevels leaves.length (leaves.map BaoLeaf.hash) 0
    let rootHash := level.headD (fromBytes [])
    return (rootHash, if leaves.length = 1 ∧ height = 0 then 1 else height)

def build (content : Bytes) : Option BaoTree := do
  let (leaves, totalLen) := (pieces chunkSize content).foldl pushLeaf ([], 0)
  let (rootHash, height) ← computeRootAndHeight leaves
  return {leaves, rootHash, totalLen, height}

end BaoTree

inductive BaoTreeError where
  | leafHashMismatch (index : Nat) (expected actual : ContentHash)
  | proofVerificationFailed (text : String)

/-- A call panics, fails or succeeds. -/
abbrev BaoResult (α : Type) := Option (Except BaoTreeError α)

structure MerkleSibling where
  level : UInt8
  index : Nat
  offset : Nat
  len : Nat
  hash : ContentHash
  isLeft : Bool
  isNull : Bool

structure MerklePath where
  leafIndex : Nat
  leafOffset : Nat
  leafLen : Nat
  siblings : List MerkleSibling

namespace MerklePath

/-- The hash of one round of the loop. -/
def combine (current : ContentHash) (sibling : MerkleSibling) : Option ContentHash :=
  if sibling.isNull then some current
  else if sibling.isLeft then combineHashPair sibling.hash current
  else do
    let siblingBytes ← sibling.hash.asBytesArray
    let currentBytes ← current.asBytesArray
    return fromBytes (currentBytes.bytes ++ siblingBytes.bytes)

/-- The result is never an error. -/
def computeRoot (path : MerklePath) (leafHash : ContentHash) : Option ContentHash :=
  path.siblings.foldlM combine leafHash

def verify (path : MerklePath) (leafHash expectedRoot : ContentHash) : BaoResult Unit :=
  (path.computeRoot leafHash).map fun computedRoot =>
    if computedRoot ≠ expectedRoot then
      let computed := computedRoot.text
      let expected := expectedRoot.text
      .error (.proofVerificationFailed s!"computed root {computed} != expected {expected}")
    else .ok ()

end MerklePath

structure BaoProof where
  rootHash : ContentHash
  totalLen : Nat
  leaves : List BaoLeaf
  paths : List MerklePath

namespace BaoProof

/-- The first failure ends the loop. -/
def verifyEach (expectedRoot : ContentHash) : List (BaoLeaf × MerklePath) → BaoResult Unit
  | [] => some (.ok ())
  | (leaf, path) :: rest =>
    let computed := fromBytes leaf.data
    if computed ≠ leaf.hash then some (.error (.leafHashMismatch 0 leaf.hash computed))
    else
      match path.verify leaf.hash expectedRoot with
      | some (.ok ()) => verifyEach expectedRoot rest
      | failed => failed

def verify (proof : BaoProof) (expectedRoot : ContentHash) : BaoResult Unit :=
  if proof.rootHash ≠ expectedRoot then
    some (.error (.proofVerificationFailed "root hash mismatch"))
  else if proof.leaves.length ≠ proof.paths.length then
    let leaves := proof.leaves.length
    let paths := proof.paths.length
    some (.error (.proofVerificationFailed s!"leaves count {leaves} != paths count {paths}"))
  else
    verifyEach expectedRoot (proof.leaves.zip proof.paths)

end BaoProof

/-- The hasher is left out, because nothing reads it. -/
structure BaoTreeBuilder where
  leaves : List BaoLeaf := []
  currentOffset : Nat := 0
  chunkBuf : Bytes := []

namespace BaoTreeBuilder

variable (builder : BaoTreeBuilder)

/-- The buffer becomes a leaf. -/
def emit : BaoTreeBuilder :=
  let (leaves, currentOffset) :=
    BaoTree.pushLeaf (builder.leaves, builder.currentOffset) builder.chunkBuf
  {leaves, currentOffset}

/-- The first argument bounds the number of rounds. -/
def writeLoop : Nat → BaoTreeBuilder → Bytes → BaoTreeBuilder
  | 0, builder, _ => builder
  | _ + 1, builder, [] => builder
  | bound + 1, builder, remaining =>
    let take := min (chunkSize - builder.chunkBuf.length) remaining.length
    let filled := {builder with chunkBuf := builder.chunkBuf ++ remaining.take take}
    writeLoop bound (if filled.chunkBuf.length = chunkSize then filled.emit else filled)
      (remaining.drop take)

def write (buf : Bytes) : BaoTreeBuilder :=
  writeLoop buf.length builder buf

def finish : Option BaoTree := do
  let flushed := if builder.chunkBuf.isEmpty then builder else builder.emit
  let (rootHash, height) ← BaoTree.computeRootAndHeight flushed.leaves
  return {leaves := flushed.leaves, rootHash, totalLen := flushed.currentOffset, height}

end BaoTreeBuilder

end A3Net.Blobstore
