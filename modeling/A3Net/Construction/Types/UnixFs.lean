import A3Net.Construction.Types.Cid
import A3Net.Cryptography.Encoding

namespace A3Net

open Cryptography List

def Cid.fromContentBlake3 (data : Bytes) : Cid :=
  newV1 .raw ⟨HashCode.blake3.toU64, (blake3 data).bytes⟩

structure UnixFsLink where
  name : String
  cid : Cid
  tsize : Option UInt64

/-- The functions of this file read the fields of a sharded directory only. -/
inductive UnixFsNode where
  | raw | directory | file | symlink | metadata
  | hamtShardedDirectory (fanout bitsWidth : Option UInt64) (links : List UnixFsLink)

namespace Hamt

def defaultBitsWidth : UInt64 := 8

def hashName (name : String) : UInt64 :=
  .ofNat (ofLittleEndian ((blake3 (utf8 name)).bytes.take 8))

/-- A shift by 64 or more wraps, as in a release build. -/
def bucketIndex (hash bitsWidth : UInt64) (depth : Nat) : Nat :=
  let mask := (1 <<< bitsWidth) - 1
  let shift := .ofNat depth * bitsWidth
  ((hash >>> shift) &&& mask).toNat

def newShard (bitsWidth fanout : Option UInt64) : UnixFsNode :=
  let bits := bitsWidth.getD defaultBitsWidth
  .hamtShardedDirectory (some (fanout.getD (1 <<< bits))) (some bits) []

/-- A slot that no name has taken is a link to the content of one zero byte. -/
def placeholder (index : Nat) : UnixFsLink :=
  ⟨String.ofList (Nat.toDigits 16 index), .fromContentBlake3 [0], some 0⟩

/-- Every name is placed at depth 0. -/
def bucket (bitsWidth : Option UInt64) (name : String) : Nat :=
  bucketIndex (hashName name) (bitsWidth.getD defaultBitsWidth) 0

variable (links : List UnixFsLink) (index : Nat)

/-- Slots are pushed until there is one at the index. -/
def padded : List UnixFsLink :=
  links ++ (range' links.length (index + 1 - links.length)).map placeholder

/-- The only error is that of a node that is no sharded directory. -/
def insert (node : UnixFsNode) (name : String) (cid : Cid) (size : UInt64) : Option UnixFsNode :=
  match node with
  | .hamtShardedDirectory fanout bitsWidth links =>
    let index := bucket bitsWidth name
    some (.hamtShardedDirectory fanout bitsWidth
      ((padded links index).set index ⟨name, cid, some size⟩))
  | _ => none

def find (node : UnixFsNode) (name : String) : Option UnixFsLink :=
  match node with
  | .hamtShardedDirectory _ bitsWidth links =>
    links[bucket bitsWidth name]?.filter (·.name = name)
  | _ => none

def iter : UnixFsNode → List UnixFsLink
  | .hamtShardedDirectory _ _ links => links.filter fun link => link.name ≠ "" ∧ link.name ≠ "0"
  | _ => []

end Hamt
end A3Net
