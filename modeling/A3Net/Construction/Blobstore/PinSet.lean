import A3Net.Construction.Blobstore.Store
import A3Net.Machine.Table
import A3Net.Machine.Text

namespace A3Net.Blobstore

open Machine Store

inductive PinKind where
  | root
  | chunk
deriving DecidableEq

structure PinRecord where
  kind : PinKind
  recursive : Bool
  addedAtUnix : Int
  descendants : List String
deriving DecidableEq

/-- A recursive root lists the chunks that it protects. -/
def PinRecord.lists (record : PinRecord) (chunk : String) : Bool :=
  record.kind = .root && record.recursive && chunk ∈ record.descendants

structure PinSet where
  entries : Table String PinRecord := ∅

namespace PinSet

variable (pins : PinSet) (entries : Table String PinRecord)

/-- A record that is there stays as it is. -/
def insertNew (key : String) (record : PinRecord) : Bool × PinSet :=
  if (pins.entries.lookup key).isSome then (false, pins)
  else (true, ⟨pins.entries.insert key record⟩)

variable (hash : ContentHash)

def add (recursive : Bool) (descendants : List String) (nowUnix : Int) :
    Bool × PinSet :=
  pins.insertNew hash.asHex ⟨.root, recursive, nowUnix, descendants⟩

def addChunk (chunkHash : ContentHash) (nowUnix : Int) : Bool × PinSet :=
  pins.insertNew chunkHash.asHex ⟨.chunk, false, nowUnix, []⟩

def eraseAll (keys : List String) : Table String PinRecord :=
  keys.foldl (fun entries key => entries.erase key) entries

/-- The descendants go with their root, whoever else pins them. -/
def remove : Bool × PinSet :=
  match pins.entries.lookup hash.asHex with
  | some record => (true, ⟨eraseAll (pins.entries.erase hash.asHex) record.descendants⟩)
  | none => (false, pins)

def contains : Bool :=
  (pins.entries.lookup hash.asHex).isSome

def pinnedHex : List String := pins.entries.keys

def orphans (storeHashes : List String) : List String :=
  storeHashes.filter fun hash => !(pins.entries.lookup hash).isSome

def listed (chunk : String) : Bool :=
  entries.values.any fun record => record.lists chunk

def chunkKeys : List String :=
  (entries.entries.filter fun entry => entry.2.kind = .chunk).map Sigma.fst

def sweepChunk (swept : Nat × Table String PinRecord) (chunk : String) :
    Nat × Table String PinRecord :=
  if listed swept.2 chunk then swept else (swept.1 + 1, swept.2.erase chunk)

def sweepOrphanChunks : Nat × PinSet :=
  let swept := (chunkKeys pins.entries).foldl sweepChunk (0, pins.entries)
  (swept.1, ⟨swept.2⟩)

end PinSet

namespace Store

/-- The names are the directories of the store in the order of their listing. -/
def listComplete (names : List String) (disk : Disk) : List ContentHash :=
  names.filterMap fun name =>
    if name.toList.head? = some '.' then none
    else
      match ContentHash.fromHex name with
      | .ok hash => if hasComplete disk hash then some hash else none
      | .error _ => none

def sortByHex (hashes : List ContentHash) : List ContentHash :=
  hashes.mergeSort fun first second => textLe first.asHex.toList second.asHex.toList

-- Each removal has its own surroundings.
variable (env : ContentHash → Surroundings)

/-- A removal that fails is passed over. -/
def removeEach : List ContentHash → StoreProgram (List ContentHash)
  | [] => pure []
  | hash :: rest => do
      let outcome ← Program.attempt (remove (env hash) hash)
      let removed ← removeEach rest
      match outcome with
      | .ok true => return hash :: removed
      | _ => return removed

def gcOrphans (names : List String) (pins : PinSet) : StoreProgram (List ContentHash) := do
  let all ← Program.look (listComplete names)
  let orphans := (pins.orphans (all.map ContentHash.asHex)).filterMap fun orphan =>
    (ContentHash.fromHex orphan).toOption
  let removed ← removeEach env orphans
  return sortByHex removed

def gcUnpinned (names pinned : List String) : StoreProgram (List ContentHash) := do
  let all ← Program.look (listComplete names)
  let removed ← removeEach env (all.filter fun hash => hash.asHex ∉ pinned)
  return sortByHex removed

end Store
end A3Net.Blobstore
