/-
This file gives the disk-backed blob store of `a3net-blobstore`: import, put and remove, as programs
that may fail or stop after any file-system step.
-/

import A3Net.Construction.Types.ContentHash
import A3Net.Machine.Crash
import A3Net.Machine.OrderedMap
import A3Net.Machine.Pieces

namespace A3Net.Blobstore

def chunkSize : Nat := 16 * 1024

theorem chunkSize_pos : 0 < chunkSize := by decide

namespace Store

open Cryptography Machine Function ContentHash

inductive ErrorKind where
  | notFound | directoryNotEmpty | invalidInput | invalidData | other | os
deriving DecidableEq

structure IoError where
  kind : ErrorKind
  text : String
deriving DecidableEq

inductive FileName where
  | chunk (index : Nat)
  | sha (index : Nat)
  | metaJson
  | complete
deriving DecidableEq

inductive TopName where
  | chunks | metaJson | complete
deriving DecidableEq

/-- The chunks stand in the order of their numbers. -/
@[ext] structure Folder where
  chunksDir : Bool
  chunks : List (Nat × Bytes)
  sorted : OrderedMap.Sorted chunks
  shas : List (Nat × Bytes)
  metaJson : Option Bytes
  complete : Option Bytes

namespace Folder

def empty : Folder where
  chunksDir := false
  chunks := []
  sorted := List.Pairwise.nil
  shas := []
  metaJson := none
  complete := none

variable (folder : Folder)

def read : FileName → Option Bytes
  | .chunk index => OrderedMap.get index folder.chunks
  | .sha index => OrderedMap.get index folder.shas
  | .metaJson => folder.metaJson
  | .complete => folder.complete

def put (name : FileName) (bytes : Bytes) : Folder :=
  match name with
  | .chunk index =>
    {folder with
      chunks := OrderedMap.insert index bytes folder.chunks
      sorted := folder.sorted.insert index bytes}
  | .sha index => {folder with shas := OrderedMap.insert index bytes folder.shas}
  | .metaJson => {folder with metaJson := some bytes}
  | .complete => {folder with complete := some bytes}

def erase : FileName → Folder
  | .chunk index =>
    {folder with
      chunks := OrderedMap.remove index folder.chunks
      sorted := folder.sorted.remove index}
  | .sha index => {folder with shas := OrderedMap.remove index folder.shas}
  | .metaJson => {folder with metaJson := none}
  | .complete => {folder with complete := none}

def nested : List FileName :=
  folder.chunks.map (fun entry => .chunk entry.1) ++ folder.shas.map fun entry => .sha entry.1

def top : List TopName :=
  (if folder.chunksDir then [.chunks] else []) ++
    (if folder.metaJson.isSome then [.metaJson] else []) ++
    if folder.complete.isSome then [.complete] else []

/-- Chunks and their hashes need the directory `chunks`. -/
def holds : FileName → Bool
  | .chunk _ | .sha _ => folder.chunksDir
  | .metaJson | .complete => true

/-- The stored chunks, one after the other. -/
def stored : Bytes := (folder.chunks.map Prod.snd).flatten

end Folder

/-- A blob has its own directory, and an import of it has another one beside. -/
inductive Place where
  | blob (hash : ContentHash)
  | importing (hash : ContentHash)
deriving DecidableEq

def Place.path (dataDir : String) : Place → String
  | .blob hash => dataDir ++ "/" ++ hash.asHex
  | .importing hash => dataDir ++ "/.importing-" ++ hash.asHex

abbrev Disk := Place → Option Folder

def hasComplete (disk : Disk) (hash : ContentHash) : Bool :=
  ((disk (.blob hash)).bind Folder.complete).isSome

/-- The calls to the file system, told apart so that each can fail on its own. -/
inductive Phase where
  | clean | stagingDir | write | destDir | rename | copyDir | copy | tidy | verify | delete

/-- A directory lists its entries in any order. -/
structure Listing where
  top : List TopName := []
  nested : List FileName := []

/-- The surroundings decide which call fails and how a directory is listed. -/
structure Surroundings where
  dataDir : String
  faults : Phase → Nat → Option (StepFault IoError) := fun _ _ => none
  listing : Phase → Listing := fun _ => {}

/-- The entries that are there, in the order that the surroundings prefer. -/
def arrange {Name : Type} [DecidableEq Name] (order present : List Name) : List Name :=
  (order.filter fun name => name ∈ present).dedup ++ present.filter fun name => name ∉ order

/-- Each file has its own two numbers among the faults of a phase. -/
def FileName.number : FileName → Nat
  | .metaJson => 4
  | .complete => 6
  | .chunk index => 4 * index + 8
  | .sha index => 4 * index + 10

abbrev StoreProgram := Program Disk IoError

def missing : IoError := ⟨.notFound, "No such file or directory"⟩

section Calls

variable (env : Surroundings) (phase : Phase) (hash : ContentHash) (place : Place)

def createDir : StoreProgram Unit :=
  Program.step (env.faults phase 0)
    (fun disk => update disk place (some ((disk place).getD .empty)))
    (fun _ disk => disk)

/-- A change reaches a directory that is there. -/
def inFolder (allowed : Folder → Bool) (fault : Option (StepFault IoError))
    (whole : Folder → Folder) (broken : Nat → Folder → Folder) : StoreProgram Unit := do
  match ← Program.look fun disk => disk place with
  | none => throw missing
  | some folder =>
    if allowed folder then
      Program.step fault (fun disk => update disk place (some (whole folder)))
        (fun written disk => update disk place (some (broken written folder)))
    else throw missing

def createChunksDir : StoreProgram Unit :=
  inFolder place (fun _ => true) (env.faults phase 1)
    (fun folder => {folder with chunksDir := true}) (fun _ folder => folder)

variable (name : FileName)

/-- The file is made empty first, and then its bytes are written. -/
def writeFile (bytes : Bytes) : StoreProgram Unit := do
  inFolder place (·.holds name) (env.faults phase name.number) (·.put name [])
    (fun _ folder => folder)
  inFolder place (·.holds name) (env.faults phase (name.number + 1)) (·.put name bytes)
    (fun written folder => folder.put name (bytes.take written))

def deleteFile : StoreProgram Unit :=
  inFolder place (fun _ => true) (env.faults phase name.number) (·.erase name)
    (fun _ folder => folder)

def deleteFiles (phase : Phase) (place : Place) : List FileName → StoreProgram Unit
  | [] => pure ()
  | name :: rest => do
      deleteFile env phase place name
      deleteFiles phase place rest

def removeTop : TopName → StoreProgram Unit
  | .chunks => do
      match ← Program.look fun disk => disk place with
      | none => throw missing
      | some folder =>
        deleteFiles env phase place
          (arrange (env.listing phase).nested folder.nested)
        inFolder place (fun _ => true) (env.faults phase 1)
          (fun folder => {folder with chunksDir := false}) (fun _ folder => folder)
  | .metaJson => deleteFile env phase place .metaJson
  | .complete => deleteFile env phase place .complete

def removeTops (phase : Phase) (place : Place) : List TopName → StoreProgram Unit
  | [] => pure ()
  | name :: rest => do
      removeTop env phase place name
      removeTops phase place rest

def removeDirAll : StoreProgram Unit := do
  match ← Program.look fun disk => disk place with
  | none => throw missing
  | some folder =>
    removeTops env phase place (arrange (env.listing phase).top folder.top)
    Program.step (env.faults phase 2) (fun disk => update disk place none)
      (fun _ disk => disk)

/-- A directory with entries cannot be replaced. -/
def rename (hash : ContentHash) : StoreProgram Unit := do
  let target ← Program.look fun disk => disk (.blob hash)
  if (target.map Folder.top).getD [] = [] then
    Program.step (env.faults .rename 0)
      (fun disk => update (update disk (.blob hash) (disk (.importing hash)))
        (.importing hash) none)
      (fun _ disk => disk)
  else throw ⟨.directoryNotEmpty, "Directory not empty"⟩

def copyFile : StoreProgram Unit := do
  match ← Program.look fun disk => (disk (.importing hash)).bind (·.read name) with
  | none => throw missing
  | some bytes => writeFile env .copy (.blob hash) name bytes

def copyFiles (hash : ContentHash) : List FileName → StoreProgram Unit
  | [] => pure ()
  | name :: rest => do
      copyFile env hash name
      copyFiles hash rest

def copyTop : TopName → StoreProgram Unit
  | .chunks => do
      createChunksDir env .copyDir (.blob hash)
      match ← Program.look fun disk => disk (.importing hash) with
      | none => throw missing
      | some folder =>
        copyFiles env hash
          (arrange (env.listing .copy).nested folder.nested)
  | .metaJson => copyFile env hash .metaJson
  | .complete => copyFile env hash .complete

def copyTops (hash : ContentHash) : List TopName → StoreProgram Unit
  | [] => pure ()
  | name :: rest => do
      copyTop env hash name
      copyTops hash rest

def copyDirRecursive : StoreProgram Unit := do
  createDir env .copyDir (.blob hash)
  match ← Program.look fun disk => disk (.importing hash) with
  | none => throw missing
  | some folder =>
    copyTops env hash (arrange (env.listing .copy).top folder.top)

end Calls

/-- What one read of the source gives: some bytes, none at the end, or an error. -/
abbrev Read := Except IoError Bytes

/-- The source is read until it gives no bytes. -/
def readAll : List Read → Except IoError (List Bytes)
  | [] => .ok []
  | .error error :: _ => .error error
  | .ok piece :: rest =>
    if piece = [] then .ok []
    else
      match readAll rest with
      | .error error => .error error
      | .ok pieces => .ok (piece :: pieces)

def hashFile (reads : List Read) : Except IoError (ContentHash × Nat) :=
  match readAll reads with
  | .error error => .error error
  | .ok pieces => .ok (fromBytes pieces.flatten, pieces.flatten.length % 2 ^ 64)

/-- The source may change between the two times it is read. -/
structure Source where
  first : List Read
  second : List Read

def metaChars (hash : ContentHash) (size count : Nat) : List Char :=
  ("\x7b\"chunkCount\":" ++ toString count ++ ",\"hash\":\"" ++ hash.asHex ++
    "\",\"sizeBytes\":" ++ toString size ++ "\x7d").toList

def metaText (hash : ContentHash) (size count : Nat) : Bytes := utf8Chars (metaChars hash size count)

def sentinel : Bytes := utf8Chars ['1']

/-- The counter of the chunks has 32 bits. -/
def next (index : Nat) : Nat := (index + 1) % 2 ^ 32

section Store

variable (env : Surroundings)

def stagePieces (hash : ContentHash) : Nat → List Read → StoreProgram Nat
  | index, [] => pure index
  | _, .error error :: _ => throw error
  | index, .ok piece :: rest =>
    if piece = [] then pure index
    else do
      writeFile env .write (.importing hash) (.chunk index) piece
      stagePieces hash (next index) rest

/-- The chunks are read from the first number on until one is missing. The bound is the number of
chunks that are there. -/
def readChunks (folder : Folder) : Nat → Nat → Bytes → Except IoError Bytes
  | 0, _, bytes => .ok bytes
  | bound + 1, index, bytes =>
    match folder.read (.chunk index) with
    | none => .ok bytes
    | some chunk =>
      match env.faults .verify index with
      | some fault => .error fault.error
      | none =>
        if 2 ^ 64 ≤ bytes.length + chunk.length then .error ⟨.other, "size overflow"⟩
        else readChunks folder bound (next index) (bytes ++ chunk)

variable (hash : ContentHash) (size : Nat)

def verifyBlobOnDisk : StoreProgram Unit := do
  let folder ← Program.look fun disk => (disk (.blob hash)).getD .empty
  match readChunks env folder folder.chunks.length 0 [] with
  | .error error => throw error
  | .ok bytes =>
    if bytes.length ≠ size then
      throw ⟨.invalidData, "imported size mismatch: expected " ++ toString size ++ ", got " ++
        toString bytes.length⟩
    else if fromBytes bytes ≠ hash then
      throw ⟨.invalidData, "imported hash mismatch: expected " ++ hash.asHex ++ ", got " ++
        (fromBytes bytes).asHex⟩
    else pure ()

/-- A stale directory of an earlier import goes. Whether that works is not looked at. -/
def cleanStale : StoreProgram Unit := do
  match ← Program.look fun disk => disk (.importing hash) with
  | none => pure ()
  | some _ => Program.ignore (removeDirAll env .clean (.importing hash))

def stage (second : List Read) : StoreProgram Unit := do
  cleanStale env hash
  createDir env .stagingDir (.importing hash)
  createChunksDir env .stagingDir (.importing hash)
  let count ← stagePieces env hash 0 second
  writeFile env .write (.importing hash) .metaJson (metaText hash size count)
  writeFile env .write (.importing hash) .complete sentinel

/-- Where the directory cannot be renamed, its files are copied. -/
def publish : StoreProgram Unit := do
  createDir env .destDir (.blob hash)
  match ← Program.attempt (rename env hash) with
  | .ok () => pure ()
  | .error renameError =>
    match ← Program.attempt (copyDirRecursive env hash) with
    | .error copyError =>
      throw ⟨renameError.kind, "rename \"" ++
        (Place.importing hash).path env.dataDir ++ "\" -> \"" ++
        (Place.blob hash).path env.dataDir ++ "\" failed (" ++ renameError.text ++
        "); fallback copy failed: " ++ copyError.text⟩
    | .ok () => Program.ignore (removeDirAll env .tidy (.importing hash))

def importFileSync (source : Source) : StoreProgram (ContentHash × Nat) := do
  match hashFile source.first with
  | .error error => throw error
  | .ok (hash, size) =>
    let known ← Program.look fun disk => hasComplete disk hash
    if known then return (hash, size)
    stage env hash size source.second
    publish env hash
    verifyBlobOnDisk env hash size
    return (hash, size)

def putPieces (hash : ContentHash) : Nat → List Bytes → StoreProgram Nat
  | index, [] => pure index
  | index, piece :: rest => do
      writeFile env .write (.blob hash) (.chunk index) piece
      writeFile env .write (.blob hash) (.sha index)
        (utf8 (fromBytes piece).asHex)
      putPieces hash (next index) rest

/-- The files are written where they stay, and the sentinel comes last. -/
def putFiles (chunks : List Bytes) : StoreProgram Unit := do
  createDir env .destDir (.blob hash)
  createChunksDir env .destDir (.blob hash)
  let count ← putPieces env hash 0 chunks
  writeFile env .write (.blob hash) .metaJson (metaText hash size count)
  writeFile env .write (.blob hash) .complete sentinel

def putBytesSync (data : Bytes) : StoreProgram (ContentHash × Nat) := do
  let hash := fromBytes data
  let known ← Program.look fun disk => hasComplete disk hash
  if known then return (hash, data.length)
  putFiles env hash data.length (pieces chunkSize data)
  return (hash, data.length)

def remove (hash : ContentHash) : StoreProgram Bool := do
  match ← Program.look fun disk => disk (.blob hash) with
  | none => return false
  | some folder =>
    if folder.complete.isSome then
      removeDirAll env .delete (.blob hash)
      return true
    else
      throw ⟨.invalidInput, "refusing to remove incomplete blob: " ++ hash.asHex⟩

end Store

inductive Call where
  | importFile (source : Source)
  | putBytes (data : Bytes)
  | remove (hash : ContentHash)

/-- The disks that a call passes, the last first. -/
def Call.disks (env : Surroundings) (disk : Disk) : Call → List Disk
  | .importFile source => ((importFileSync env source).execute ⟨disk, []⟩).2.disks
  | .putBytes data => ((putBytesSync env data).execute ⟨disk, []⟩).2.disks
  | .remove hash => ((Store.remove env hash).execute ⟨disk, []⟩).2.disks

/-- A call runs to its end, or it is stopped after some of its steps. -/
structure Event where
  surroundings : Surroundings
  call : Call
  stop : Option Nat := none

/-- The disks up to the stop. -/
def Event.passed (event : Event) (disk : Disk) : List Disk :=
  let disks := (event.call.disks event.surroundings disk).reverse
  match event.stop with
  | none => disks
  | some steps => disks.take (steps + 1)

/-- `passed` has every disk that was there at some time. -/
structure History where
  disk : Disk
  passed : List Disk

def History.start : History := ⟨fun _ => none, [fun _ => none]⟩

def History.step (history : History) (event : Event) : History :=
  let passed := event.passed history.disk
  ⟨passed.getLast?.getD history.disk, history.passed ++ passed⟩

end Store

end A3Net.Blobstore
