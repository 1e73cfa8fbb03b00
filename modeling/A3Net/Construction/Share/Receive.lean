import A3Net.Construction.Types.ContentHash
import A3Net.Machine.FileSystem

namespace A3Net.Share

open Cryptography Machine

inductive ShareError where
  | invalidPathComponent (text : String)
  | pathComponentTooLong (name : List Char) (len max : Nat)
  | duplicateName (name : List Char)
  | collectionTooLarge (got max : Nat)
  | nameTooLong (got max : Nat)
  | backend (text : String)
  | os (errno : Errno)

structure CollectionEntry where
  name : List Char
  hash : ContentHash

structure Collection where
  entries : List CollectionEntry := []

def maxCollectionEntries : Nat := 16 * 1024

namespace Collection

def push (collection : Collection) (entry : CollectionEntry) : Except ShareError Collection :=
  if maxCollectionEntries ≤ collection.entries.length then
    .error (.collectionTooLarge (collection.entries.length + 1) maxCollectionEntries)
  else if collection.entries.any fun other => other.name = entry.name then
    .error (.duplicateName entry.name)
  else .ok ⟨collection.entries ++ [entry]⟩

/-- The names that the library decoded are not validated. -/
def fromBytes (decode : Bytes → Except String (List CollectionEntry)) (bytes : Bytes) :
    Except ShareError Collection :=
  match decode bytes with
  | .error text => .error (.backend ("collection deserialize: " ++ text))
  | .ok entries =>
    if maxCollectionEntries < entries.length then
      .error (.collectionTooLarge entries.length maxCollectionEntries)
    else entries.foldlM push {}

end Collection

inductive NamePart where
  | rootDir
  | curDir
  | parentDir
  | normal (name : String)

/-- A dot is listed only at the front of a relative path. -/
def nameParts (text : List Char) : List NamePart :=
  let pieces := text.splitOn '/'
  let front := if text.head? = some '/' then [.rootDir]
    else if pieces.head? = some ['.'] then [.curDir] else []
  front ++ pieces.filterMap fun piece =>
    match Path.component piece with
    | none => none
    | some .parent => some .parentDir
    | some (.normal name) => some (.normal name)

def pushName (path : Path) (name : String) : Path :=
  {path with components := path.components ++ [.normal name], slash := false}

variable (debug : List Char → String)

/-- Only normal parts are taken. A refused name is printed with its escapes. -/
def pushPart (name : List Char) (out : Path) :
    NamePart → Except ShareError Path
  | .normal piece => .ok (pushName out piece)
  | .rootDir | .curDir | .parentDir =>
    .error (.invalidPathComponent ("refused component in " ++ debug name))

def joinUnder (root : Path) (name : List Char) :
    Except ShareError Path :=
  (nameParts name).foldlM (pushPart debug name) root

structure ReceiveOptions where
  outDir : Option Path := none
  overwrite : Bool := false

structure ReceiveStats where
  filesWritten : Nat := 0
  bytesWritten : Nat := 0

/-- Stored blobs are read by their hash, and names and paths are printed. -/
structure Services where
  readAll : ContentHash → Except String Bytes
  debug : List Char → String
  display : Path → String

variable (services : Services) (overwrite : Bool) (world : World)

def currentDir : Path × World :=
  match world.fault world.calls with
  | .none => (⟨true, world.current.map .normal, false⟩, world.tick)
  | _ => (Path.parse ['.'], world.tick)

variable (options : ReceiveOptions)

def outDirOf (world : World) : Path × World :=
  match options.outDir with
  | some path => (path, world)
  | none => currentDir world

/-- The parent directories are made before the file is written. -/
def writeFile (dest : Path) (bytes : Bytes) : Except ShareError Unit × World :=
  let (made, world) :=
    match dest.parent with
    | some parent => world.createDirAll parent
    | none => (.ok (), world)
  match made with
  | .error errno => (.error (.os errno), world)
  | .ok () =>
    let (written, world) := world.write dest bytes
    (written.mapError .os, world)

def receiveEntry (outDir : Path) (entry : CollectionEntry) (world : World) :
    Except ShareError Nat × World :=
  match services.readAll entry.hash with
  | .error text =>
    (.error (.backend ("read " ++ String.ofList entry.name ++ ": " ++ text)), world)
  | .ok bytes =>
    match joinUnder services.debug outDir entry.name with
    | .error error => (.error error, world)
    | .ok dest =>
      let (there, world) := world.isThere dest
      if there && !overwrite then
        (.error (.backend ("target " ++ services.display dest ++
          " exists (use overwrite = true)")), world)
      else
        let (written, world) := writeFile world dest bytes
        (written.map fun _ => bytes.length, world)

/-- The loop stops at its first error, and what was written stays. -/
def receiveAll (outDir : Path) :
    List CollectionEntry → ReceiveStats → World → Except ShareError ReceiveStats × World
  | [], stats, world => (.ok stats, world)
  | entry :: rest, stats, world =>
    match receiveEntry services overwrite outDir entry world with
    | (.error error, world) => (.error error, world)
    | (.ok size, world) =>
      receiveAll outDir rest ⟨stats.filesWritten + 1, stats.bytesWritten + size⟩ world

def receive (manifest : Collection) (world : World) :
    Except ShareError ReceiveStats × World :=
  let (outDir, world) := outDirOf options world
  receiveAll services options.overwrite outDir manifest.entries {} world

end A3Net.Share
