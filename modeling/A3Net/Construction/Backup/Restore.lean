import A3Net.Cryptography.Blake3
import A3Net.Machine.FileSystem
import A3Net.Machine.Run

namespace A3Net.Backup

open Cryptography Machine

def snapshotMagic : Bytes := utf8Chars
  ['A', 'D', 'N', 'E', 'T', '-', 'S', 'N', 'A', 'P', '-', 'v', '0', '1', '\x00', '\x00']

def manifestName : List Char := "__manifest__.json".toList

inductive BackupError where
  | io (errno : Errno)
  | manifest (text : String)
  | badMagic
  | missingEntry (path : List Char)
  | checksum (path : List Char) (expected got : String)
deriving DecidableEq

structure ManifestEntry where
  path : List Char
  size : Nat
  blake3 : String
deriving DecidableEq

structure SnapshotManifest where
  version : Nat
  createdAtUnix : Int
  sourceDir : List Char
  entries : List ManifestEntry
deriving DecidableEq

/-- An entry is what the archive library read: its path as text and its bytes, or an error. -/
abbrev TarEntry := Except Errno (List Char × Bytes)

/-- An archive is what is read from the snapshot file: its first 16 bytes, then its entries. -/
structure Archive where
  header : Except Errno Bytes
  entries : Except Errno (List TarEntry)

/-- The manifest is decoded by the library for JSON. -/
abbrev ParseManifest := Bytes → Except String SnapshotManifest

def Archive.open (archive : Archive) : Except BackupError (List TarEntry) :=
  match archive.header with
  | .error errno => .error (.io errno)
  | .ok magic =>
    if magic ≠ snapshotMagic then .error .badMagic
    else
      match archive.entries with
      | .error errno => .error (.io errno)
      | .ok entries => .ok entries

/-- The loop stops at its first error. -/
structure Unpacking where
  world : World
  manifest : Option SnapshotManifest := none
  seenPaths : List (List Char) := []
  failed : Option BackupError := none

variable (parseManifest : ParseManifest) (destDir : Path)

def destPath (rel : List Char) : Path := destDir.join (Path.parse rel)

variable (world : World) (path : Path)

/-- A path without a parent needs no directory. -/
def createParent : Except Errno Unit × World :=
  match path.parent with
  | some parent => world.createDirAll parent
  | none => (.ok (), world)

def writeEntry (bytes : Bytes) : Except Errno Unit × World :=
  match createParent world path with
  | (.error errno, world) => (.error errno, world)
  | (.ok (), world) => world.write path bytes

def unpackEntry (state : Unpacking) (entry : TarEntry) : Unpacking :=
  match state.failed, entry with
  | some _, _ => state
  | none, .error errno => {state with failed := some (.io errno)}
  | none, .ok (rel, bytes) =>
    if rel = manifestName then
      match parseManifest bytes with
      | .error text => {state with failed := some (.manifest text)}
      | .ok manifest => {state with manifest := some manifest}
    else
      match writeEntry state.world (destPath destDir rel) bytes with
      | (.error errno, world) =>
        {state with seenPaths := rel :: state.seenPaths, world, failed := some (.io errno)}
      | (.ok (), world) => {state with seenPaths := rel :: state.seenPaths, world}

/-- Each entry of the manifest has to be on the disk with its checksum. -/
def checkEntries (seenPaths : List (List Char)) (world : World) :
    List ManifestEntry → Except BackupError Unit × World
  | [] => (.ok (), world)
  | entry :: entries =>
    if entry.path ∉ seenPaths then (.error (.missingEntry entry.path), world)
    else
      match world.read (destPath destDir entry.path) with
      | (.error errno, world) => (.error (.io errno), world)
      | (.ok bytes, world) =>
        let got := toHex (Cryptography.blake3 bytes).bytes
        if got ≠ entry.blake3 then (.error (.checksum entry.path entry.blake3 got), world)
        else checkEntries seenPaths world entries

def finish (state : Unpacking) : Except BackupError SnapshotManifest × World :=
  match state.failed, state.manifest with
  | some error, _ => (.error error, state.world)
  | none, none => (.error (.missingEntry manifestName), state.world)
  | none, some manifest =>
    match checkEntries destDir state.seenPaths state.world manifest.entries with
    | (.error error, world) => (.error error, world)
    | (.ok (), world) => (.ok manifest, world)

def restore (archive : Archive) : Except BackupError SnapshotManifest × World :=
  match world.createDirAll destDir with
  | (.error errno, world) => (.error (.io errno), world)
  | (.ok (), world) =>
    match archive.open with
    | .error error => (.error error, world)
    | .ok entries => finish destDir (run (unpackEntry parseManifest destDir) {world} entries)

/-- The bytes of the other entries are read and not looked at. -/
def verifyEntry (manifest : Option SnapshotManifest) :
    TarEntry → Except BackupError (Option SnapshotManifest)
  | .error errno => .error (.io errno)
  | .ok (rel, bytes) =>
    if rel = manifestName then
      match parseManifest bytes with
      | .error text => .error (.manifest text)
      | .ok manifest => .ok (some manifest)
    else .ok manifest

def verify (archive : Archive) : Except BackupError SnapshotManifest :=
  match archive.open with
  | .error error => .error error
  | .ok entries =>
    match entries.foldlM (verifyEntry parseManifest) none with
    | .error error => .error error
    | .ok none => .error (.missingEntry manifestName)
    | .ok (some manifest) => .ok manifest

end A3Net.Backup
