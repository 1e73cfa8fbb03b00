import Mathlib.Algebra.Group.Int.Defs
import A3Net.Construction.Backup.Restore
import A3Net.Machine.Json
import A3Net.Machine.Text

namespace A3Net.Backup

open Cryptography Machine

def snapshotVersion : Nat := 1

/-- A directory is listed in the order of the walk. The names are bytes of the operating system. -/
inductive Listing where
  | done
  | file (name bytes : Bytes) (rest : Listing)
  | directory (name : Bytes) (inside rest : Listing)

/-- The names of a file lead to it from the root of the tree. -/
abbrev WalkedFile := List Bytes × Bytes

def Listing.walk (above : List Bytes) : Listing → List WalkedFile
  | .done => []
  | .file name bytes rest => (above ++ [name], bytes) :: rest.walk above
  | .directory name inside rest => inside.walk (above ++ [name]) ++ rest.walk above

/-- These names have no separator, and none of them names the directory itself or its parent. -/
def PlainPath (text : List Char) : Prop :=
  ∀ piece ∈ text.splitOn '/', piece ≠ [] ∧ piece ≠ ['.'] ∧ piece ≠ ['.', '.'] ∧ '\x00' ∉ piece
deriving Decidable

/-- The library for archives sets the path of a header. A name field has 100 bytes, and the path
that is stored leaves out parts of the given one, is relative and does not climb. -/
structure TarLibrary where
  setPath : List Char → Except Errno (List Char)
  fits : ∀ path, PlainPath path → (utf8Chars path).length ≤ 100 → setPath path = .ok path
  long : ∀ path, PlainPath path → 100 < (utf8Chars path).length →
    ∃ errno, setPath path = .error errno
  shortens : ∀ path stored, setPath path = .ok stored → stored ⊆ path
  relative : ∀ path stored, setPath path = .ok stored →
    (Path.parse stored).absolute = false ∧ .parent ∉ (Path.parse stored).components

/-- The numbers of a manifest have the width of the source. -/
structure SnapshotManifest.Fits (manifest : SnapshotManifest) : Prop where
  version : manifest.version < 2 ^ 32
  created : -2 ^ 63 ≤ manifest.createdAtUnix ∧ manifest.createdAtUnix < 2 ^ 63
  sizes : ∀ row ∈ manifest.entries, row.size < 2 ^ 64

abbrev JsonLibrary := Serialiser (Except String) SnapshotManifest Bytes SnapshotManifest.Fits id

/-- The lossy text of the path below the source directory, with slashes for backslashes. -/
def relativePath (names : List Bytes) : List Char :=
  (fromUtf8Lossy ([0x2f].intercalate names)).map fun char =>
    if char = '\\' then '/' else char

variable (tar : TarLibrary) (json : JsonLibrary)

def appendFile (file : WalkedFile) : Except BackupError ((List Char × Bytes) × ManifestEntry) :=
  let rel := relativePath file.1
  match tar.setPath rel with
  | .error errno => .error (.io errno)
  | .ok stored =>
    .ok ((stored, file.2), ⟨rel, file.2.length, toHex (Cryptography.blake3 file.2).bytes⟩)

/-- The output file is left out when it lies in the tree. -/
def appendFiles (outPath : Option (List Bytes)) :
    List WalkedFile → Except BackupError (List (List Char × Bytes) × List ManifestEntry)
  | [] => .ok ([], [])
  | file :: files =>
    if outPath = some file.1 then appendFiles outPath files
    else
      match appendFile tar file with
      | .error error => .error error
      | .ok (entry, row) =>
        match appendFiles outPath files with
        | .error error => .error error
        | .ok (entries, rows) => .ok (entry :: entries, row :: rows)

/-- The tree is missing when the source is no directory. The output file is created first, and it
may lie in the tree. The manifest is the last entry, and its JSON has the source as text. -/
def snapshot (sourceDir : Bytes) (tree : Option Listing)
    (outPath : Except Errno (Option (List Bytes))) (now : Int64) :
    Except BackupError (SnapshotManifest × Archive) :=
  match tree, outPath with
  | none, _ => .error (.io .notFound)
  | _, .error errno => .error (.io errno)
  | some tree, .ok outPath =>
    match appendFiles tar outPath (tree.walk []) with
    | .error error => .error error
    | .ok (entries, rows) =>
      match fromUtf8 sourceDir with
      | none => .error (.manifest "path contains invalid UTF-8 characters")
      | some text =>
        let manifest : SnapshotManifest := ⟨snapshotVersion, now.toInt, text, rows⟩
        match tar.setPath manifestName with
        | .error errno => .error (.io errno)
        | .ok name =>
          .ok (manifest, ⟨.ok snapshotMagic,
            .ok ((entries ++ [(name, json.encode manifest)]).map .ok)⟩)

end A3Net.Backup
