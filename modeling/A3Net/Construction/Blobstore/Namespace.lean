/-
A walk to a directory lends its children to the caller, so a walk takes what the caller does with
them.
-/

import A3Net.Construction.Types.ContentHash
import A3Net.Machine.Tree
import Mathlib.Data.String.Basic

namespace A3Net.Blobstore.Namespace

open Machine OrderedMap

def maxDepth : Nat := 64

def maxChildrenPerDir : Nat := 100000

def auditSchemaVersion : UInt32 := 1

inductive NamespaceError where
  | io (text : String)
  | traversal (text : String)
  | pathTooLong (max actual : Nat)
  | depthExceeded (max actual : Nat)
  | tooManyChildren (max : Nat)
  | notFound (path : String)
  | notADirectory (path : String)
  | isADirectory (path : String)
  | quotaExhausted (need free : UInt64)
  | manifestCorrupt (text : String)
  | auditFailed (text : String)
deriving DecidableEq

structure FileEntry where
  hash : ContentHash
  sizeBytes : UInt64

abbrev Entry := Tree String FileEntry

abbrev Children := List (String × Entry)

abbrev PathSegments := List String

def join (segments : PathSegments) : String := "/".intercalate segments

def display (path : PathSegments) : String := if path = [] then "/" else join path

/-- What is done to the tree stays done when the call fails afterwards. -/
abbrev Outcome (State Result : Type) := State × Except NamespaceError Result

section Walks

variable {Result : Type} (borrow : Children → Outcome Children Result)

/-- `done` is the part of the path that was walked. -/
def walkMut (done : PathSegments) : PathSegments → Entry → Outcome Entry Result
  | [], .directory children =>
    let lent := borrow children
    (.directory lent.1, lent.2)
  | [], .file leaf => (.file leaf, .error (.notADirectory (display done)))
  | segment :: rest, .directory children =>
    match OrderedMap.get segment children with
    | none => (.directory children, .error (.notFound (join (done ++ [segment]))))
    | some entry =>
      let walked := walkMut (done ++ [segment]) rest entry
      (.directory (OrderedMap.set segment walked.1 children), walked.2)
  | _ :: _, .file leaf => (.file leaf, .error (.notADirectory (join done)))

end Walks

/-- The caller gets the name of the last segment and the children of its parent. -/
def splitWalk {Result : Type} (borrow : String → Children → Outcome Children Result)
    (path : PathSegments) (root : Entry) : Outcome Entry Result :=
  match path.getLast? with
  | none => (root, .error (.traversal "cannot mutate root"))
  | some leafName => walkMut (borrow leafName) [] path.dropLast root

section Walks

variable {Result : Type} (borrow : String → Children → Outcome Children Result)

def createWalk (done : PathSegments) : PathSegments → Entry → Outcome Entry Result
  | [], root => (root, .error (.traversal "cannot mutate root"))
  | _ :: _, .file leaf => (.file leaf, .error (.notADirectory (join done)))
  | [segment], .directory children =>
    let lent := borrow segment children
    (.directory lent.1, lent.2)
  | segment :: next :: rest, .directory children =>
    match OrderedMap.get segment children with
    | none =>
      -- The walk goes on in the empty directory that was just inserted.
      let walked := createWalk (done ++ [segment]) (next :: rest) (.directory [])
      (.directory (OrderedMap.insert segment walked.1 children), walked.2)
    | some entry =>
      let walked := createWalk (done ++ [segment]) (next :: rest) entry
      (.directory (OrderedMap.set segment walked.1 children), walked.2)

/-- Directories that are missing on the way are created. -/
def splitWalkOrCreate (path : PathSegments) (root : Entry) : Outcome Entry Result :=
  if path = [] then (root, .error (.traversal "cannot mutate root"))
  else if maxDepth < path.length then (root, .error (.depthExceeded maxDepth path.length))
  else createWalk borrow [] path root

end Walks

def insertWalk (entry : Entry) (done : PathSegments) : PathSegments → Entry → Outcome Entry Unit
  | [], root => (root, .error (.traversal "cannot replace root"))
  | _ :: _, .file leaf => (.file leaf, .error (.notADirectory (join done)))
  | [segment], .directory children =>
    (.directory (OrderedMap.insert segment entry children), .ok ())
  | segment :: next :: rest, .directory children =>
    match OrderedMap.get segment children with
    | none => (.directory children, .error (.notFound (join (done ++ [segment]))))
    | some child =>
      let walked := insertWalk entry (done ++ [segment]) (next :: rest) child
      (.directory (OrderedMap.set segment walked.1 children), walked.2)

def insertAt (entry : Entry) (path : PathSegments) (root : Entry) : Outcome Entry Unit :=
  insertWalk entry [] path root

def pathExists (root : Entry) (path : PathSegments) : Bool := (root.lookup path).isSome

section Bodies

/-- This is the end of `put` and of `copy`. -/
def insertBounded (entry : Entry) (leafName : String) (children : Children) :
    Outcome Children Unit :=
  if maxChildrenPerDir ≤ children.length then
    (children, .error (.tooManyChildren maxChildrenPerDir))
  else (OrderedMap.insert leafName entry children, .ok ())

variable (path : PathSegments) (leafName : String) (children : Children)

def removeFile : Outcome Children ContentHash :=
  match OrderedMap.get leafName children with
  | none => (children, .error (.notFound leafName))
  | some (.file file) => (OrderedMap.remove leafName children, .ok file.hash)
  | some (.directory below) =>
    (OrderedMap.insert leafName (.directory below) (OrderedMap.remove leafName children),
      .error (.isADirectory (display path)))

def insertDirectory : Outcome Children Unit :=
  if (OrderedMap.get leafName children).isSome then
    (children, .error (.isADirectory (display path)))
  else if maxChildrenPerDir ≤ children.length then
    (children, .error (.tooManyChildren maxChildrenPerDir))
  else (OrderedMap.insert leafName (.directory []) children, .ok ())

def removeEntry : Outcome Children Unit :=
  (OrderedMap.remove leafName children, .ok ())

def takeEntry : Outcome Children Entry :=
  match OrderedMap.get leafName children with
  | none => (children, .error (.notFound (display path)))
  | some entry => (OrderedMap.remove leafName children, .ok entry)

/-- An old destination goes when the caller allows it. -/
def clearDestination (target : PathSegments) (overwrite : Bool) (root : Entry) :
    Outcome Entry Unit :=
  if pathExists root target then
    if overwrite then splitWalk removeEntry target root
    else
      (root, .error (.traversal ("destination " ++ display target ++ " exists and Overwrite is F")))
  else (root, .ok ())

def putBody (file : FileEntry) (root : Entry) : Outcome Entry Unit :=
  splitWalkOrCreate (insertBounded (.file file)) path root

def deleteBody (root : Entry) : Outcome Entry ContentHash :=
  splitWalk (removeFile path) path root

def mkcolBody (root : Entry) : Outcome Entry Unit :=
  splitWalk (insertDirectory path) path root

def renameBody (source target : PathSegments) (overwrite : Bool) (root : Entry) :
    Outcome Entry Unit :=
  match clearDestination target overwrite root with
  | (root, .error error) => (root, .error error)
  | (root, .ok ()) =>
    match splitWalk (takeEntry source) source root with
    | (root, .error error) => (root, .error error)
    | (root, .ok entry) => insertAt entry target root

def copyBody (entry : Entry) (target : PathSegments) (overwrite : Bool) (root : Entry) :
    Outcome Entry Unit :=
  match clearDestination target overwrite root with
  | (root, .error error) => (root, .error error)
  | (root, .ok ()) => splitWalkOrCreate (insertBounded entry) target root

end Bodies

section Order

/-- The children that the caller gives back are ordered again. -/
def Keeps {Result : Type} (borrow : Children → Outcome Children Result) : Prop :=
  ∀ children : Children, (Tree.directory children).Ordered →
    (Tree.directory (borrow children).1).Ordered

variable {Result : Type} {root : Entry} (path : PathSegments) (leafName : String)

theorem walkMut_ordered {borrow : Children → Outcome Children Result} (keeps : Keeps borrow)
    (done path : PathSegments) (ordered : root.Ordered) :
    (walkMut borrow done path root).1.Ordered := by
  induction path generalizing done root with
  | nil =>
    cases root with
    | file leaf => exact ordered
    | directory children => exact keeps children ordered
  | cons segment rest ih =>
    cases root with
    | file leaf => exact ordered
    | directory children =>
      simp only [walkMut]
      cases got : get segment children with
      | none => exact ordered
      | some entry => exact ordered.set segment (ih _ (ordered.get got))

variable {borrow : String → Children → Outcome Children Result}

section

variable (keeps : ∀ leafName, Keeps (borrow leafName))
include keeps

theorem splitWalk_ordered (path : PathSegments)
    (ordered : root.Ordered) : (splitWalk borrow path root).1.Ordered := by
  unfold splitWalk
  cases path.getLast? with
  | none => exact ordered
  | some leafName => exact walkMut_ordered (keeps leafName) [] path.dropLast ordered

theorem createWalk_ordered (done path : PathSegments)
    (ordered : root.Ordered) : (createWalk borrow done path root).1.Ordered := by
  induction path generalizing done root with
  | nil => exact ordered
  | cons segment rest ih =>
    cases root with
    | file leaf => cases rest <;> exact ordered
    | directory children =>
      cases rest with
      | nil => exact keeps segment children ordered
      | cons next rest =>
        simp only [createWalk]
        cases got : get segment children with
        | none => exact ordered.insert segment (ih _ .empty)
        | some entry => exact ordered.set segment (ih _ (ordered.get got))

theorem splitWalkOrCreate_ordered (path : PathSegments) (ordered : root.Ordered) :
    (splitWalkOrCreate borrow path root).1.Ordered := by
  unfold splitWalkOrCreate
  split_ifs
  · exact ordered
  · exact ordered
  · exact createWalk_ordered keeps [] path ordered

end

theorem insertWalk_ordered {entry : Entry} (entryOrdered : entry.Ordered)
    (done path : PathSegments) (ordered : root.Ordered) :
    (insertWalk entry done path root).1.Ordered := by
  induction path generalizing done root with
  | nil => exact ordered
  | cons segment rest ih =>
    cases root with
    | file leaf => cases rest <;> exact ordered
    | directory children =>
      cases rest with
      | nil => exact ordered.insert segment entryOrdered
      | cons next rest =>
        simp only [insertWalk]
        cases got : get segment children with
        | none => exact ordered
        | some child => exact ordered.set segment (ih _ (ordered.get got))

theorem insertBounded_keeps {entry : Entry} (entryOrdered : entry.Ordered) (leafName : String) :
    Keeps (insertBounded entry leafName) := by
  intro children ordered
  unfold insertBounded
  split_ifs
  · exact ordered
  · exact ordered.insert leafName entryOrdered

theorem removeFile_keeps : Keeps (removeFile path leafName) := by
  intro children ordered
  unfold removeFile
  cases got : get leafName children with
  | none => exact ordered
  | some entry =>
    cases entry with
    | file file => exact ordered.remove leafName
    | directory below => exact (ordered.remove leafName).insert leafName (ordered.get got)

theorem insertDirectory_keeps : Keeps (insertDirectory path leafName) := by
  intro children ordered
  unfold insertDirectory
  split_ifs
  · exact ordered
  · exact ordered
  · exact ordered.insert leafName .empty

theorem removeEntry_keeps : Keeps (removeEntry leafName) :=
  fun _ ordered => ordered.remove leafName

theorem takeEntry_keeps : Keeps (takeEntry path leafName) := by
  intro children ordered
  unfold takeEntry
  cases get leafName children with
  | none => exact ordered
  | some entry => exact ordered.remove leafName

end Order

section Found

variable {Result : Type} (borrow : Children → Outcome Children Result) {path : PathSegments}
  {root : Entry} (done : PathSegments)

/-- A walk to a directory changes that directory alone. -/
theorem walkMut_of_directory {children : Children}
    (found : root.lookup path = some (.directory children)) :
    walkMut borrow done path root =
      (root.update (fun children => (borrow children).1) path, (borrow children).2) := by
  induction path generalizing done root with
  | nil =>
    cases found
    rfl
  | cons segment rest ih =>
    cases root with
    | file leaf => cases found
    | directory entries =>
      rw [Tree.lookup_cons] at found
      obtain ⟨child, got, below⟩ := Option.bind_eq_some_iff.mp found
      simp only [walkMut, Tree.update, got]
      rw [ih _ below]

theorem walkMut_of_not_directory (missing : ¬ root.IsDirectory path) :
    ∃ error, walkMut borrow done path root = (root, .error error) := by
  induction path generalizing done root with
  | nil =>
    cases root with
    | file leaf => exact ⟨_, rfl⟩
    | directory children => exact absurd rfl missing
  | cons segment rest ih =>
    cases root with
    | file leaf => exact ⟨_, rfl⟩
    | directory children =>
      simp only [walkMut]
      cases got : get segment children with
      | none => exact ⟨_, rfl⟩
      | some entry =>
        have below : ¬ entry.IsDirectory rest := by
          intro directory
          apply missing
          rw [Tree.IsDirectory, Tree.stat_cons, got]
          exact directory
        obtain ⟨error, walked⟩ := ih (done ++ [segment]) below
        refine ⟨error, ?_⟩
        simp only [walked, set_get got]

theorem splitWalk_snoc (borrow : String → Children → Outcome Children Result)
    (parent : PathSegments) (leafName : String) (root : Entry) :
    splitWalk borrow (parent ++ [leafName]) root = walkMut (borrow leafName) [] parent root := by
  unfold splitWalk
  rw [List.getLast?_concat, List.dropLast_concat]

theorem takeEntry_ordered {entry : Entry} (ordered : root.Ordered)
    (taken : (splitWalk (takeEntry path) path root).2 = .ok entry) : entry.Ordered := by
  rcases List.eq_nil_or_concat path with rfl | ⟨parent, leafName, rfl⟩
  · cases taken
  · rw [List.concat_eq_append, splitWalk_snoc] at taken
    by_cases directory : root.IsDirectory parent
    · obtain ⟨children, found⟩ := root.isDirectory_iff.mp directory
      rw [walkMut_of_directory _ _ found] at taken
      unfold takeEntry at taken
      cases got : get leafName children with
      | none => simp [got] at taken
      | some child =>
        simp only [got, Except.ok.injEq] at taken
        rw [← taken]
        exact (ordered.lookup found).get got
    · obtain ⟨error, walked⟩ := walkMut_of_not_directory (takeEntry (parent ++ [leafName]) leafName)
        [] directory
      rw [walked] at taken
      cases taken

end Found

section Manifest

/-- A change of the tree keeps the names of every directory in order. -/
structure Change (Result : Type) where
  apply : Entry → Outcome Entry Result
  ordered : ∀ root, root.Ordered → (apply root).1.Ordered

variable (path : PathSegments) {root : Entry}

def putChange (file : FileEntry) : Change Unit where
  apply := putBody path file
  ordered := fun _ => splitWalkOrCreate_ordered (insertBounded_keeps (.file file)) path

def deleteChange : Change ContentHash where
  apply := deleteBody path
  ordered := fun _ => splitWalk_ordered (removeFile_keeps path) path

def mkcolChange : Change Unit where
  apply := mkcolBody path
  ordered := fun _ => splitWalk_ordered (insertDirectory_keeps path) path

theorem clearDestination_ordered (target : PathSegments) (overwrite : Bool)
    (ordered : root.Ordered) : (clearDestination target overwrite root).1.Ordered := by
  unfold clearDestination
  split_ifs
  · exact splitWalk_ordered removeEntry_keeps target ordered
  · exact ordered
  · exact ordered

variable (source target : PathSegments)

theorem renameBody_ordered (overwrite : Bool)
    (ordered : root.Ordered) : (renameBody source target overwrite root).1.Ordered := by
  have cleared := clearDestination_ordered target overwrite ordered
  unfold renameBody
  generalize clearDestination target overwrite root = outcome at cleared ⊢
  obtain ⟨root, error | ⟨⟩⟩ := outcome
  · exact cleared
  · have taken := splitWalk_ordered (takeEntry_keeps source) source cleared
    have entryOrdered : ∀ entry, (splitWalk (takeEntry source) source root).2 = .ok entry →
        entry.Ordered := fun _ => takeEntry_ordered cleared
    dsimp only
    generalize splitWalk (takeEntry source) source root = outcome at taken entryOrdered ⊢
    obtain ⟨root, error | entry⟩ := outcome
    · exact taken
    · exact insertWalk_ordered (entryOrdered entry rfl) [] target taken

def renameChange (overwrite : Bool) : Change Unit where
  apply := renameBody source target overwrite
  ordered := fun _ => renameBody_ordered source target overwrite

theorem copyBody_ordered {entry : Entry} (entryOrdered : entry.Ordered) (target : PathSegments)
    (overwrite : Bool) (ordered : root.Ordered) :
    (copyBody entry target overwrite root).1.Ordered := by
  have cleared := clearDestination_ordered target overwrite ordered
  unfold copyBody
  generalize clearDestination target overwrite root = outcome at cleared ⊢
  obtain ⟨root, error | ⟨⟩⟩ := outcome
  · exact cleared
  · exact splitWalkOrCreate_ordered (insertBounded_keeps entryOrdered) target cleared

def copyChange (entry : Entry) (entryOrdered : entry.Ordered) (target : PathSegments)
    (overwrite : Bool) : Change Unit where
  apply := copyBody entry target overwrite
  ordered := fun _ => copyBody_ordered entryOrdered target overwrite

/-- The generation counts the committed changes. -/
structure Manifest where
  schema : UInt32
  root : Entry
  generation : UInt64
  ordered : root.Ordered

def Manifest.empty : Manifest where
  schema := auditSchemaVersion
  root := .directory []
  generation := 0
  ordered := .empty

/-- Each body that succeeds ends by counting the generation up. -/
def mutateWith {Result : Type} (change : Change Result) (manifest : Manifest) :
    Outcome Manifest Result :=
  let outcome := change.apply manifest.root
  ({manifest with
      root := outcome.1
      ordered := change.ordered manifest.root manifest.ordered
      generation :=
        if outcome.2.isOk then manifest.generation + 1 else manifest.generation},
    outcome.2)

end Manifest

structure AuditContext where
  capabilityId : Option String := none
  note : Option String := none

structure AuditRecord where
  schema : UInt32
  seq : UInt64
  timestampUnixMs : Int
  op : String
  path : String
  hash : Option ContentHash
  capabilityId : Option String
  note : Option String

inductive AuditStep where
  | open | encode | write | flush | fsync

def AuditStep.name : AuditStep → String
  | .open => "open"
  | .encode => "encode"
  | .write => "write"
  | .flush => "flush"
  | .fsync => "fsync"

/-- The line is in the log once it is written, even where a later step fails. -/
def AuditStep.afterWrite : AuditStep → Bool
  | .flush | .fsync => true
  | _ => false

/-- The surroundings of one call: its clock, its quota hook, and which write fails. -/
structure Surroundings where
  unixMs : Int
  checkWrite : UInt64 → Except NamespaceError Unit
  auditFault : Option (AuditStep × String) := none
  persistFault : Option NamespaceError := none

/-- `stored` is what `manifest.json` holds. -/
structure Nas where
  manifest : Manifest
  auditLog : List AuditRecord := []
  stored : Option Manifest := none

section Calls

variable (env : Surroundings)

def writeAudit (record : AuditRecord) (nas : Nas) : Outcome Nas Unit :=
  match env.auditFault with
  | none => ({nas with auditLog := nas.auditLog ++ [record]}, .ok ())
  | some (step, text) =>
    (if step.afterWrite then {nas with auditLog := nas.auditLog ++ [record]} else nas,
      .error (.auditFailed (step.name ++ ": " ++ text)))

/-- The new file takes the old one's place by a rename. -/
def persistManifest (manifest : Manifest) (nas : Nas) : Outcome Nas Unit :=
  match env.persistFault with
  | none => ({nas with stored := some manifest}, .ok ())
  | some error => (nas, .error error)

variable (audit : AuditContext)

/-- The five operations record and store a change in the same way. -/
def commit {Result : Type} (op path : String) (change : Change Result) (nas : Nas) :
    Outcome Nas Result :=
  match mutateWith change nas.manifest with
  | (manifest, .error error) => ({nas with manifest}, .error error)
  | (next, .ok result) =>
    let record : AuditRecord :=
      { schema := auditSchemaVersion, seq := next.generation
        timestampUnixMs := env.unixMs, op, path, hash := none
        capabilityId := audit.capabilityId, note := audit.note }
    match writeAudit env record {nas with manifest := next} with
    | (nas, .error error) => (nas, .error error)
    | (nas, .ok ()) =>
      match persistManifest env next nas with
      | (nas, .error error) => (nas, .error error)
      | (nas, .ok ()) => (nas, .ok result)

variable (path : PathSegments)

def put (hash : ContentHash) (size : UInt64) (nas : Nas) :
    Outcome Nas Unit :=
  match env.checkWrite size with
  | .error error => (nas, .error error)
  | .ok () =>
    commit env audit "put" (display path) (putChange path ⟨hash, size⟩) nas

def delete (nas : Nas) : Outcome Nas ContentHash :=
  commit env audit "delete" (display path) (deleteChange path) nas

def mkcol (nas : Nas) : Outcome Nas Unit :=
  commit env audit "mkcol" (display path) (mkcolChange path) nas

variable (source target : PathSegments)

def rename (overwrite : Bool) (nas : Nas) : Outcome Nas Unit :=
  commit env audit "rename" (display source ++ " -> " ++ display target)
    (renameChange source target overwrite) nas

def copy (overwrite : Bool) (nas : Nas) : Outcome Nas Unit :=
  match found : nas.manifest.root.lookup source with
  | none => (nas, .error (.notFound (display source)))
  | some entry =>
    commit env audit "copy" (display source ++ " -> " ++ display target)
      (copyChange entry (nas.manifest.ordered.lookup found) target overwrite) nas

end Calls

inductive Operation where
  | put (path : PathSegments) (hash : ContentHash) (size : UInt64)
  | delete (path : PathSegments)
  | mkcol (path : PathSegments)
  | rename (source target : PathSegments) (overwrite : Bool)
  | copy (source target : PathSegments) (overwrite : Bool)

/-- Of the result, what counts is whether the call fails. -/
def call (env : Surroundings) (audit : AuditContext) (nas : Nas) :
    Operation → Outcome Nas Unit
  | .put path hash size => put env audit path hash size nas
  | .delete path =>
    let outcome := delete env audit path nas
    (outcome.1, outcome.2.map fun _ => ())
  | .mkcol path => mkcol env audit path nas
  | .rename source target overwrite => rename env audit source target overwrite nas
  | .copy source target overwrite => copy env audit source target overwrite nas

end A3Net.Blobstore.Namespace
