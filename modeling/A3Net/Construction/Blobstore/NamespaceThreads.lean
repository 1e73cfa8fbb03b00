/-
A call holds the lock of the manifest only while it looks at the manifest or changes it, so its
other steps may alternate with the steps of other calls. The files hold symbols of any kind, and the
serialiser writes bytes.
-/

import A3Net.Construction.Blobstore.Namespace
import A3Net.Machine.Json
import A3Net.Machine.Replacement

namespace A3Net.Blobstore.Namespace

open Machine

/-- The JSON library reads fewer than 128 nested values. The manifest is one of them, and each
directory on a path is two of them: itself and its children. -/
def Manifest.Readable (manifest : Manifest) : Prop := manifest.root.Within 62
deriving Decidable

/-- What the serialiser writes of a manifest that is not too deep is read back. -/
abbrev Codec (Symbol : Type) :=
  Serialiser Option Manifest (List Symbol) Manifest.Readable id

def auditRecord (op path : String) (unixMs : Int) (audit : AuditContext) (seq : UInt64) :
    AuditRecord :=
  { schema := auditSchemaVersion, seq, timestampUnixMs := unixMs, op, path, hash := none
    capabilityId := audit.capabilityId, note := audit.note }

/-- A copy first keeps the entry of its source. After its change a call has a snapshot of the
manifest, which it still has to record and to store. -/
inductive Phase where
  | idle
  | copying (entry : Entry) (entryOrdered : entry.Ordered) (source target : PathSegments)
      (overwrite : Bool) (audit : AuditContext)
  | mutated (record : AuditRecord) (next : Manifest)
  | audited (next : Manifest)
  | opened (next : Manifest) (file : Nat)
  | written (next : Manifest)
  | returned (result : Except NamespaceError Unit)

/-- One namespace is shared by all calls. The temporary file and `manifest.json` are the two files
of the replacement. -/
structure SharedNas (Symbol Task : Type) where
  manifest : Manifest
  auditLog : List AuditRecord
  files : Replacement Symbol
  phase : Task → Phase

/-- Any write may fail. A failed write of the temporary file leaves a part of the text. -/
inductive ThreadEvent (Task : Type) where
  | begin (task : Task) (operation : Operation) (env : Surroundings)
      (audit : AuditContext)
  | resume (task : Task) (unixMs : Int)
  | appendAudit (task : Task) (fault : Option (AuditStep × String))
  | openTemporary (task : Task) (fault : Option String)
  | writeTemporary (task : Task) (fault : Option (Nat × String))
  | renameTemporary (task : Task) (fault : Option String)

namespace SharedNas

variable {Symbol Task : Type} (codec : Codec Symbol) (files : Replacement Symbol)

/-- A missing `manifest.json` stands for the empty manifest. -/
def load : Option Manifest :=
  match files.read with
  | none => some .empty
  | some text => codec.decode text

/-- The namespace opens unless `manifest.json` is corrupt. -/
def openNas (auditLog : List AuditRecord) :
    Option (SharedNas Symbol Task) :=
  (load codec files).map fun manifest => ⟨manifest, auditLog, files, fun _ => .idle⟩

variable [DecidableEq Task] (nas : SharedNas Symbol Task) (task : Task)

def goto (phase : Phase) : SharedNas Symbol Task :=
  {nas with phase := Function.update nas.phase task phase}

/-- The lock is released with the snapshot of the changed manifest. -/
def mutate {Result : Type} (op path : String) (change : Change Result) (unixMs : Int)
    (audit : AuditContext) : SharedNas Symbol Task :=
  match mutateWith change nas.manifest with
  | (manifest, .error error) => {nas with manifest}.goto task (.returned (.error error))
  | (next, .ok _) =>
    {nas with manifest := next}.goto task
      (.mutated (auditRecord op path unixMs audit next.generation) next)

def begin (operation : Operation) (env : Surroundings) (audit : AuditContext) :
    SharedNas Symbol Task :=
  match nas.phase task with
  | .idle =>
    match operation with
    | .put path hash size =>
      match env.checkWrite size with
      | .error error => nas.goto task (.returned (.error error))
      | .ok () =>
        nas.mutate task "put" (display path) (putChange path ⟨hash, size⟩)
          env.unixMs audit
    | .delete path =>
      nas.mutate task "delete" (display path) (deleteChange path) env.unixMs audit
    | .mkcol path =>
      nas.mutate task "mkcol" (display path) (mkcolChange path) env.unixMs audit
    | .rename source target overwrite =>
      nas.mutate task "rename" (display source ++ " -> " ++ display target)
        (renameChange source target overwrite) env.unixMs audit
    | .copy source target overwrite =>
      match found : nas.manifest.root.lookup source with
      | none => nas.goto task (.returned (.error (.notFound (display source))))
      | some entry =>
        nas.goto task (.copying entry (nas.manifest.ordered.lookup found) source target
          overwrite audit)
  | _ => nas

/-- A copy takes the lock again for its change. -/
def resume (unixMs : Int) : SharedNas Symbol Task :=
  match nas.phase task with
  | .copying entry entryOrdered source target overwrite audit =>
    nas.mutate task "copy" (display source ++ " -> " ++ display target)
      (copyChange entry entryOrdered target overwrite) unixMs audit
  | _ => nas

def appendAudit (fault : Option (AuditStep × String)) : SharedNas Symbol Task :=
  match nas.phase task with
  | .mutated record next =>
    match fault with
    | none => {nas with auditLog := nas.auditLog ++ [record]}.goto task (.audited next)
    | some (step, text) =>
      (if step.afterWrite then {nas with auditLog := nas.auditLog ++ [record]} else nas).goto
        task (.returned (.error (.auditFailed (step.name ++ ": " ++ text))))
  | _ => nas

variable (fault : Option String)

def openTemporary : SharedNas Symbol Task :=
  match nas.phase task with
  | .audited next =>
    match fault with
    | none =>
      let (files, file) := nas.files.openTemporary
      {nas with files}.goto task (.opened next file)
    | some text => nas.goto task (.returned (.error (.io text)))
  | _ => nas

def writeTemporary (fault : Option (Nat × String)) : SharedNas Symbol Task :=
  match nas.phase task with
  | .opened next file =>
    match fault with
    | none =>
      {nas with files := nas.files.write file (codec.encode next)}.goto task (.written next)
    | some (count, text) =>
      {nas with files := nas.files.write file ((codec.encode next).take count)}.goto task
        (.returned (.error (.io text)))
  | _ => nas

def renameTemporary : SharedNas Symbol Task :=
  match nas.phase task with
  | .written _ =>
    match fault with
    | none =>
      match nas.files.rename with
      | some files => {nas with files}.goto task (.returned (.ok ()))
      | none =>
        nas.goto task
          (.returned (.error (.io "No such file or directory (os error 2)")))
    | some text => nas.goto task (.returned (.error (.io text)))
  | _ => nas

def step (nas : SharedNas Symbol Task) : ThreadEvent Task → SharedNas Symbol Task
  | .begin task operation env audit => nas.begin task operation env audit
  | .resume task unixMs => nas.resume task unixMs
  | .appendAudit task fault => nas.appendAudit task fault
  | .openTemporary task fault => nas.openTemporary task fault
  | .writeTemporary task fault => nas.writeTemporary codec task fault
  | .renameTemporary task fault => nas.renameTemporary task fault

end SharedNas
end A3Net.Blobstore.Namespace
