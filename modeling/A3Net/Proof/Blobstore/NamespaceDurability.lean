/-
The generation of its snapshot is the ticket of a call: the call gives it back when it has stored
the snapshot, and a second ticket when it has recorded its change.
-/

import A3Net.Construction.Blobstore.NamespaceThreads
import A3Net.Machine.History
import A3Net.Machine.Tickets
import Mathlib.Data.Fintype.Basic

namespace A3Net.Blobstore.Namespace

open Machine SharedNas Function List Replacement Option Nat

def Manifest.number (manifest : Manifest) : Nat := manifest.generation.toNat

/-- The call has still to store this snapshot. -/
def Phase.pending : Phase → Option Manifest
  | .mutated _ next | .audited next | .opened next _ | .written next => some next
  | _ => none

/-- The call has still to record the change that led to this snapshot. -/
def Phase.unaudited : Phase → Option Manifest
  | .mutated _ next => some next
  | _ => none

namespace SharedNas

variable {Symbol Task : Type} (codec : Codec Symbol) (nas : SharedNas Symbol Task)

/-- Every call that began has returned without an error. -/
def AllReturned : Prop :=
  ∀ task, nas.phase task = .idle ∨ nas.phase task = .returned (.ok ())

/-- A call has returned an error. -/
def Failed : Prop :=
  ∃ task error, nas.phase task = .returned (.error error)

/-- A corrupt file has no generation and counts as zero. -/
def storedGeneration : Nat :=
  ((load codec nas.files).map Manifest.number).getD 0

/-- The call of the phase has the oldest change that is not recorded. -/
def RecordsNext : Phase → Prop
  | .mutated _ next =>
    ∀ other, ∀ older ∈ (nas.phase other).unaudited, next.number ≤ older.number
  | _ => True

/-- The call of the phase has the oldest snapshot that is not stored. -/
def StoresNext : Phase → Prop
  | .audited next => ∀ other, ∀ older ∈ (nas.phase other).pending, next.number ≤ older.number
  | _ => True

/-- The snapshot that the call of the phase is about to store is not too deep to be read. -/
def StoresReadable : Phase → Prop
  | .written next => next.Readable
  | _ => True

/-- The generation still counts up. Calls record their changes, and begin to store their snapshots,
in the order of their changes, and each snapshot is stored before the next one is begun. -/
def InOrder : ThreadEvent Task → Prop
  | .begin _ _ _ _ | .resume _ _ => nas.manifest.number + 1 < 2 ^ 64
  | .appendAudit task _ => nas.RecordsNext (nas.phase task)
  | .openTemporary task _ => nas.StoresNext (nas.phase task)
  | .writeTemporary _ _ => True
  | .renameTemporary task _ => StoresReadable (nas.phase task)

variable [Fintype Task] (nas : SharedNas Symbol Task)

instance (phase : Phase) : Decidable (nas.RecordsNext phase) := by
  cases phase <;> dsimp only [RecordsNext] <;> infer_instance

instance (phase : Phase) : Decidable (nas.StoresNext phase) := by
  cases phase <;> dsimp only [StoresNext] <;> infer_instance

instance (phase : Phase) : Decidable (StoresReadable phase) := by
  cases phase <;> dsimp only [StoresReadable] <;> infer_instance

instance (event : ThreadEvent Task) : Decidable (nas.InOrder event) := by
  cases event <;> dsimp only [InOrder] <;> infer_instance

variable [DecidableEq Task]

/-- The file holds the manifest of the memory, its generation never went back, and the log has
exactly one line for each generation in their order. -/
structure Durable (start : SharedNas Symbol Task) (events : List (ThreadEvent Task)) : Prop where
  stored : load codec (run (step codec) start events).files =
    some (run (step codec) start events).manifest
  forward : Ordered (step codec) start
    (fun earlier later => storedGeneration codec earlier ≤ storedGeneration codec later) events
  audited : ∃ lines, (run (step codec) start events).auditLog = start.auditLog ++ lines ∧
    lines.map (fun record => record.seq.toNat) = List.range' (start.manifest.number + 1)
      ((run (step codec) start events).manifest.number - start.manifest.number)

end SharedNas

theorem Phase.unaudited_eq_none {phase : Phase} (free : phase.pending = none) :
    phase.unaudited = none := by
  cases phase with
  | mutated => cases free
  | idle | copying | audited | opened | written | returned => rfl

/-- The ticket of a call that has still to store its snapshot. -/
def Phase.ticket (phase : Phase) : Option Nat := phase.pending.map Manifest.number

/-- The ticket of a call that has still to record its change. -/
def Phase.auditTicket (phase : Phase) : Option Nat := phase.unaudited.map Manifest.number

/-- The call has opened the temporary file. -/
def Phase.Stores : Phase → Prop
  | .opened _ _ | .written _ => True
  | _ => False

/-- A snapshot of the newest generation is the manifest itself, and the one call that stores has the
next generation and the temporary file. -/
def Phase.Fits {Symbol : Type} (codec : Codec Symbol) (manifest stored : Manifest)
    (files : Replacement Symbol) : Phase → Prop
  | .mutated record next =>
    record.seq = next.generation ∧ (next.number = manifest.number → next = manifest)
  | .audited next => next.number = manifest.number → next = manifest
  | .opened next file =>
    (next.number = manifest.number → next = manifest) ∧ next.number = stored.number + 1 ∧
      files.temporary = some file ∧ files.contents file = []
  | .written next =>
    (next.number = manifest.number → next = manifest) ∧ next.number = stored.number + 1 ∧
      ∃ file, files.temporary = some file ∧ files.contents file = codec.encode next
  | _ => True

namespace SharedNas

variable {Symbol Task : Type} {codec : Codec Symbol} {nas : SharedNas Symbol Task}

/-- What is recorded and what is stored are complete up to the tickets that calls still hold. -/
structure Orderly (codec : Codec Symbol) (first : Nat) (earlier : List AuditRecord)
    (nas : SharedNas Symbol Task) (stored : Manifest) (lines : List AuditRecord) : Prop where
  log : nas.auditLog = earlier ++ lines
  seqs : lines.map (fun record => record.seq.toNat) = List.range' (first + 1) lines.length
  loads : load codec nas.files = some stored
  newest : stored.number = nas.manifest.number → stored = nas.manifest
  storing : Tickets (Phase.ticket ∘ nas.phase) stored.number nas.manifest.number
  recording : Tickets (Phase.auditTicket ∘ nas.phase) (first + lines.length) nas.manifest.number
  fits : ∀ task, (nas.phase task).Fits codec nas.manifest stored nas.files

/-- The next state is orderly again, and the file has not gone back. -/
def Advances (codec : Codec Symbol) (first : Nat) (earlier : List AuditRecord) (stored : Manifest)
    (next : SharedNas Symbol Task) : Prop :=
  Failed next ∨ ∃ newer lines, Orderly codec first earlier next newer lines ∧
    stored.number ≤ newer.number

namespace Orderly

variable {first : Nat} {earlier lines : List AuditRecord} {stored : Manifest}

section

variable (orderly : Orderly codec first earlier nas stored lines)
include orderly

theorem unchanged : Advances codec first earlier stored nas :=
  .inr ⟨stored, lines, orderly, le_refl _⟩

/-- A call that stores has the least ticket. -/
theorem ticket_of_stores {task : Task} (stores : (nas.phase task).Stores) :
    (nas.phase task).ticket = some (stored.number + 1) := by
  have fits := orderly.fits task
  cases phase : nas.phase task with
  | opened | written =>
    rw [phase] at fits
    exact congrArg some fits.2.1
  | idle | copying | mutated | audited | returned =>
    rw [phase] at stores
    exact stores.elim

/-- While a call has the least ticket, no other call stores. -/
theorem alone {task other : Task} (least : (nas.phase task).ticket = some (stored.number + 1))
    (ne : other ≠ task) : ¬ (nas.phase other).Stores :=
  fun stores => ne (orderly.storing.injective other task _ (orderly.ticket_of_stores stores) least)

theorem storedGeneration_eq : storedGeneration codec nas = stored.number := by
  rw [storedGeneration, orderly.loads]
  rfl

/-- When all calls have returned, nothing is left to record or to store. -/
theorem complete (returned : nas.AllReturned) :
    stored = nas.manifest ∧ first + lines.length = nas.manifest.number := by
  have pending : ∀ task, (nas.phase task).pending = none := by
    intro task
    rcases returned task with idle | done
    · rw [idle]
      rfl
    · rw [done]
      rfl
  constructor
  · exact orderly.newest (orderly.storing.eq_of_none fun task =>
      congrArg (Option.map _) (pending task))
  · exact orderly.recording.eq_of_none fun task =>
      congrArg (Option.map _) (Phase.unaudited_eq_none (pending task))

end

end Orderly

variable {manifest : Manifest}

/-- The call that does not store only looks at the manifest. -/
theorem fits_of_not_stores {phase : Phase} {stored newer : Manifest}
    {files others : Replacement Symbol} (fits : phase.Fits codec manifest stored files)
    (quiet : ¬ phase.Stores) : phase.Fits codec manifest newer others := by
  cases phase with
  | opened | written => exact absurd trivial quiet
  | idle | copying | mutated | audited | returned => exact fits

theorem not_failed_of_allReturned (returned : nas.AllReturned) : ¬ Failed nas := by
  rintro ⟨task, error, failed⟩
  rcases returned task with idle | done
  · cases idle.symm.trans failed
  · cases done.symm.trans failed

variable {log : List AuditRecord}

/-- A namespace is orderly when it has just been opened. -/
theorem openNas_orderly {files : Replacement Symbol} (opened : openNas codec files log = some nas) :
    Orderly codec nas.manifest.number nas.auditLog nas nas.manifest [] := by
  obtain ⟨manifest, loads, rfl⟩ := map_eq_some_iff.mp opened
  exact ⟨(append_nil _).symm, rfl, loads, fun _ => rfl, Tickets.none _, Tickets.none _,
    fun _ => trivial⟩

/-- The call that takes the step. -/
def eventTask : ThreadEvent Task → Task
  | .begin task _ _ _ | .resume task _ | .appendAudit task _ | .openTemporary task _
  | .writeTemporary task _ | .renameTemporary task _ => task

/-- A call stores its snapshot in these steps. -/
def persisting (task : Task) : List (ThreadEvent Task) :=
  [.openTemporary task none, .writeTemporary task none, .renameTemporary task none]

variable [DecidableEq Task]

theorem goto_phase (task : Task) (phase : Phase) :
    (nas.goto task phase).phase = update nas.phase task phase := rfl

theorem goto_self (nas : SharedNas Symbol Task) (task : Task) (phase : Phase) :
    (nas.goto task phase).phase task = phase :=
  update_self ..

variable {error : NamespaceError}

theorem failed_goto {task : Task} : Failed (nas.goto task (.returned (.error error))) :=
  ⟨task, error, update_self ..⟩

variable {next : Manifest}

theorem mutateWith_number {Result : Type} {change : Change Result} {result : Result}
    (changed : mutateWith change manifest = (next, .ok result))
    (room : manifest.number + 1 < 2 ^ 64) : next.number = manifest.number + 1 := by
  have succeeded : (change.apply manifest.root).2 = .ok result := congrArg Prod.snd changed
  have counted : next.generation = manifest.generation + 1 := by
    have same : (mutateWith change manifest).1 = next := congrArg Prod.fst changed
    rw [← same]
    simp only [mutateWith, succeeded]
    rfl
  rw [Manifest.number, counted, UInt64.toNat_add]
  exact mod_eq_of_lt room

namespace Orderly

variable {first : Nat} {earlier lines : List AuditRecord} {stored : Manifest} {task : Task}
  {phase old : Phase} {files : Replacement Symbol}

/-- One call goes to another phase. -/
theorem moved {phases : Task → Phase} (log_eq : log = earlier ++ lines)
    (seqs : lines.map (fun record => record.seq.toNat) = List.range' (first + 1) lines.length)
    (loads : load codec files = some stored)
    (newest : stored.number = manifest.number → stored = manifest)
    (storing : Tickets (update (Phase.ticket ∘ phases) task phase.ticket) stored.number
      manifest.number)
    (recording : Tickets (update (Phase.auditTicket ∘ phases) task phase.auditTicket)
      (first + lines.length) manifest.number) (own : phase.Fits codec manifest stored files)
    (others : ∀ other, other ≠ task → (phases other).Fits codec manifest stored files) :
    Orderly codec first earlier (goto ⟨manifest, log, files, phases⟩ task phase) stored lines where
  log := log_eq
  seqs := seqs
  loads := loads
  newest := newest
  storing := by rwa [goto_phase, comp_update]
  recording := by rwa [goto_phase, comp_update]
  fits := (forall_update_iff _ fun _ => Phase.Fits codec manifest stored files).mpr ⟨own, others⟩

/-- The tickets stay when the call keeps its own. -/
theorem same_ticket {low high : Nat} {ticket : Phase → Option Nat}
    (tickets : Tickets (ticket ∘ nas.phase) low high) (was : nas.phase task = old)
    (same : ticket phase = ticket old) :
    Tickets (update (ticket ∘ nas.phase) task (ticket phase)) low high := by
  rw [same, ← was]
  exact (update_eq_self task (ticket ∘ nas.phase)).symm ▸ tickets

/-- An old snapshot says nothing about a newer manifest. -/
theorem fits_of_newer {newer : Manifest} (fits : phase.Fits codec manifest stored files)
    (old : ∀ next, phase.pending = some next → next.number < newer.number) :
    phase.Fits codec newer stored files := by
  cases phase with
  | mutated record next => exact ⟨fits.1, fun same => absurd same (old next rfl).ne⟩
  | audited next => exact fun same => absurd same (old next rfl).ne
  | opened next | written next => exact ⟨fun same => absurd same (old next rfl).ne, fits.2⟩
  | idle | copying | returned => trivial

section

variable (orderly : Orderly codec first earlier nas stored lines)
include orderly

/-- A call that keeps its tickets may change the files when the stored snapshot stays. -/
theorem stays (was : nas.phase task = old) (storing : phase.ticket = old.ticket)
    (recording : phase.auditTicket = old.auditTicket) (loads : load codec files = some stored)
    (own : phase.Fits codec nas.manifest stored files)
    (others : ∀ other, other ≠ task → (nas.phase other).Fits codec nas.manifest stored files) :
    Advances codec first earlier stored ({nas with files}.goto task phase) :=
  .inr ⟨stored, lines, moved orderly.log orderly.seqs loads orderly.newest
    (same_ticket orderly.storing was storing) (same_ticket orderly.recording was recording) own
    others, le_refl _⟩

/-- A call without a snapshot changes the manifest and takes the next ticket. -/
theorem mutate (free : (nas.phase task).pending = none) (room : nas.manifest.number + 1 < 2 ^ 64)
    {Result : Type} (op path : String) (change : Change Result) (unixMs : Int)
    (audit : AuditContext) :
    Advances codec first earlier stored (nas.mutate task op path change unixMs audit) := by
  unfold SharedNas.mutate
  split
  · exact .inl (failed_goto)
  · next next _ changed =>
    have number := mutateWith_number changed room
    have noTicket : (Phase.ticket ∘ nas.phase) task = none := congrArg (Option.map _) free
    have noAuditTicket : (Phase.auditTicket ∘ nas.phase) task = none :=
      congrArg (Option.map _) (Phase.unaudited_eq_none free)
    have storing := orderly.storing.take noTicket
    have recording := orderly.recording.take noAuditTicket
    rw [← number] at storing recording
    refine .inr ⟨stored, lines, moved orderly.log orderly.seqs orderly.loads ?_ storing recording
      ⟨rfl, fun _ => rfl⟩ ?_, le_refl _⟩
    · intro same
      have := orderly.storing.le
      omega
    · intro other _
      refine fits_of_newer (orderly.fits other) fun older pending => ?_
      have := (orderly.storing.range other older.number (congrArg (Option.map _) pending)).2
      omega

theorem appendAudit (recordsNext : nas.RecordsNext (nas.phase task))
    (fault : Option (AuditStep × String)) :
    Advances codec first earlier stored (nas.appendAudit task fault) := by
  unfold SharedNas.appendAudit
  split
  · next record next phase =>
    split
    · have fits := orderly.fits task
      rw [phase] at fits recordsNext
      have holds : (Phase.auditTicket ∘ nas.phase) task = some next.number := by
        rw [comp_apply, phase]
        rfl
      have number : next.number = first + lines.length + 1 := by
        refine orderly.recording.eq_of_least holds fun other older held => ?_
        obtain ⟨snapshot, unaudited, rfl⟩ := map_eq_some_iff.mp held
        exact recordsNext other snapshot unaudited
      rw [number] at holds
      have length : first + (lines ++ [record]).length = first + lines.length + 1 := by
        rw [length_append, length_singleton, add_assoc]
      refine .inr ⟨stored, lines ++ [record], moved ?_ ?_ orderly.loads orderly.newest
        (same_ticket orderly.storing phase rfl) ?_ fits.2 fun other _ => orderly.fits other,
        le_refl _⟩
      · rw [orderly.log, append_assoc]
      · have seq : record.seq.toNat = first + lines.length + 1 :=
          (congrArg UInt64.toNat fits.1).trans number
        rw [map_append, orderly.seqs, map_singleton, seq, length_append,
          length_singleton, range'_1_concat, add_right_comm]
      · rw [length]
        exact orderly.recording.give holds
    · exact .inl (failed_goto)
  · exact orderly.unchanged

theorem openTemporary (storesNext : nas.StoresNext (nas.phase task)) (fault : Option String) :
    Advances codec first earlier stored (nas.openTemporary task fault) := by
  unfold SharedNas.openTemporary
  split
  · next next phase =>
    split
    · have fits := orderly.fits task
      rw [phase] at fits storesNext
      have holds : (Phase.ticket ∘ nas.phase) task = some next.number := by
        rw [comp_apply, phase]
        rfl
      have number : next.number = stored.number + 1 := by
        refine orderly.storing.eq_of_least holds fun other older held => ?_
        obtain ⟨snapshot, pending, rfl⟩ := map_eq_some_iff.mp held
        exact storesNext other snapshot pending
      obtain ⟨temporary, empty, read⟩ := nas.files.openTemporary_spec
      have loads : load codec nas.files.openTemporary.1 = some stored := by
        rw [load, read]
        exact orderly.loads
      exact orderly.stays phase rfl rfl loads ⟨fits, number, temporary, empty⟩ fun other ne =>
        fits_of_not_stores (orderly.fits other)
          (orderly.alone (holds.trans (congrArg some number)) ne)
    · exact .inl (failed_goto)
  · exact orderly.unchanged

theorem writeTemporary (fault : Option (Nat × String)) :
    Advances codec first earlier stored (nas.writeTemporary codec task fault) := by
  unfold SharedNas.writeTemporary
  split
  · next next file phase =>
    split
    · have fits := orderly.fits task
      rw [phase] at fits
      obtain ⟨cur, number, temporary, empty⟩ := fits
      have loads : load codec (nas.files.write file (codec.encode next)) = some stored := by
        rw [load, Replacement.read_write temporary]
        exact orderly.loads
      have least : (nas.phase task).ticket = some (stored.number + 1) := by
        rw [phase]
        exact congrArg some number
      exact orderly.stays phase rfl rfl loads
        ⟨cur, number, file, temporary, contents_write empty _⟩
        fun other ne => fits_of_not_stores (orderly.fits other) (orderly.alone least ne)
    · exact .inl (failed_goto)
  · exact orderly.unchanged

/-- The rename stores the snapshot with the least ticket. -/
theorem renameTemporary (readable : StoresReadable (nas.phase task)) (fault : Option String) :
    Advances codec first earlier stored (nas.renameTemporary task fault) := by
  unfold SharedNas.renameTemporary
  split
  · next next phase =>
    have fits := orderly.fits task
    rw [phase] at fits readable
    obtain ⟨cur, number, file, temporary, contents⟩ := fits
    split
    · obtain ⟨renamed, succeeds, read⟩ := Replacement.rename_spec temporary
      have least : (nas.phase task).ticket = some (stored.number + 1) := by
        rw [phase]
        exact congrArg some number
      have loads : load codec renamed = some next := by
        rw [load, read, contents]
        exact codec.decode_encode next readable
      have storing := orderly.storing.give least
      rw [← number] at storing
      simp only [succeeds]
      exact .inr ⟨next, lines, moved orderly.log orderly.seqs loads cur storing
        (same_ticket orderly.recording phase rfl) trivial fun other ne =>
          fits_of_not_stores (orderly.fits other) (orderly.alone least ne), by omega⟩
    · exact .inl (failed_goto)
  · exact orderly.unchanged

/-- A phase without a snapshot takes no ticket. -/
theorem kept (free : (nas.phase task).pending = none) (quiet : phase.pending = none)
    (own : phase.Fits codec nas.manifest stored nas.files) :
    Advances codec first earlier stored (nas.goto task phase) := by
  refine orderly.stays rfl ?_ ?_ orderly.loads own fun other _ => orderly.fits other
  · rw [Phase.ticket, Phase.ticket, free, quiet]
  · rw [Phase.auditTicket, Phase.auditTicket, Phase.unaudited_eq_none free,
      Phase.unaudited_eq_none quiet]

theorem begin (room : nas.manifest.number + 1 < 2 ^ 64) (operation : Operation)
    (env : Surroundings) (audit : AuditContext) :
    Advances codec first earlier stored (nas.begin task operation env audit) := by
  have free (phase : nas.phase task = .idle) : (nas.phase task).pending = none := by
    rw [phase]
    rfl
  fun_cases SharedNas.begin nas task operation env audit with
  | case1 | case6 => exact .inl (failed_goto)
  | case2 phase | case3 phase | case4 phase | case5 phase =>
    exact orderly.mutate (free phase) room ..
  | case7 phase => exact orderly.kept (free phase) rfl trivial
  | case8 => exact orderly.unchanged

theorem resume (room : nas.manifest.number + 1 < 2 ^ 64) (unixMs : Int) :
    Advances codec first earlier stored (nas.resume task unixMs) := by
  unfold SharedNas.resume
  split
  · next phase =>
    refine orderly.mutate ?_ room ..
    rw [phase]
    rfl
  · exact orderly.unchanged

theorem step (event : ThreadEvent Task) (inOrder : nas.InOrder event) :
    Advances codec first earlier stored (nas.step codec event) := by
  cases event with
  | begin task operation env audit =>
    exact orderly.begin inOrder operation env audit
  | resume task unixMs => exact orderly.resume inOrder unixMs
  | appendAudit task fault => exact orderly.appendAudit inOrder fault
  | openTemporary task fault => exact orderly.openTemporary inOrder fault
  | writeTemporary task fault => exact orderly.writeTemporary fault
  | renameTemporary task fault => exact orderly.renameTemporary inOrder fault

end

end Orderly

variable {result : Except NamespaceError Unit} {event : ThreadEvent Task}

theorem step_of_returned (returned : nas.phase (eventTask event) = .returned result) :
    nas.step codec event = nas := by
  cases event with
  | begin | resume | appendAudit | openTemporary | writeTemporary | renameTemporary =>
    rw [eventTask] at returned
    simp only [step, begin, resume, appendAudit,
      openTemporary, writeTemporary, renameTemporary, returned]

section Others

variable {task other : Task} (ne : other ≠ task)

include ne

theorem goto_of_ne {phase : Phase} : (nas.goto task phase).phase other = nas.phase other :=
  update_of_ne ne ..

theorem mutate_of_ne {Result : Type} (op path : String) (change : Change Result) (unixMs : Int)
    (audit : AuditContext) :
    (nas.mutate task op path change unixMs audit).phase other = nas.phase other := by
  unfold mutate
  split <;> exact goto_of_ne ne

end Others

/-- A call takes its steps alone. -/
theorem step_of_ne {other : Task} (ne : other ≠ eventTask event) :
    (nas.step codec event).phase other = nas.phase other := by
  cases event with
  | begin task operation env audit =>
    change (nas.begin task operation env audit).phase other = _
    fun_cases begin nas task operation env audit with
    | case1 | case6 | case7 => exact goto_of_ne ne
    | case2 | case3 | case4 | case5 => exact mutate_of_ne ne ..
    | case8 => rfl
  | resume =>
    rw [step, resume]
    split
    · exact mutate_of_ne ne ..
    · rfl
  | appendAudit =>
    rw [step, appendAudit]
    split
    · split
      · exact goto_of_ne ne
      · refine (goto_of_ne ne).trans ?_
        split <;> rfl
    · rfl
  | openTemporary =>
    rw [step, openTemporary]
    split
    · split <;> exact goto_of_ne ne
    · rfl
  | writeTemporary =>
    rw [step, writeTemporary]
    split
    · split <;> exact goto_of_ne ne
    · rfl
  | renameTemporary =>
    rw [step]
    unfold renameTemporary
    split
    · split
      · split <;> exact goto_of_ne ne
      · exact goto_of_ne ne
    · rfl

/-- A call that has returned takes no further step. -/
theorem step_returned {task : Task} (returned : nas.phase task = .returned result) :
    (nas.step codec event).phase task = .returned result := by
  by_cases same : task = eventTask event
  · subst same
    rw [step_of_returned returned, returned]
  · rw [step_of_ne same, returned]

theorem failed_run (failed : Failed nas) (events : List (ThreadEvent Task)) :
    Failed (run (step codec) nas events) := by
  induction events generalizing nas with
  | nil => exact failed
  | cons event rest ih =>
    obtain ⟨task, error, returned⟩ := failed
    exact ih ⟨task, error, step_returned returned⟩

variable {task : Task}

/-- A call that alone has the temporary file stores its snapshot. -/
theorem persisting_of_audited (phase : nas.phase task = .audited next) :
    ∃ files, files.read = some (codec.encode next) ∧
      run (step codec) nas (persisting task) = {nas with files}.goto task (.returned (.ok ())) := by
  obtain ⟨temporary, empty, -⟩ := nas.files.openTemporary_spec
  have held : (nas.files.openTemporary.1.write nas.files.openTemporary.2
      (codec.encode next)).temporary = some nas.files.openTemporary.2 := temporary
  obtain ⟨renamed, succeeds, read⟩ := rename_spec held
  rw [contents_write empty] at read
  refine ⟨renamed, read, ?_⟩
  simp only [persisting, run_cons, run_nil, step, phase, openTemporary, writeTemporary,
    renameTemporary, goto, update_self, update_idem, succeeds]

/-- In every run whose calls keep the order of their changes, the files are complete when all calls
have returned. -/
theorem namespace_durable (files : Replacement Symbol) (log : List AuditRecord)
    {start : SharedNas Symbol Task} (opened : openNas codec files log = some start)
    (events : List (ThreadEvent Task)) (guarded : Guarded (step codec) InOrder start events)
    (returned : (run (step codec) start events).AllReturned) : Durable codec start events := by
  have sound : Always (step codec) (fun nas => Failed nas ∨ ∃ stored lines,
      Orderly codec start.manifest.number start.auditLog nas stored lines) start events := by
    refine Guarded.always (step codec) (fun nas event sound inOrder => ?_)
      (.inr ⟨_, _, openNas_orderly opened⟩) guarded
    rcases sound with failed | ⟨stored, lines, orderly⟩
    · exact .inl (failed_run failed [event])
    · rcases orderly.step event inOrder with failed | ⟨newer, more, next, -⟩
      · exact .inl failed
      · exact .inr ⟨newer, more, next⟩
  have alive : ∀ past, past <+: events → ¬ Failed (run (step codec) start past) := by
    intro past short failed
    apply not_failed_of_allReturned returned
    obtain ⟨rest, rfl⟩ := short
    rw [run_append]
    exact failed_run failed rest
  have forward : Stepwise (fun past event => storedGeneration codec (run (step codec) start past) ≤
      storedGeneration codec (run (step codec) start (past ++ [event]))) events := by
    intro past event short
    have shorter := (prefix_append past [event]).trans short
    obtain ⟨stored, lines, orderly⟩ := (sound past shorter).resolve_left (alive past shorter)
    have advances := orderly.step event (guarded.stepwise past event short)
    have stays := alive (past ++ [event]) short
    rw [run_append] at stays ⊢
    obtain ⟨newer, more, next, le⟩ := advances.resolve_left stays
    rw [orderly.storedGeneration_eq]
    exact le.trans_eq next.storedGeneration_eq.symm
  have whole := prefix_refl events
  obtain ⟨stored, lines, final⟩ := (sound events whole).resolve_left (alive events whole)
  obtain ⟨same, length⟩ := final.complete returned
  refine ⟨same ▸ final.loads, ?_, lines, final.log, ?_⟩
  · exact ordered_of_steps (step codec) start
      (fun earlier later => storedGeneration codec earlier ≤ storedGeneration codec later)
      (fun _ => le_refl _) le_trans forward
  · rw [final.seqs, ← length, Nat.add_sub_cancel_left]

end SharedNas

/-- The sample serialiser writes a whole manifest as one symbol, and reads no deeper one. -/
def sampleCodec : Codec Manifest where
  encode manifest := [manifest]
  decode
    | [manifest] => if manifest.Readable then some manifest else none
    | _ => none
  decode_encode _ readable := if_pos readable

def calmSurroundings : Surroundings where
  unixMs := 0
  checkWrite _ := .ok ()

/-- The two calls put one file each. -/
def beginBoth : List (ThreadEvent Bool) :=
  [.begin false (.put ["a"] sampleHash 5) calmSurroundings {},
    .begin true (.put ["b"] sampleHash 5) calmSurroundings {},
    .appendAudit false none, .appendAudit true none]

def emptyNas {Symbol : Type} : SharedNas Symbol Bool :=
  ⟨.empty, [], .empty, fun _ => .idle⟩

def firstSnapshot : Manifest := (mutateWith (putChange ["a"] ⟨sampleHash, 5⟩) .empty).1

def secondSnapshot : Manifest := (mutateWith (putChange ["b"] ⟨sampleHash, 5⟩) firstSnapshot).1

variable {Symbol : Type}

/-- Of two calls, the one that stores last leaves its snapshot. -/
theorem persisting_both (codec : Codec Symbol) {nas : SharedNas Symbol Bool}
    {snapshot : Bool → Manifest} (audited : ∀ task, nas.phase task = .audited (snapshot task))
    (readable : ∀ task, (snapshot task).Readable) (last : Bool) :
    have final := run (step codec) nas (persisting (!last) ++ persisting last)
    final.AllReturned ∧ final.manifest = nas.manifest ∧
      load codec final.files = some (snapshot last) := by
  have ne : last ≠ !last := by cases last <;> decide
  obtain ⟨files, -, earlier⟩ := persisting_of_audited (audited (!last))
  have waiting : ({nas with files}.goto (!last) (.returned (.ok ()))).phase last =
      .audited (snapshot last) := (goto_of_ne ne).trans (audited last)
  obtain ⟨newest, read, later⟩ := persisting_of_audited waiting
  rw [run_append, earlier, later]
  refine ⟨fun task => .inr ?_, rfl, ?_⟩
  · by_cases same : task = last
    · rw [same, goto_self]
    · rw [goto_of_ne same, Bool.eq_not_of_ne same, goto_self]
  · simp only [load, goto, read]
    exact codec.decode_encode _ (readable last)

def sampleSnapshot : Bool → Manifest
  | false => firstSnapshot
  | true => secondSnapshot

theorem sampleSnapshot_readable (task : Bool) : (sampleSnapshot task).Readable := by
  cases task <;> decide +kernel

theorem beginBoth_audited (codec : Codec Symbol) (task : Bool) :
    (run (step codec) emptyNas beginBoth).phase task = .audited (sampleSnapshot task) := by
  cases task <;> rfl

/-- The calls store their snapshots in the order of their changes. -/
theorem inOrder_durable :
    SharedNas.Durable sampleCodec emptyNas
      (beginBoth ++ (SharedNas.persisting false ++ SharedNas.persisting true)) := by
  have returned := (persisting_both sampleCodec (beginBoth_audited sampleCodec)
    sampleSnapshot_readable true).1
  rw [← run_append] at returned
  exact namespace_durable .empty [] rfl _ (by decide +kernel) returned

/-- The second call stores its snapshot before the first one, whatever the serialiser is. -/
theorem namespace_not_durable : ¬ ∃ (Symbol : Type) (codec : Codec Symbol),
    ∀ (files : Replacement Symbol) (log : List AuditRecord) (start : SharedNas Symbol Bool)
      (events : List (ThreadEvent Bool)), SharedNas.openNas codec files log = some start →
        (run (SharedNas.step codec) start events).AllReturned →
          SharedNas.Durable codec start events := by
  rintro ⟨Symbol, codec, durable⟩
  obtain ⟨returned, manifest, older⟩ := persisting_both codec (beginBoth_audited codec)
    sampleSnapshot_readable false
  rw [← run_append] at returned manifest older
  have stored := (durable .empty [] emptyNas _ rfl returned).stored
  rw [manifest] at stored
  have generations : (1 : UInt64) = 2 :=
    congrArg Manifest.generation (some.inj (older.symm.trans stored))
  exact absurd generations (by decide)

end A3Net.Blobstore.Namespace
