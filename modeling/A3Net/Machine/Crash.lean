/-
This file runs programs on a disk that fail or stop after any of their steps, and gives rules for
what holds at each such point.
-/

import Mathlib.Init

namespace A3Net.Machine

/-- A fault ends a step early, when part of it may be done. -/
structure StepFault (Error : Type) where
  error : Error
  written : Nat := 0

/-- The earlier disks stand with the last first. -/
structure Session (Disk : Type) where
  disk : Disk
  earlier : List Disk := []

namespace Session

variable {Disk : Type}

def disks (session : Session Disk) : List Disk := session.disk :: session.earlier

def visit (change : Disk → Disk) (session : Session Disk) : Session Disk :=
  ⟨change session.disk, session.disks⟩

end Session

/-- What a program did to the disk stays done when the program fails. -/
abbrev Program (Disk Error : Type) := ExceptT Error (StateM (Session Disk))

namespace Program

variable {Disk Error Result Value : Type} (program : Program Disk Error Result)

def execute (session : Session Disk) : Except Error Result × Session Disk :=
  program.run session

/-- One step happens wholly, or it fails and leaves what was done so far. -/
def step (fault : Option (StepFault Error)) (whole : Disk → Disk) (broken : Nat → Disk → Disk) :
    Program Disk Error Unit :=
  match fault with
  | none => modify (Session.visit whole)
  | some fault => do
      modify (Session.visit (broken fault.written))
      throw fault.error

/-- A look at the disk changes nothing. -/
def look (read : Disk → Value) : Program Disk Error Value := do
  return read (← get).disk

/-- The caller goes on with the error in its hands. -/
def attempt : Program Disk Error (Except Error Result) :=
  ExceptT.mk (Except.ok <$> program.run)

/-- The caller does not look whether the program failed. -/
def ignore : Program Disk Error Unit := do
  let _ ← attempt program
  pure ()

theorem execute_bind (first : Program Disk Error Value)
    (next : Value → Program Disk Error Result) (session : Session Disk) :
    execute (first >>= next) session =
      match execute first session with
      | (.ok value, after) => execute (next value) after
      | (.error error, after) => (.error error, after) := by
  unfold execute
  rw [ExceptT.run_bind]
  change StateT.bind _ _ session = _
  unfold StateT.bind
  change (match first.run session with | (result, after) => _) = _
  rcases first.run session with ⟨error | value, after⟩ <;> rfl

/-- From every disk that meets `pre`, each disk on the way meets `crash`, a failure leaves a disk
with `fail`, and a result comes with `post`. -/
def Safe (crash fail pre : Disk → Prop) (program : Program Disk Error Result)
    (post : Result → Disk → Prop) : Prop :=
  ∀ session, pre session.disk →
    (∀ disk ∈ (program.execute session).2.disks, disk ∈ session.disks ∨ crash disk) ∧
      match (program.execute session).1 with
      | .ok result => post result (program.execute session).2.disk
      | .error _ => fail (program.execute session).2.disk

namespace Safe

variable {crash fail pre : Disk → Prop} {post : Result → Disk → Prop}

protected theorem pure {value : Result} (gives : ∀ disk, pre disk → post value disk) :
    Safe crash fail pre (pure value : Program Disk Error Result) post := by
  intro session start
  exact ⟨fun disk member => Or.inl member, gives session.disk start⟩

protected theorem throw {error : Error} (keeps : ∀ disk, pre disk → fail disk) :
    Safe crash fail pre (throw error : Program Disk Error Result) post := by
  intro session start
  exact ⟨fun disk member => Or.inl member, keeps session.disk start⟩

variable {next : Value → Program Disk Error Result}

protected theorem bind (middle : Value → Disk → Prop) {first : Program Disk Error Value}
    (firstSafe : Safe crash fail pre first middle)
    (nextSafe : ∀ value, Safe crash fail (middle value) (next value) post) :
    Safe crash fail pre (first >>= next) post := by
  intro session start
  obtain ⟨passed, outcome⟩ := firstSafe session start
  rw [execute_bind]
  generalize first.execute session = ended at passed outcome
  obtain ⟨error | value, after⟩ := ended
  · exact ⟨passed, outcome⟩
  · obtain ⟨later, result⟩ := nextSafe value after outcome
    refine ⟨?_, result⟩
    intro disk member
    rcases later disk member with before | safe
    · exact passed disk before
    · exact Or.inr safe

protected theorem step {fault : Option (StepFault Error)} {whole : Disk → Disk}
    {broken : Nat → Disk → Disk} {post : Unit → Disk → Prop}
    (does : ∀ disk, pre disk → crash (whole disk) ∧ post () (whole disk))
    (breaks : ∀ disk, pre disk → ∀ stopped, fault = some stopped →
      crash (broken stopped.written disk) ∧ fail (broken stopped.written disk)) :
    Safe crash fail pre (step fault whole broken) post := by
  intro session start
  have passed : ∀ new, crash new → ∀ disk ∈ new :: session.disks,
      disk ∈ session.disks ∨ crash disk := by
    exact fun new safe => List.forall_mem_cons.mpr ⟨Or.inr safe, fun _ => Or.inl⟩
  cases fault with
  | none =>
    obtain ⟨safe, gives⟩ := does session.disk start
    exact ⟨passed _ safe, gives⟩
  | some fault =>
    obtain ⟨safe, fails⟩ := breaks session.disk start fault rfl
    exact ⟨passed _ safe, fails⟩

variable {read : Disk → Value}

/-- What a look saw is still so when the program goes on. -/
theorem look_bind
    (nextSafe : ∀ value, Safe crash fail (fun disk => pre disk ∧ read disk = value) (next value)
      post) : Safe crash fail pre (look read >>= next) post := by
  intro session start
  exact nextSafe (read session.disk) session ⟨start, rfl⟩

/-- A look that can see only one value goes on with it. -/
theorem look_known {value : Value} (known : ∀ disk, pre disk → read disk = value)
    (nextSafe : Safe crash fail pre (next value)
      post) : Safe crash fail pre (look read >>= next) post := by
  apply look_bind
  intro saw session start
  rw [← start.2, known session.disk start.1]
  exact nextSafe session start.1

variable {fail' : Disk → Prop}

/-- A caller that looks at the error knows what holds after a failure. -/
protected theorem attempt {program : Program Disk Error Result}
    (safe : Safe crash fail pre program post) :
    Safe crash fail' pre (attempt program) fun outcome disk =>
      match outcome with
      | .ok result => post result disk
      | .error _ => fail disk := by
  intro session start
  obtain ⟨passed, outcome⟩ := safe session start
  exact ⟨passed, outcome⟩

protected theorem ignore {program : Program Disk Error Result} {after : Disk → Prop}
    (safe : Safe crash fail pre program post) (ended : ∀ result disk, post result disk → after disk)
    (failed : ∀ disk, fail disk → after disk) :
    Safe crash fail' pre (ignore program) fun _ => after := by
  apply Safe.bind _ safe.attempt
  intro outcome
  apply Safe.pure
  intro disk held
  cases outcome with
  | error error => exact failed disk held
  | ok result => exact ended result disk held

variable {program} {pre' : Disk → Prop}

section

variable (safe : Safe crash fail pre program post) (before : ∀ disk, pre' disk → pre disk)
include safe before

theorem weaken {crash' : Disk → Prop} {post' : Result → Disk → Prop}
    (during : ∀ disk, crash disk → crash' disk) (failed : ∀ disk, fail disk → fail' disk)
    (after : ∀ result disk, post result disk → post' result disk) :
    Safe crash' fail' pre' program post' := by
  intro session start
  obtain ⟨passed, outcome⟩ := safe session (before session.disk start)
  refine ⟨fun disk member => (passed disk member).imp_right (during disk), ?_⟩
  generalize program.execute session = ended at outcome
  obtain ⟨error | value, after'⟩ := ended
  · exact failed _ outcome
  · exact after value _ outcome

theorem from_pre : Safe crash fail pre' program post :=
  fun session start => safe session (before session.disk start)

end

/-- What cannot be true at the start needs no care. -/
theorem of_false (never : ∀ disk, ¬ pre disk) : Safe crash fail pre program post :=
  fun session start => absurd start (never session.disk)

/-- The disk at the start can be named. -/
theorem of_each (safe : ∀ start, pre start → Safe crash fail (· = start) program post) :
    Safe crash fail pre program post :=
  fun session start => safe session.disk start session rfl

end Safe

end Program
end A3Net.Machine
