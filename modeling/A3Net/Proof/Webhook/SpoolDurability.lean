/-
A drain that leaves no entry does not write the file, so the finished entries stay there.
-/

import A3Net.Machine.Run
import A3Net.Proof.Webhook.DeliverySteps

namespace A3Net.Webhook

open Machine List World

variable {Line : Type} (env : Environment Line)

/-- A restart opens the spool again, perhaps with other settings. -/
inductive SinkEvent where
  | deliver (call : Call)
  | restart (endpoints : List EndpointConfig) (maxAttempts : UInt32) (handler : Bool)

variable (world : World Line) (endpoints : List EndpointConfig)

def reopen (maxAttempts : UInt32) (handler : Bool) : World Line :=
  match withOptions env endpoints (some world.file) maxAttempts with
  | .ok sink => {world with sink := setDroppedHandler sink handler}
  | .error _ => world

def step : SinkEvent → World Line
  | .deliver call => (deliver env world call).2
  | .restart endpoints maxAttempts handler => reopen env world endpoints maxAttempts handler

/-- The sink starts without a spool file. -/
def startWorld (maxAttempts : UInt32) (handler : Bool) :
    World Line :=
  reopen env {sink := {endpoints := [], spool := none, maxAttempts := 1}} endpoints
    maxAttempts handler

/-- The entries are the pairs that failed and were not accepted, rejected or dropped since. -/
def Outstanding (entries : List SpoolEntry) : Prop :=
  ∀ pair, (entries.map SpoolEntry.pair).count pair + world.finished.count pair =
    world.failed.count pair

/-- The spool file can be opened and has exactly the outstanding pairs. -/
def Recovers : Prop :=
  ∃ entries, openSpool env world.file = .ok entries ∧ Outstanding world entries

/-- A delivery has nothing to retry, or one of its retries leaves an entry. -/
def LeavesEntry : SinkEvent → Prop
  | .deliver call => ∀ body pending, env.encode call.event = .ok body →
      world.sink.spool = some pending →
        drained world call body pending = [] ∨
          survivors world.sink call (drained world call body pending) ≠ []
  | .restart _ _ _ => True

variable {env}

theorem openSpool_getD (file : Option (List Line)) :
    openSpool env file = openSpool env (some (file.getD [])) := by
  cases file <;> rfl

/-- Printed entries are read back after the lines that are there. -/
theorem openSpool_append {lines : List Line} {entries : List SpoolEntry}
    (opened : openSpool env (some lines) = .ok entries) (new : List SpoolEntry) :
    openSpool env (some (lines ++ new.map env.lines.encode)) = .ok (entries ++ new) := by
  have printed : (new.map env.lines.encode).filter (fun line => !env.lines.blank line) =
      new.map env.lines.encode := by
    apply filter_eq_self.mpr
    intro line member
    obtain ⟨entry, _, rfl⟩ := mem_map.mp member
    rw [env.lines.visible]
    rfl
  have read : (new.map env.lines.encode).mapM (fun line =>
      (env.lines.decode line).mapError WebhookError.spoolParse) = .ok new := by
    rw [mapM_map]
    have each : (fun line => (env.lines.decode line).mapError WebhookError.spoolParse) ∘
        env.lines.encode = fun entry => pure entry := by
      funext entry
      rw [Function.comp_apply, env.lines.decode_encode _ trivial]
      rfl
    rw [each, mapM_pure, map_id']
    rfl
  unfold openSpool at opened ⊢
  dsimp only at opened ⊢
  rw [filter_append, printed, mapM_append, opened, read]
  rfl

theorem openSpool_printed (entries : List SpoolEntry) :
    openSpool env (some (entries.map env.lines.encode)) = .ok entries :=
  @openSpool_append Line env [] [] rfl entries

/-- Each retried entry survives or leaves. -/
theorem count_survivors (sink : WebhookSink) (call : Call) (index : Nat)
    (entries : List SpoolEntry) (pair : Pair) :
    ((retryEach (fun entry result => (survivor sink entry result).toList) call index
        entries).map SpoolEntry.pair).count pair +
      (retryEach (leaving sink) call index entries).count pair =
        (entries.map SpoolEntry.pair).count pair := by
  induction entries generalizing index with
  | nil => rfl
  | cons entry rest ih =>
    have later := ih (index + 1)
    have one : ((survivor sink entry (call.again index)).toList.map SpoolEntry.pair).count pair +
        (leaving sink entry (call.again index)).count pair = [entry.pair].count pair := by
      unfold leaving
      cases stays : survivor sink entry (call.again index) with
      | none => simp
      | some kept => simp [survivor_pair stays]
    have split : ((entry :: rest).map SpoolEntry.pair).count pair =
        [entry.pair].count pair + (rest.map SpoolEntry.pair).count pair := by
      rw [← count_append]
      rfl
    unfold retryEach
    rw [map_append, count_append, count_append, split, ← one, ← later]
    omega

/-- When no entry survives, all of them leave. -/
theorem count_leaving {sink : WebhookSink} {call : Call} {entries : List SpoolEntry}
    (gone : survivors sink call entries = []) (pair : Pair) :
    (retryEach (leaving sink) call 0 entries).count pair =
      (entries.map SpoolEntry.pair).count pair := by
  have counted := count_survivors sink call 0 entries pair
  change ((survivors sink call entries).map SpoolEntry.pair).count pair + _ = _ at counted
  rw [gone, map_nil, count_nil, Nat.zero_add] at counted
  exact counted

/-- The memory has exactly the outstanding pairs. -/
def InStep (world : World Line) : Prop :=
  ∃ pending, world.sink.spool = some pending ∧ Outstanding world pending

variable {world}

theorem deliver_inStep (inStep : InStep world) {call : Call} :
    InStep (deliver env world call).2 := by
  obtain ⟨pending, spool, outstanding⟩ := inStep
  cases encoded : env.encode call.event with
  | error text =>
    rw [deliver_unencoded encoded]
    exact ⟨pending, spool, outstanding⟩
  | ok body =>
    obtain ⟨grows, memory, _⟩ := @deliver_grows Line env world call body encoded
    rw [toRetry_some spool] at grows memory
    rw [spool, Option.map_some] at memory
    refine ⟨_, memory, fun pair => ?_⟩
    have counted := count_survivors world.sink call 0 (drained world call body pending) pair
    have before := outstanding pair
    rw [grows.completed, grows.failures, count_append, count_append]
    rw [drained, map_append, count_append] at counted
    unfold survivors drained
    omega

theorem leavesEntry_deliver_iff {call : Call} {body : Bytes} {pending : List SpoolEntry}
    (encoded : env.encode call.event = .ok body) (spool : world.sink.spool = some pending) :
    LeavesEntry env world (.deliver call) ↔
      drained world call body pending = [] ∨
        survivors world.sink call (drained world call body pending) ≠ [] := by
  constructor
  · exact fun leaves => leaves body pending encoded spool
  · intro leaves other found same there
    rw [encoded] at same
    rw [spool] at there
    cases same
    cases there
    exact leaves

/-- A delivery keeps the file right exactly when it has nothing to retry or leaves an entry. -/
theorem deliver_recovers_iff (inStep : InStep world) (recovers : Recovers env world) {call : Call} :
    Recovers env (deliver env world call).2 ↔ LeavesEntry env world (.deliver call) := by
  obtain ⟨pending, spool, outstanding⟩ := inStep
  obtain ⟨entries, opened, listed⟩ := recovers
  cases encoded : env.encode call.event with
  | error text =>
    rw [deliver_unencoded encoded]
    constructor
    · intro _ body other same
      rw [encoded] at same
      cases same
    · exact fun _ => ⟨entries, opened, listed⟩
  | ok body =>
    obtain ⟨grows, memory, file⟩ := @deliver_grows Line env world call body encoded
    rw [toRetry_some spool] at grows memory file
    rw [attempted_spools.lines (by rw [spool]; rfl)] at file
    rw [spool, Option.map_some] at memory
    obtain ⟨kept, keptSpool, inStep⟩ :=
      @deliver_inStep Line env world ⟨pending, spool, outstanding⟩ call
    rw [leavesEntry_deliver_iff encoded spool]
    unfold Recovers
    rw [openSpool_getD, file]
    split_ifs with gone
    · -- The file has the lines of all retried entries, and none of them is outstanding.
      rw [openSpool_getD] at opened
      rw [openSpool_append opened]
      have exact_ : ∀ pair, (((entries ++ spooled call body 0 world.sink.endpoints).map
          SpoolEntry.pair).count pair + (deliver env world call).2.finished.count pair =
            (deliver env world call).2.failed.count pair) ↔
          ((drained world call body pending).map SpoolEntry.pair).count pair = 0 := by
        intro pair
        have before := listed pair
        rw [grows.completed, grows.failures, map_append, count_append,
          count_append, count_append, count_leaving gone]
        omega
      constructor
      · rintro ⟨read, same, holds⟩
        cases same
        left
        rw [← map_eq_nil_iff, eq_nil_iff_forall_not_mem]
        exact fun pair => count_eq_zero.mp ((exact_ pair).mp (holds pair))
      · rintro (nothing | survives)
        · refine ⟨_, rfl, fun pair => (exact_ pair).mpr ?_⟩
          rw [nothing]
          rfl
        · exact absurd gone survives
    · rw [openSpool_printed]
      rw [memory] at keptSpool
      cases keptSpool
      exact ⟨fun _ => Or.inr gone, fun _ => ⟨_, rfl, inStep⟩⟩

/-- After a restart the memory has what the file has. -/
theorem reopen_recovers (recovers : Recovers env world) {endpoints : List EndpointConfig}
    {maxAttempts : UInt32} {handler : Bool} :
    InStep (reopen env world endpoints maxAttempts handler) ∧
      Recovers env (reopen env world endpoints maxAttempts handler) := by
  obtain ⟨entries, opened, outstanding⟩ := recovers
  have sink : withOptions env endpoints (some world.file) maxAttempts =
      .ok {endpoints, spool := some entries, maxAttempts := max maxAttempts 1} := by
    unfold withOptions
    rw [Option.mapM_some, opened]
    rfl
  rw [reopen, sink]
  exact ⟨⟨entries, rfl, outstanding⟩, entries, opened, outstanding⟩

theorem startWorld_recovers (endpoints : List EndpointConfig) (maxAttempts : UInt32)
    (handler : Bool) :
    InStep (startWorld env endpoints maxAttempts handler) ∧
      Recovers env (startWorld env endpoints maxAttempts handler) :=
  reopen_recovers ⟨[], rfl, fun _ => rfl⟩

/-- After each event of a run the spool file has exactly the outstanding pairs, if and only if each
delivery has nothing to retry or leaves an entry. -/
theorem spool_durable_iff (endpoints : List EndpointConfig) (maxAttempts : UInt32) (handler : Bool)
    (events : List SinkEvent) :
    Always (step env) (Recovers env)
        (startWorld env endpoints maxAttempts handler) events ↔
      Guarded (step env) (LeavesEntry env)
        (startWorld env endpoints maxAttempts handler) events := by
  obtain ⟨inStep, recovers⟩ := @startWorld_recovers Line env endpoints maxAttempts handler
  apply always_iff_guarded_of (step env) InStep
  · intro world event inStep recovers _
    cases event with
    | deliver call => exact deliver_recovers_iff inStep recovers
    | restart endpoints maxAttempts handler =>
      exact ⟨fun _ => trivial, fun _ => (reopen_recovers recovers).2⟩
  · intro world event inStep recovers _ _
    cases event with
    | deliver call => exact deliver_inStep inStep
    | restart endpoints maxAttempts handler => exact (reopen_recovers recovers).1
  · exact inStep
  · exact recovers
  · exact guarded_true (step env) _ events

/-- The first post fails, and the retry in the same call is accepted. -/
def recoveredCall : Call where
  event := sampleEvent "first"
  deliveryId := "first"
  first _ := .ok .failed
  again _ := .ok .accepted

/-- The accepted delivery is still in the spool file, so a restart sends it again. -/
theorem spool_not_durable :
    ¬ Always (step sampleEnvironment) (Recovers sampleEnvironment)
      (startWorld sampleEnvironment [sampleEndpoint] 5 true) [.deliver recoveredCall] := by
  intro always
  have last : Recovers sampleEnvironment (deliver sampleEnvironment
      (startWorld sampleEnvironment [sampleEndpoint] 5 true) recoveredCall).2 := always.final
  obtain ⟨inStep, recovers⟩ := @startWorld_recovers _ sampleEnvironment [sampleEndpoint] 5 true
  have leaves := (deliver_recovers_iff inStep recovers).mp last _ [] rfl rfl
  revert leaves
  decide +kernel

end A3Net.Webhook
