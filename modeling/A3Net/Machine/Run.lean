import Mathlib.Data.List.Infix

namespace A3Net.Machine

open List

variable {State Event : Type*} (step : State → Event → State)

/-- The machine takes its events from left to right. -/
def run (state : State) (events : List Event) : State := events.foldl step state

variable (state : State) (property : State → Prop)

@[simp] theorem run_nil : run step state [] = state := rfl

@[simp] theorem run_cons (event : Event) (rest : List Event) :
    run step state (event :: rest) = run step (step state event) rest := rfl

theorem run_append (first second : List Event) :
    run step state (first ++ second) = run step (run step state first) second :=
  foldl_append

/-- A property holds always when every prefix of the events reaches a state with it. -/
def Always (property : State → Prop) (state : State) (events : List Event) : Prop :=
  ∀ past, past <+: events → property (run step state past)

/-- A condition guards a run when each event meets it in the state that the event finds. -/
def Guarded (condition : State → Event → Prop) : State → List Event → Prop
  | _, [] => True
  | state, event :: rest => condition state event ∧ Guarded condition (step state event) rest

instance decidableGuarded (condition : State → Event → Prop)
    [∀ state event, Decidable (condition state event)] (state : State) (events : List Event) :
    Decidable (Guarded step condition state events) :=
  match events with
  | [] => isTrue trivial
  | event :: rest =>
    have := decidableGuarded condition (step state event) rest
    inferInstanceAs (Decidable (_ ∧ _))

theorem always_nil {state : State} : Always step property state [] ↔ property state := by
  constructor
  · intro always
    exact always [] (prefix_refl [])
  · intro holds past short
    rw [prefix_nil.mp short]
    exact holds

theorem always_cons {state : State} {event : Event} {rest : List Event} :
    Always step property state (event :: rest) ↔
      property state ∧ Always step property (step state event) rest := by
  constructor
  · intro always
    refine ⟨always [] ( nil_prefix), fun past short => ?_⟩
    exact always (event :: past) (cons_prefix_cons.mpr ⟨rfl, short⟩)
  · rintro ⟨first, later⟩ past short
    cases past with
    | nil => exact first
    | cons head past =>
      obtain ⟨rfl, shorter⟩ := cons_prefix_cons.mp short
      exact later past shorter

variable {condition : State → Event → Prop} {state} (invariant : State → Prop) {property}
  {events : List Event}

/-- The last state of a run is one of its states. -/
theorem Always.final (always : Always step property state events) :
    property (run step state events) :=
  always events (prefix_refl events)

/-- An invariant that each guarded event keeps holds along every guarded run. -/
theorem Guarded.always {invariant : State → Prop}
    (keeps : ∀ state event, invariant state → condition state event →
      invariant (step state event)) (start : invariant state)
    (guarded : Guarded step condition state events) : Always step invariant state events := by
  induction events generalizing state with
  | nil => exact (always_nil step invariant).mpr start
  | cons event rest ih =>
    obtain ⟨first, later⟩ := guarded
    exact (always_cons step invariant).mpr ⟨start, ih (keeps state event start first) later⟩

variable {assumption : State → Event → Prop}

/-- When each event keeps the property exactly under the condition, a whole run does so too. The
invariant and the assumption may help at each event. -/
theorem always_iff_guarded_of
    (stepExact : ∀ state event, invariant state → property state → assumption state event →
      (property (step state event) ↔ condition state event))
    (keeps : ∀ state event, invariant state → property state → assumption state event →
      condition state event → invariant (step state event)) (start : invariant state)
    (holds : property state) (assumed : Guarded step assumption state events) :
    Always step property state events ↔ Guarded step condition state events := by
  induction events generalizing state with
  | nil =>
    rw [always_nil]
    exact ⟨fun _ => trivial, fun _ => holds⟩
  | cons event rest ih =>
    obtain ⟨first, later⟩ := assumed
    have exact_ := stepExact state event start holds first
    rw [always_cons]
    constructor
    · rintro ⟨_, always⟩
      have next : property (step state event) := always [] nil_prefix
      have meets := exact_.mp next
      exact ⟨meets, (ih (keeps state event start holds first meets) next later).mp always⟩
    · rintro ⟨meets, guarded⟩
      have next := exact_.mpr meets
      exact ⟨holds, (ih (keeps state event start holds first meets) next later).mpr guarded⟩

/-- An invariant of every event guards a run when it gives the condition of its events. -/
theorem guarded_of_invariant
    (meets : ∀ state, ∀ event ∈ events, invariant state → condition state event)
    (keeps : ∀ state event, invariant state → invariant (step state event))
    (start : invariant state) : Guarded step condition state events := by
  induction events generalizing state with
  | nil => trivial
  | cons event rest ih =>
    refine ⟨meets state event mem_cons_self start, ?_⟩
    apply ih
    · exact fun state event member => meets state event (mem_cons_of_mem _ member)
    · exact keeps state event start

theorem guarded_true (state : State) (events : List Event) :
    Guarded step (fun _ _ => True) state events := by
  induction events generalizing state with
  | nil => trivial
  | cons event rest ih => exact ⟨trivial, ih (step state event)⟩

/-- Two conditions that agree at every event guard the same runs. The invariant and the assumption
may help at each event. -/
theorem guarded_congr_of {first second : State → Event → Prop}
    (agree : ∀ state event, invariant state → assumption state event →
      (first state event ↔ second state event))
    (keeps : ∀ state event, invariant state → assumption state event → second state event →
      invariant (step state event)) (start : invariant state)
    (assumed : Guarded step assumption state events) :
    Guarded step first state events ↔ Guarded step second state events := by
  induction events generalizing state with
  | nil => exact Iff.rfl
  | cons event rest ih =>
    obtain ⟨now, later⟩ := assumed
    have same := agree state event start now
    constructor
    · rintro ⟨holds, guarded⟩
      have meets := same.mp holds
      exact ⟨meets, (ih (keeps state event start now meets) later).mp guarded⟩
    · rintro ⟨meets, guarded⟩
      exact ⟨same.mpr meets, (ih (keeps state event start now meets) later).mpr guarded⟩

theorem guarded_congr {first second : State → Event → Prop}
    (agree : ∀ state event, first state event ↔ second state event) (state : State)
    (events : List Event) :
    Guarded step first state events ↔ Guarded step second state events :=
  guarded_congr_of step (fun _ => True) (fun state event _ _ => agree state event)
    (fun _ _ _ _ _ => trivial) trivial (guarded_true step state events)

/-- When one event keeps the property exactly under the condition, a whole run does so too. -/
theorem always_iff_guarded (stepExact : ∀ state event, property state →
      (property (step state event) ↔ condition state event)) (start : property state) :
    Always step property state events ↔ Guarded step condition state events := by
  exact always_iff_guarded_of step (fun _ => True)
    (fun state event _ holds _ => stepExact state event holds)
    (fun _ _ _ _ _ _ => trivial) trivial start (guarded_true step state events)

section Simulation

variable {State Other Event Answer : Type*}

/-- The machine answers each event. -/
def answers (step : State → Event → State × Answer) : State → List Event → List Answer
  | _, [] => []
  | state, event :: rest => (step state event).2 :: answers step (step state event).1 rest

/-- Both machines take the event. -/
def together (first : State → Event → State × Answer) (second : Other → Event → Other × Answer)
    (states : State × Other) (event : Event) : State × Other :=
  ((first states.1 event).1, (second states.2 event).1)

/-- Two machines give the same answers in a run when each guarded event keeps their states related
and gets one answer from both. -/
theorem answers_eq {first : State → Event → State × Answer}
    {second : Other → Event → Other × Answer} {condition : State × Other → Event → Prop}
    {related : State × Other → Prop}
    (agrees : ∀ states event, related states → condition states event →
      (first states.1 event).2 = (second states.2 event).2 ∧
        related (together first second states event))
    {states : State × Other} {events : List Event} (start : related states)
    (guarded : Guarded (together first second) condition states events) :
    answers first states.1 events = answers second states.2 events := by
  induction events generalizing states with
  | nil => rfl
  | cons event rest ih =>
    obtain ⟨meets, later⟩ := guarded
    obtain ⟨same, next⟩ := agrees states event start meets
    rw [answers, answers, same]
    exact congrArg _ (ih next later)

end Simulation

end A3Net.Machine
