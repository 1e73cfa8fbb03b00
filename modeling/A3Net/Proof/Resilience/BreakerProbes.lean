import A3Net.Construction.Resilience.CircuitBreaker

namespace A3Net.Resilience

open Machine CircuitBreaker

variable (config : CircuitBreakerConfig) (asked recorded : Nat → Nat) (inner : Inner)

/-- The caller asks in each round and records a success when it is allowed. The allowed requests
are counted. -/
def attempts : Nat → Nat × Inner
  | 0 => (0, inner)
  | round + 1 =>
    let (count, before) := attempts round
    match allowRequest config (asked round) before with
    | (true, allowed) => (count + 1, recordSuccess config (recorded round) allowed)
    | (false, refused) => (count, refused)

/-- The breaker closes within as many allowed requests as the threshold. -/
def Recovers : Prop :=
  ∃ rounds, (attempts config asked recorded inner rounds).2.state = .closed ∧
    (attempts config asked recorded inner rounds).1 ≤ config.successThreshold

/-- The calls of any callers lead a new breaker to this state. -/
def Reachable : Prop :=
  ∃ created events, (run (BreakerCalls.step config) (.new created) events).inner = inner

variable {config asked inner}

section

variable (opened : inner.state = .opened) (waited : config.timeout ≤ elapsed inner (asked 0))
include opened waited

theorem attempts_one :
    attempts config asked recorded inner 1 =
      (1, recordSuccess config (recorded 0) {inner with state := .halfOpen, successes := 0}) := by
  have allowed : allowRequest config (asked 0) inner =
      (true, {inner with state := .halfOpen, successes := 0}) := by
    rw [allowRequest, opened]
    exact if_pos waited
  rw [attempts, attempts]
  dsimp only
  rw [allowed]

/-- After the first success of several the breaker refuses every request. -/
theorem attempts_stuck (several : 2 ≤ config.successThreshold) (round : Nat) :
    attempts config asked recorded inner (round + 1) =
      (1, {inner with state := .halfOpen, successes := 1}) := by
  induction round with
  | zero =>
    rw [attempts_one recorded opened waited]
    simp only [recordSuccess, if_neg (Nat.not_le.mpr several)]
  | succ round ih =>
    rw [attempts, ih]
    rfl

end

/-- An open breaker recovers within the threshold exactly when one success is enough. -/
theorem recovers_iff (opened : inner.state = .opened)
    (waited : config.timeout ≤ elapsed inner (asked 0)) (positive : 1 ≤ config.successThreshold) :
    Recovers config asked recorded inner ↔ config.successThreshold = 1 := by
  constructor
  · rintro ⟨_ | round, closed, -⟩
    · rw [attempts, opened] at closed
      cases closed
    · by_contra several
      rw [attempts_stuck recorded opened waited (by omega)] at closed
      cases closed
  · intro one
    refine ⟨1, ?_⟩
    rw [attempts_one recorded opened waited]
    simp [recordSuccess, one]

theorem recovers_after_failure :
    Recovers {successThreshold := 1} (fun _ => 60000000000) id
      {state := .opened, windowStart := 0, openedAt := some 0} ↔ 1 = 1 :=
  recovers_iff id rfl (by decide) (by decide)

/-- A minute after five failures a caller succeeds whenever it is allowed. -/
theorem default_stuck :
    ¬ ∀ config inner, 1 ≤ config.successThreshold → Reachable config inner →
      inner.state = .opened → ∀ asked recorded, config.timeout ≤ elapsed inner (asked 0) →
        Recovers config asked recorded inner := by
  intro recovers
  obtain ⟨rounds, closed, -⟩ := recovers {} _ (by decide)
    ⟨0, List.replicate 5 (.recordFailure 0 0 0 0), rfl⟩ (by decide) (fun _ => 60 * 10 ^ 9) id
    (by decide)
  cases rounds with
  | zero =>
    revert closed
    decide
  | succ round =>
    rw [attempts_stuck id (by decide) (by decide) (by decide)] at closed
    cases closed

variable (config) (calls : BreakerCalls)

/-- At most one allowed request is outstanding in the half-open state. -/
def SingleProbe : Prop :=
  calls.inner.state = .halfOpen → calls.outstanding.length ≤ 1

/-- Nobody asks an open breaker past its timeout, or a half-open one without a success, while a
request is outstanding. -/
def Alone : BreakerCall → Prop
  | .allowRequest _ now =>
    calls.inner.state = .opened ∧ config.timeout ≤ elapsed calls.inner now ∨
      calls.inner.state = .halfOpen ∧ calls.inner.successes = 0 → calls.outstanding = []
  | _ => True

/-- A failure never leads to the half-open state. -/
theorem recordFailure_state {measured restarted opening : Nat} (inner : Inner) :
    (recordFailure config measured restarted opening inner).state ≠ .halfOpen := by
  unfold recordFailure
  cases found : inner.state with
  | closed =>
    dsimp only
    split_ifs <;> simp [found]
  | opened => simp [found]
  | halfOpen => simp

/-- A success leads to the half-open state only from there. -/
theorem recordSuccess_state {now : Nat} {inner : Inner}
    (half : (recordSuccess config now inner).state = .halfOpen) : inner.state = .halfOpen := by
  revert half
  fun_cases recordSuccess config now inner with
  | case1 found | case2 found => exact fun _ => found
  | case3 found | case4 found =>
    rw [found]
    rintro ⟨⟩

/-- One call keeps the bound exactly when it asks for no second probe. -/
theorem step_singleProbe (event : BreakerCall) (single : SingleProbe calls) :
    SingleProbe (calls.step config event) ↔ Alone config calls event := by
  cases event with
  | recordSuccess caller now =>
    refine ⟨fun _ => trivial, fun _ half => List.erase_sublist.length_le.trans ?_⟩
    exact single (recordSuccess_state config half)
  | recordFailure caller measured restarted opening =>
    exact ⟨fun _ => trivial, fun _ half => absurd half (recordFailure_state config _)⟩
  | allowRequest caller now =>
    dsimp only [BreakerCalls.step, SingleProbe, Alone]
    fun_cases allowRequest config now calls.inner with
    | case1 found => simp [found]
    | case2 found waited | case3 found waited => simp [found, waited]
    | case4 found =>
      by_cases first : calls.inner.successes = 0
      · simp [found, first]
      · simp [found, first, single found]

/-- At most one allowed request is outstanding in every half-open state of a run exactly when the
callers themselves never ask for a second one. -/
theorem singleProbe_iff (created : Nat) (events : List BreakerCall) :
    Always (BreakerCalls.step config) SingleProbe (.new created) events ↔
      Guarded (BreakerCalls.step config) (Alone config) (.new created) events :=
  always_iff_guarded _ (step_singleProbe config) (by rintro ⟨⟩)

/-- Two callers ask a minute after the fifth failure, and both are allowed. -/
theorem default_two_probes :
    ¬ ∀ (config : CircuitBreakerConfig) (created : Nat) (events : List BreakerCall),
      Always (BreakerCalls.step config) SingleProbe (.new created) events := by
  intro single
  have bound := (single {} 0 (List.replicate 5 (.recordFailure 0 0 0 0) ++
    [.allowRequest 1 (60 * 10 ^ 9), .allowRequest 2 (60 * 10 ^ 9)])).final
  revert bound
  unfold SingleProbe
  decide

end A3Net.Resilience
