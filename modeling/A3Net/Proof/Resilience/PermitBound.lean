import A3Net.Construction.Resilience.Resource
import A3Net.Machine.Run
import A3Net.Machine.Semaphore

namespace A3Net.Resilience

open Machine Function Option

namespace Phase

variable {Key : Type}

def holdsGlobal : Phase Key → Bool
  | .granted _ _ => true
  | .holding _ _ => true
  | .dropping => true
  | _ => false

def holdsKey (sem : Nat) : Phase Key → Bool
  | .keyed _ held _ => held = some sem
  | .granted _ held => held = some sem
  | .holding _ held => held = some sem
  | _ => false

/-- This is the key of an attempt with the semaphore that it uses. -/
def uses : Phase Key → Option (Key × Option Nat)
  | .found key sem _ => some (key, some sem)
  | .keyed key sem _ => some (key, sem)
  | .granted key sem => some (key, sem)
  | .holding key sem => some (key, sem)
  | _ => none

def live : Phase Key → Bool
  | .holding _ _ => true
  | _ => false

def liveFor [DecidableEq Key] (key : Key) : Phase Key → Bool
  | .holding other _ => other = key
  | _ => false

variable {sem : Nat}

theorem holdsKey_uses {phase : Phase Key} (holds : phase.holdsKey sem = true) :
    ∃ key, phase.uses = some (key, some sem) := by
  cases phase with
  | keyed key | granted key | holding key =>
    obtain rfl := of_decide_eq_true holds
    exact ⟨key, rfl⟩
  | _ => cases holds

theorem uses_cases {phase : Phase Key} {key : Key} (used : phase.uses = some (key, some sem)) :
    (∃ waits, phase = .found key sem waits) ∨ phase.holdsKey sem = true := by
  cases phase with
  | idle | dropping => cases used
  | found other held waits =>
    cases used
    exact Or.inl ⟨waits, rfl⟩
  | keyed | granted | holding =>
    cases used
    exact Or.inr (decide_eq_true rfl)

end Phase

/-- An attempt uses the semaphore that its key has. -/
structure Attached {Key : Type} (keys : Key → Option Nat) (limit : Nat) (phase : Phase Key) :
    Prop where
  current : ∀ key sem, phase.uses = some (key, some sem) → keys key = some sem
  named : limit ≠ 0 → ∀ key, phase.uses ≠ some (key, none)

namespace Attached

variable {Key : Type} {keys : Key → Option Nat} {limit : Nat}

theorem of_unused {phase : Phase Key} (unused : phase.uses = none) : Attached keys limit phase where
  current key sem used := by
    rw [unused] at used
    cases used
  named _ key used := by
    rw [unused] at used
    cases used

theorem of_same {first second : Phase Key} (attached : Attached keys limit first)
    (same : first.uses = second.uses) : Attached keys limit second where
  current key sem used := attached.current key sem (same.trans used)
  named limited key used := attached.named limited key (same.trans used)

/-- A live permit belongs to the semaphore that its key has. -/
theorem live [DecidableEq Key] {phase : Phase Key} {key : Key}
    (attached : Attached keys limit phase) (limited : limit ≠ 0)
    (lives : phase.liveFor key = true) :
    ∃ sem, keys key = some sem ∧ phase.holdsKey sem = true := by
  cases phase with
  | holding other held =>
    obtain rfl : other = key := of_decide_eq_true lives
    cases held with
    | none => exact absurd rfl (attached.named limited other)
    | some sem =>
      exact ⟨sem, attached.current other sem rfl, decide_eq_true rfl⟩
  | _ => cases lives

end Attached

namespace ResourceLimiter

variable {Key Task : Type}

/-- When a semaphore is forgotten, no attempt has found it and not yet its permit. -/
def Unobserved (limiter : ResourceLimiter Key Task) : Event Key Task → Prop
  | .reapKey key =>
    ∀ sem, limiter.keys key = some sem →
      limiter.available sem = limiter.config.perKeyLimit →
      ∀ task waits, limiter.phase task ≠ .found key sem waits
  | _ => True

variable [Fintype Task]

/-- The live permits of each key and of all keys are within their limits. -/
structure Bounded [DecidableEq Key] (limiter : ResourceLimiter Key Task) : Prop where
  keys : limiter.config.perKeyLimit ≠ 0 →
    ∀ key, tally limiter.phase (Phase.liveFor key) ≤ limiter.config.perKeyLimit
  all : tally limiter.phase Phase.live ≤ limiter.config.globalLimit

/-- Every permit is free or held, and every attempt uses the semaphore of its key. -/
structure Accounted (limiter : ResourceLimiter Key Task) : Prop where
  global : Settled limiter.config.globalLimit limiter.global limiter.phase Phase.holdsGlobal
  semaphores : ∀ sem < limiter.created, Settled limiter.config.perKeyLimit
    (limiter.available sem) limiter.phase (Phase.holdsKey sem)
  known : ∀ key sem, limiter.keys key = some sem → sem < limiter.created
  attached : ∀ task, Attached limiter.keys limiter.config.perKeyLimit (limiter.phase task)

variable {limiter : ResourceLimiter Key Task}

theorem new_accounted {config : ResourceConfig} :
    (new config : ResourceLimiter Key Task).Accounted where
  global := by
    have none : tally (new config : ResourceLimiter Key Task).phase Phase.holdsGlobal = 0 :=
      tally_eq_zero fun _ => rfl
    rw [Settled, none]
    rfl
  semaphores sem below := absurd below (Nat.not_lt_zero sem)
  known key sem found := by cases found
  attached _ := .of_unused rfl

/-- The accounts bound the live permits. -/
theorem Accounted.bounded [DecidableEq Key] (accounted : limiter.Accounted) : limiter.Bounded where
  keys limited key := by
    cases found : limiter.keys key with
    | none =>
      have none : tally limiter.phase (Phase.liveFor key) = 0 := by
        apply tally_eq_zero
        intro task
        by_contra lives
        obtain ⟨sem, attached, _⟩ := (accounted.attached task).live limited
          (Bool.eq_true_of_not_eq_false lives)
        rw [found] at attached
        cases attached
      rw [none]
      exact Nat.zero_le _
    | some sem =>
      have held := (accounted.semaphores sem (accounted.known key sem found)).tally_le_limit
      refine (tally_le fun task lives => ?_).trans held
      obtain ⟨other, attached, holds⟩ := (accounted.attached task).live limited lives
      rw [found, some.injEq] at attached
      rw [attached]
      exact holds
  all := by
    refine (tally_le fun task lives => ?_).trans accounted.global.tally_le_limit
    cases phase : limiter.phase task with
    | holding key sem => rfl
    | _ =>
      rw [phase] at lives
      cases lives

/-- A new semaphore has all its permits, and no attempt uses its number. -/
theorem keySemaphore_accounted [DecidableEq Key] (accounted : limiter.Accounted) {key : Key} :
    (limiter.keySemaphore key).1.Accounted ∧
      (limiter.keySemaphore key).1.keys key = some (limiter.keySemaphore key).2 := by
  unfold keySemaphore
  cases found : limiter.keys key with
  | some sem => exact ⟨accounted, found⟩
  | none =>
    dsimp only
    refine ⟨⟨accounted.global, fun sem below => ?_, fun other sem named => ?_,
      fun task => ⟨fun other sem used => ?_, (accounted.attached task).named⟩⟩,
      update_self _ _ _⟩
    · show Settled _ (update limiter.available limiter.created _ sem) _ _
      by_cases same : sem = limiter.created
      · have none : tally limiter.phase (Phase.holdsKey limiter.created) = 0 := by
          apply tally_eq_zero
          intro task
          by_contra holds
          obtain ⟨other, used⟩ := Phase.holdsKey_uses (Bool.eq_true_of_not_eq_false holds)
          have current := (accounted.attached task).current other limiter.created used
          exact Nat.lt_irrefl _ (accounted.known other limiter.created current)
        rw [same, update_self, Settled, none]
        rfl
      · rw [update_of_ne same]
        have below : sem < limiter.created + 1 := below
        exact accounted.semaphores sem (by omega)
    · change update limiter.keys key (some limiter.created) other = some sem at named
      show sem < limiter.created + 1
      by_cases same : other = key
      · rw [same, update_self, some.injEq] at named
        omega
      · rw [update_of_ne same] at named
        have known := accounted.known other sem named
        omega
    · have current := (accounted.attached task).current other sem used
      have ne : other ≠ key := by
        intro same
        rw [same, found] at current
        cases current
      show update limiter.keys key (some limiter.created) other = some sem
      rw [update_of_ne ne]
      exact current

theorem reapKey_accounted [DecidableEq Key] (accounted : limiter.Accounted) {key : Key}
    (unobserved : limiter.Unobserved (.reapKey key)) : (limiter.reapKey key).Accounted := by
  unfold reapKey
  split
  · exact accounted
  · split
    · next reaped found =>
      split
      · next full =>
        have settled := accounted.semaphores reaped (accounted.known key reaped found)
        rw [full] at settled
        refine ⟨accounted.global, accounted.semaphores, fun other sem named => ?_,
          fun task => ⟨fun other sem used => ?_, (accounted.attached task).named⟩⟩
        · change update limiter.keys key none other = some sem at named
          by_cases same : other = key
          · rw [same, update_self] at named
            cases named
          · rw [update_of_ne same] at named
            exact accounted.known other sem named
        · -- An attempt at the forgotten semaphore would hold a permit or have just found it.
          have current := (accounted.attached task).current other sem used
          by_cases same : other = key
          · rw [same, found, some.injEq] at current
            rw [same, ← current] at used
            rcases Phase.uses_cases used with ⟨waits, observed⟩ | held
            · exact absurd observed (unobserved reaped found full task waits)
            · rw [settled.holds_none] at held
              cases held
          · show update limiter.keys key none other = some sem
            rw [update_of_ne same]
            exact current
      · exact accounted
    · exact accounted

variable [DecidableEq Task] {task : Task} {next : Phase Key}

section

variable (accounted : limiter.Accounted)
include accounted

/-- One attempt goes on, and the permits stay settled. -/
theorem Accounted.move {free : Nat} {available : Nat → Nat}
    (global : Settled limiter.config.globalLimit free (update limiter.phase task next)
      Phase.holdsGlobal)
    (semaphores : ∀ sem < limiter.created, Settled limiter.config.perKeyLimit
      (available sem) (update limiter.phase task next) (Phase.holdsKey sem))
    (attached : Attached limiter.keys limiter.config.perKeyLimit next) :
    ({limiter with global := free, available := available}.goto task next).Accounted where
  global := global
  semaphores := semaphores
  known := accounted.known
  attached := (forall_update_iff _ fun _ => Attached _ _).mpr
    ⟨attached, fun other _ => accounted.attached other⟩

variable {old : Phase Key}

/-- One attempt goes on with the permits that it has. -/
theorem Accounted.goto (phase : limiter.phase task = old)
    (global : old.holdsGlobal = next.holdsGlobal)
    (keys : ∀ sem, old.holdsKey sem = next.holdsKey sem)
    (attached : Attached limiter.keys limiter.config.perKeyLimit next) :
    (limiter.goto task next).Accounted := by
  subst phase
  exact accounted.move (accounted.global.keep global)
    (fun sem below => (accounted.semaphores sem below).keep (keys sem)) attached

/-- One attempt gives back its permit of a key, if it has one. -/
theorem Accounted.release {held : Option Nat} (phase : limiter.phase task = old)
    (before : ∀ sem, old.holdsKey sem = decide (held = some sem))
    (after : ∀ sem, next.holdsKey sem = false) (global : old.holdsGlobal = next.holdsGlobal)
    (unused : next.uses = none) : ((limiter.releaseKey held).goto task next).Accounted := by
  subst phase
  cases held with
  | none =>
    apply accounted.goto rfl global _ (.of_unused unused)
    intro sem
    rw [before, after]
    rfl
  | some released =>
    refine accounted.move (accounted.global.keep global) (fun sem below => ?_) (.of_unused unused)
    by_cases same : sem = released
    · rw [same, update_self]
      rw [same] at below
      apply (accounted.semaphores released below).give _ (after released)
      rw [before]
      exact decide_eq_true rfl
    · rw [update_of_ne same]
      apply (accounted.semaphores sem below).keep
      rw [before, after]
      exact decide_eq_false fun equal => same (some.inj equal).symm

theorem takeKey_accounted : (limiter.takeKey task).Accounted := by
  unfold takeKey
  split
  · next key found waits phase =>
    split
    · next free =>
      refine accounted.move (accounted.global.keep ?_) (fun sem below => ?_)
        ((accounted.attached task).of_same ?_)
      · rw [phase]
        rfl
      · by_cases same : sem = found
        · rw [same, update_self]
          rw [same] at below
          apply (accounted.semaphores found below).take free
          · rw [phase]
            rfl
          · exact decide_eq_true rfl
        · rw [update_of_ne same]
          apply (accounted.semaphores sem below).keep
          rw [phase]
          exact (decide_eq_false fun equal => same (some.inj equal).symm).symm
      · rw [phase]
        rfl
    · split
      · exact accounted
      · exact accounted.goto phase rfl (fun _ => rfl) (.of_unused rfl)
  · exact accounted

theorem takeGlobal_accounted : (limiter.takeGlobal task).Accounted := by
  unfold takeGlobal
  split
  · next key held waits phase =>
    split
    · next free =>
      -- Both kinds of call now hold the same permits.
      refine accounted.move (accounted.global.take free ?_ ?_) (fun sem below => ?_)
        ((accounted.attached task).of_same ?_)
      · rw [phase]
        rfl
      · cases waits <;> rfl
      · apply (accounted.semaphores sem below).keep
        rw [phase]
        cases waits <;> rfl
      · rw [phase]
        cases waits <;> rfl
    · split
      · exact accounted
      · exact accounted.release phase (fun _ => rfl) (fun _ => rfl) rfl rfl
  · exact accounted

theorem giveUp_accounted : (limiter.giveUp task).Accounted := by
  unfold giveUp
  split
  · next phase => exact accounted.goto phase rfl (fun _ => rfl) (.of_unused rfl)
  · next phase => exact accounted.release phase (fun _ => rfl) (fun _ => rfl) rfl rfl
  · next phase => exact accounted.release phase (fun _ => rfl) (fun _ => rfl) rfl rfl
  · exact accounted

theorem finish_accounted : (limiter.finish task).Accounted := by
  unfold finish
  split
  · next phase =>
    refine accounted.goto phase rfl (fun _ => rfl) ((accounted.attached task).of_same ?_)
    rw [phase]
    rfl
  · exact accounted

theorem dropPermit_accounted : (limiter.dropPermit task).Accounted := by
  unfold dropPermit
  split
  · next phase => exact accounted.release phase (fun _ => rfl) (fun _ => rfl) rfl rfl
  · exact accounted

theorem releaseGlobal_accounted : (limiter.releaseGlobal task).Accounted := by
  unfold releaseGlobal
  split
  · next phase =>
    refine accounted.move (accounted.global.give ?_ rfl) (fun sem below => ?_) (.of_unused rfl)
    · rw [phase]
      rfl
    · apply (accounted.semaphores sem below).keep
      rw [phase]
      rfl
  · exact accounted

end

variable [DecidableEq Key]

theorem begin_accounted (accounted : limiter.Accounted) {key : Key} {waits : Bool} :
    (limiter.begin task key waits).Accounted := by
  unfold begin
  split
  · next phase =>
    split
    · next unlimited =>
      refine accounted.goto phase rfl (fun _ => rfl) ⟨fun other sem used => ?_,
        fun limited => absurd unlimited limited⟩
      cases used
    · next limited =>
      obtain ⟨looked, found⟩ := keySemaphore_accounted accounted
      have idle : (limiter.keySemaphore key).1.phase task = .idle := by
        unfold keySemaphore
        split <;> exact phase
      refine looked.goto idle rfl (fun _ => rfl) ⟨fun other sem used => ?_, fun _ other used => ?_⟩
      · cases used
        exact found
      · cases used
  · exact accounted

theorem step_accounted (limiter : ResourceLimiter Key Task) (event : Event Key Task)
    (accounted : limiter.Accounted) (unobserved : limiter.Unobserved event) :
    (limiter.step event).Accounted := by
  cases event with
  | tryAcquire task key => exact begin_accounted accounted
  | acquire task key => exact begin_accounted accounted
  | takeKey task => exact takeKey_accounted accounted
  | takeGlobal task => exact takeGlobal_accounted accounted
  | giveUp task => exact giveUp_accounted accounted
  | finish task => exact finish_accounted accounted
  | dropPermit task => exact dropPermit_accounted accounted
  | releaseGlobal task => exact releaseGlobal_accounted accounted
  | reapKey key => exact reapKey_accounted accounted unobserved

/-- The limits hold in every run that forgets a semaphore only when no attempt has just found it. -/
theorem permits_bounded (config : ResourceConfig) (events : List (Event Key Task))
    (unobserved : Guarded step Unobserved (new config) events) :
    Always step Bounded (new config : ResourceLimiter Key Task) events := by
  have accounted := Guarded.always step step_accounted (new_accounted) unobserved
  exact fun past short => (accounted past short).bounded

/-- One attempt gets a permit and drops it, and its key is forgotten. -/
def singleAttempt : List (Event String Unit) :=
  [.tryAcquire () "peer", .takeKey (), .takeGlobal (), .dropPermit (), .releaseGlobal (),
    .reapKey "peer"]

theorem singleAttempt_bounded :
    Always step Bounded (new {} : ResourceLimiter String Unit) singleAttempt := by
  apply permits_bounded
  refine ⟨trivial, trivial, trivial, trivial, trivial, fun sem _ _ task waits observed => ?_,
    trivial⟩
  cases observed

/-- A key is forgotten after an attempt has found its semaphore, and another attempt gets a new
one. -/
def reapedSemaphore : List (Event String Bool) :=
  [.tryAcquire true "peer", .reapKey "peer", .takeKey true, .takeGlobal true,
    .tryAcquire false "peer", .takeKey false, .takeGlobal false]

theorem permits_not_bounded :
    ¬ ∀ (config : ResourceConfig) (events : List (Event String Bool)),
      Always step Bounded (new config : ResourceLimiter String Bool) events := by
  intro always
  have final := (always ⟨2, 1⟩ reapedSemaphore).final.keys (by decide) "peer"
  revert final
  decide

end ResourceLimiter
end A3Net.Resilience
