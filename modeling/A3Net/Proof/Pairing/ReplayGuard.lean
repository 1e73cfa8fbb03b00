/-
The guard forgets its nonces whenever the store is opened.
-/

import A3Net.Proof.Pairing.Revocation

namespace A3Net.Pairing

open Machine Session List Option

/-- A nonce was accepted at a time, after the store had been opened so many times. -/
structure NonceAcceptance where
  nonce : Nonce32
  time : Nat
  opening : Nat

/-- The acceptances stand with the newest first, and the clock is at the last check. -/
structure GuardedSession (Line : Type) where
  session : Session Line
  accepted : List NonceAcceptance
  opening : Nat
  clock : Nat

namespace GuardedSession

variable {Line : Type} (env : Environment Line) (config : TrustedDeviceStoreConfig)

/-- A store that was just opened has seen no nonce. -/
def start (records : DeviceTable) (disk : Disk Line) : GuardedSession Line :=
  ⟨⟨⟨records, ∅⟩, disk⟩, [], 0, 0⟩

def step (guard : GuardedSession Line) (call : StoreCall) : GuardedSession Line :=
  let (result, session) := guard.session.serve env config call
  match call, result with
  | .checkAndRecordNonce nonce _ now, some (.ok ()) =>
    ⟨session, ⟨nonce, now, guard.opening⟩ :: guard.accepted, guard.opening, now⟩
  | .checkAndRecordNonce _ _ now, _ => ⟨session, guard.accepted, guard.opening, now⟩
  | .reopen _, some (.ok ()) => ⟨session, guard.accepted, guard.opening + 1, guard.clock⟩
  | _, _ => {guard with session}

variable (ttl : Int64) (guard : GuardedSession Line)

/-- A nonce is accepted again only when the time to live has passed. -/
def Spaced : Prop :=
  guard.accepted.Pairwise fun later earlier =>
    later.nonce = earlier.nonce → (earlier.time : Int) + ttl.toInt ≤ later.time

/-- The checks have one time to live and follow the clock. -/
def Timely : StoreCall → Prop
  | .checkAndRecordNonce _ life now => life = ttl ∧ guard.clock ≤ now
  | _ => True

/-- A nonce whose time to live has not passed was accepted since the store was opened. -/
def Remembered : StoreCall → Prop
  | .checkAndRecordNonce nonce _ now => ∀ old ∈ guard.accepted, old.nonce = nonce →
      (now : Int) < old.time + ttl.toInt → old.opening = guard.opening
  | _ => True

/-- The guard knows the acceptances since the store was opened, unless their time has passed. -/
structure Faithful (guard : GuardedSession Line) : Prop where
  past : ∀ old ∈ guard.accepted, old.time ≤ guard.clock
  recorded : ∀ nonce time, guard.session.store.seenNonces.lookup nonce = some time →
    ⟨nonce, time, guard.opening⟩ ∈ guard.accepted
  newest : ∀ nonce time, guard.session.store.seenNonces.lookup nonce = some time →
    ∀ old ∈ guard.accepted, old.nonce = nonce → old.time ≤ time
  opened : ∀ old ∈ guard.accepted, old.opening ≤ guard.opening
  known : ∀ old ∈ guard.accepted, old.opening = guard.opening →
    (∃ time, guard.session.store.seenNonces.lookup old.nonce = some time ∧ old.time ≤ time) ∨
      (old.time : Int) + ttl.toInt ≤ guard.clock

end GuardedSession

variable {Line : Type} {env : Environment Line} {config : TrustedDeviceStoreConfig}
  (session : Session Line)

theorem Session.commitBumped_seenNonces {record : TrustedDeviceRecord} {how : Flush} :
    (session.commitBumped env config record how).2.store.seenNonces = session.store.seenNonces := by
  unfold commitBumped
  split <;> rfl

variable {call : StoreCall}

/-- Only the checks and the openings of the store reach the guard. -/
theorem Session.serve_seenNonces
    (check : ∀ nonce ttl now, call ≠ .checkAndRecordNonce nonce ttl now)
    (reopen : ∀ fault, call ≠ .reopen fault) :
    (session.serve env config call).2.store.seenNonces = session.store.seenNonces := by
  cases call with
  | insert record how =>
    simp only [serve, insert]
    split <;> rfl
  | revoke id now how =>
    simp only [serve, revoke]
    split
    · rfl
    · exact session.commitBumped_seenNonces
  | updateCapabilities id caps how =>
    simp only [serve, updateCapabilities]
    split
    · rfl
    · split
      · rfl
      · exact session.commitBumped_seenNonces
  | touch id now how =>
    simp only [serve, touch]
    split
    · rfl
    · exact session.commitBumped_seenNonces
  | remove id how => rfl
  | checkAndRecordNonce nonce ttl now => exact absurd rfl (check nonce ttl now)
  | reopen fault => exact absurd rfl (reopen fault)

theorem Session.reopen_cases (env : Environment Line) (config : TrustedDeviceStoreConfig)
    (session : Session Line) (fault : Option OpenFault) :
    (∃ error, session.reopen env config fault = (some (.error error), session)) ∨
    ((session.reopen env config fault).1 = some (.ok ()) ∧
      (session.reopen env config fault).2.store.seenNonces = ∅) := by
  unfold reopen
  split
  · next error _ => exact .inl ⟨error, rfl⟩
  · next store opened =>
    refine .inr ⟨rfl, ?_⟩
    revert opened
    fun_cases TrustedDeviceStore.openAt env config fault session.disk with
    | case2 => rintro ⟨⟩
    | case1 | case3 =>
      rintro ⟨⟩
      rfl

/-- The clock does not stand before the epoch, so only the upper bound can cut the difference. -/
theorem TrustedDeviceStore.saturatingSub_le (now : Nat) (ttl : Int64) :
    saturatingSub now ttl.toInt ≤ now - ttl.toInt := by
  have bound : ttl.toInt < 2 ^ 63 := Int64.toInt_lt ttl
  unfold saturatingSub
  omega

/-- The pruning keeps a nonce of this time. -/
def TrustedDeviceStore.survives (ttl : Int64) (now time : Nat) : Bool :=
  saturatingSub now ttl.toInt < (time : Int)

variable {nonce : Nonce32} {now : Nat}

/-- A check refuses a nonce that is still recorded after the pruning, and records any other one. -/
theorem TrustedDeviceStore.check_cases (store : TrustedDeviceStore) {ttl : Int64} :
    (∃ time error, store.seenNonces.lookup nonce = some time ∧
      (store.checkAndRecordNonce nonce ttl now).1 = .error error ∧
      ∀ other, (store.checkAndRecordNonce nonce ttl now).2.seenNonces.lookup other =
        (store.seenNonces.lookup other).filter (survives ttl now)) ∨
    ((∀ time, store.seenNonces.lookup nonce = some time →
        (time : Int) + ttl.toInt ≤ now) ∧
      (store.checkAndRecordNonce nonce ttl now).1 = .ok () ∧
      ∀ other, (store.checkAndRecordNonce nonce ttl now).2.seenNonces.lookup other =
        if other = nonce then some now
        else (store.seenNonces.lookup other).filter (survives ttl now)) := by
  have pruned : ∀ other, (store.pruneExpiredNonces (saturatingSub now ttl.toInt)).seenNonces.lookup
      other = (store.seenNonces.lookup other).filter (survives ttl now) :=
    fun other => Table.lookup_keep ..
  have below := saturatingSub_le now ttl
  simp only [checkAndRecordNonce]
  split
  · next time found =>
    have kept := (pruned nonce).symm.trans found
    exact .inl ⟨time, _, (filter_eq_some_iff.mp kept).1, rfl, pruned⟩
  · next absent =>
    refine .inr ⟨fun time recorded => ?_, rfl, fun other => ?_⟩
    · have dropped := (pruned nonce).symm.trans absent
      rw [recorded, filter_eq_none_iff] at dropped
      have expired := dropped time rfl
      simp only [survives, decide_eq_true_eq, Int.not_lt] at expired
      omega
    · rw [Table.lookup_insert_eq, pruned]

variable {ttl : Int64} {guard : GuardedSession Line}

open GuardedSession TrustedDeviceStore

/-- A nonce that was pruned has had its time. -/
theorem known_pruned {seen after : Table Nonce32 Nat} {old : NonceAcceptance} {clock : Nat}
    (forward : clock ≤ now)
    (pruned : after.lookup old.nonce = (seen.lookup old.nonce).filter (survives ttl now))
    (known : (∃ time, seen.lookup old.nonce = some time ∧ old.time ≤ time) ∨
      (old.time : Int) + ttl.toInt ≤ clock) :
    (∃ time, after.lookup old.nonce = some time ∧ old.time ≤ time) ∨
      (old.time : Int) + ttl.toInt ≤ now := by
  have below := saturatingSub_le now ttl
  rcases known with ⟨time, found, order⟩ | passed
  · by_cases live : saturatingSub now ttl.toInt < time
    · refine .inl ⟨time, ?_, order⟩
      rw [pruned, found]
      simp [survives, live]
    · exact .inr (by omega)
  · exact .inr (by omega)

theorem GuardedSession.Faithful.check (faithful : guard.Faithful ttl)
    (forward : guard.clock ≤ now) :
    (guard.step env config (.checkAndRecordNonce nonce ttl now)).Faithful ttl := by
  have earlier : ∀ old ∈ guard.accepted, old.time ≤ now :=
    fun old member => Nat.le_trans (faithful.past old member) forward
  simp only [step, Session.serve, Session.checkAndRecordNonce]
  rcases check_cases guard.session.store with
    ⟨_, error, _, refused, lookups⟩ | ⟨_, accepted, lookups⟩
  · rw [refused]
    refine ⟨earlier, fun other time found => ?_, fun other time found => ?_, faithful.opened,
      fun old member present => ?_⟩
    · rw [lookups, filter_eq_some_iff] at found
      exact faithful.recorded other time found.1
    · rw [lookups, filter_eq_some_iff] at found
      exact faithful.newest other time found.1
    · exact known_pruned forward (lookups old.nonce) (faithful.known old member present)
  · rw [accepted]
    have ends : ∀ old ∈ ⟨nonce, now, guard.opening⟩ :: guard.accepted, old.time ≤ now :=
      forall_mem_cons.mpr ⟨Nat.le_refl now, earlier⟩
    refine ⟨ends, fun other time found => ?_, fun other time found old member => ?_,
      forall_mem_cons.mpr ⟨Nat.le_refl _, faithful.opened⟩, fun old member present => ?_⟩
    · rw [lookups] at found
      split at found
      · next same =>
        rw [same, ← some.inj found]
        exact mem_cons_self
      · rw [filter_eq_some_iff] at found
        exact mem_cons_of_mem _ (faithful.recorded other time found.1)
    · rw [lookups] at found
      intro same
      split at found
      · rw [← some.inj found]
        exact ends old member
      · next ne =>
        rw [filter_eq_some_iff] at found
        rcases mem_cons.mp member with rfl | before
        · exact absurd same.symm ne
        · exact faithful.newest other time found.1 old before same
    · by_cases same : old.nonce = nonce
      · refine .inl ⟨now, ?_, ends old member⟩
        rw [lookups, if_pos same]
      · rcases mem_cons.mp member with rfl | before
        · exact absurd rfl same
        · have pruned := lookups old.nonce
          rw [if_neg same] at pruned
          exact known_pruned forward pruned (faithful.known old before present)

/-- Two acceptances of one nonce are apart in one order or the other. -/
theorem GuardedSession.Spaced.apart (spaced : guard.Spaced ttl) {first second : NonceAcceptance}
    (firstMember : first ∈ guard.accepted) (secondMember : second ∈ guard.accepted)
    (same : first.nonce = second.nonce) (ne : first ≠ second) :
    (first.time : Int) + ttl.toInt ≤ second.time ∨
      (second.time : Int) + ttl.toInt ≤ first.time := by
  have either : guard.accepted.Pairwise fun one two => one.nonce = two.nonce →
      (one.time : Int) + ttl.toInt ≤ two.time ∨ (two.time : Int) + ttl.toInt ≤ one.time :=
    List.Pairwise.imp (fun order equal => .inr (order equal)) spaced
  have : Std.Symm fun one two : NonceAcceptance => one.nonce = two.nonce →
      (one.time : Int) + ttl.toInt ≤ two.time ∨ (two.time : Int) + ttl.toInt ≤ one.time :=
    ⟨fun _ _ order equal => (order equal.symm).symm⟩
  exact either.forall firstMember secondMember ne same

theorem GuardedSession.spaced_check_iff (faithful : guard.Faithful ttl) (spaced : guard.Spaced ttl)
    (forward : guard.clock ≤ now) :
    (guard.step env config (.checkAndRecordNonce nonce ttl now)).Spaced ttl ↔
      guard.Remembered ttl (.checkAndRecordNonce nonce ttl now) := by
  simp only [step, Session.serve, Session.checkAndRecordNonce, Remembered]
  rcases check_cases guard.session.store with
    ⟨time, error, found, refused, _⟩ | ⟨expired, accepted, _⟩
  · rw [refused]
    refine ⟨fun _ old member same live => ?_, fun _ => spaced⟩
    -- The recorded acceptance is the newest of its nonce, so a live one cannot be another one.
    have recorded := faithful.recorded nonce time found
    by_contra other
    have ne : old ≠ ⟨nonce, time, guard.opening⟩ := fun equal => other (equal ▸ rfl)
    have newest := faithful.newest nonce time found old member same
    have past := faithful.past _ recorded
    have order := spaced.apart member recorded same ne
    dsimp only at order past
    omega
  · rw [accepted]
    unfold Spaced
    rw [pairwise_cons]
    constructor
    · rintro ⟨apart, _⟩ old member same live
      have order := apart old member same.symm
      dsimp only at order
      omega
    · intro remembered
      refine ⟨fun old member same => ?_, spaced⟩
      by_contra early
      dsimp only at early
      have present := remembered old member same.symm (by omega)
      have past := faithful.past old member
      rcases faithful.known old member present with ⟨time, found, order⟩ | passed
      · rw [← same] at found
        have bound := expired time found
        omega
      · omega

/-- Other calls leave the acceptances, and an opening leaves the guard empty. -/
theorem GuardedSession.step_other (guard : GuardedSession Line)
    (check : ∀ nonce ttl now, call ≠ .checkAndRecordNonce nonce ttl now) :
    (guard.step env config call).accepted = guard.accepted ∧
      (guard.step env config call).clock = guard.clock ∧
      (((guard.step env config call).opening = guard.opening ∧
          (guard.step env config call).session.store.seenNonces = guard.session.store.seenNonces) ∨
        ((guard.step env config call).opening = guard.opening + 1 ∧
          (guard.step env config call).session.store.seenNonces = ∅)) := by
  cases call with
  | checkAndRecordNonce nonce life now => exact absurd rfl (check nonce life now)
  | reopen fault =>
    rcases guard.session.reopen_cases env config fault with
      ⟨error, failed⟩ | ⟨opened, forgotten⟩
    · simp [step, serve, failed]
    · simp [step, serve, opened, forgotten]
  | _ =>
    refine ⟨rfl, rfl, .inl ⟨rfl, guard.session.serve_seenNonces check ?_⟩⟩
    intro fault same
    cases same

section

variable {next : GuardedSession Line} (faithful : guard.Faithful ttl)
  (accepted : next.accepted = guard.accepted) (clock : next.clock = guard.clock)
include faithful accepted clock

/-- What the guard knows depends on the acceptances, the clock, the opening and the nonces only. -/
theorem GuardedSession.Faithful.of_same (opening : next.opening = guard.opening)
    (seen : next.session.store.seenNonces = guard.session.store.seenNonces) :
    next.Faithful ttl where
  past := by
    rw [accepted, clock]
    exact faithful.past
  recorded := by
    rw [accepted, opening, seen]
    exact faithful.recorded
  newest := by
    rw [accepted, seen]
    exact faithful.newest
  opened := by
    rw [accepted, opening]
    exact faithful.opened
  known := by
    rw [accepted, clock, opening, seen]
    exact faithful.known

/-- A guard that was just opened knows nothing, and nothing was accepted since. -/
theorem GuardedSession.Faithful.of_opened (opening : next.opening = guard.opening + 1)
    (seen : next.session.store.seenNonces = ∅) :
    next.Faithful ttl where
  past := by
    rw [accepted, clock]
    exact faithful.past
  recorded nonce time found := by
    rw [seen] at found
    cases found
  newest nonce time found := by
    rw [seen] at found
    cases found
  opened old member := by
    rw [accepted] at member
    have before := faithful.opened old member
    omega
  known old member present := by
    rw [accepted] at member
    have before := faithful.opened old member
    omega

end

theorem GuardedSession.Faithful.other (faithful : guard.Faithful ttl)
    (check : ∀ nonce ttl now, call ≠ .checkAndRecordNonce nonce ttl now) :
    (guard.step env config call).Faithful ttl := by
  obtain ⟨accepted, clock, guarded⟩ := guard.step_other check
  rcases guarded with ⟨opening, seen⟩ | ⟨opening, seen⟩
  · exact faithful.of_same accepted clock opening seen
  · exact faithful.of_opened accepted clock opening seen

/-- In a run whose checks follow the clock, no nonce is accepted again within its time exactly when
each check meets the nonces that were accepted since the store was opened. -/
theorem replay_guard_iff {Line : Type} (env : Environment Line)
    (config : TrustedDeviceStoreConfig) (ttl : Int64) (records : DeviceTable) (disk : Disk Line)
    (calls : List StoreCall)
    (timely : Guarded (GuardedSession.step env config) (GuardedSession.Timely ttl)
      (GuardedSession.start records disk) calls) :
    Always (GuardedSession.step env config) (GuardedSession.Spaced ttl)
        (GuardedSession.start records disk) calls ↔
      Guarded (GuardedSession.step env config) (GuardedSession.Remembered ttl)
        (GuardedSession.start records disk) calls := by
  apply always_iff_guarded_of _ (GuardedSession.Faithful ttl) _ _ _ _ timely
  · intro guard call faithful spaced inTime
    cases call with
    | checkAndRecordNonce nonce life now =>
      obtain ⟨rfl, forward⟩ := inTime
      exact GuardedSession.spaced_check_iff faithful spaced forward
    | _ =>
      refine iff_of_true ?_ trivial
      unfold GuardedSession.Spaced at spaced ⊢
      rw [(guard.step_other ?_).1]
      · exact spaced
      · nofun
  · intro guard call faithful _ inTime _
    cases call with
    | checkAndRecordNonce nonce life now =>
      obtain ⟨rfl, forward⟩ := inTime
      exact faithful.check forward
    | _ => exact faithful.other nofun
  · constructor
    · exact fun _ member => by cases member
    · exact fun _ _ found => by cases found
    · exact fun _ _ found => by cases found
    · exact fun _ member => by cases member
    · exact fun _ member => by cases member
  · exact List.Pairwise.nil

def sampleNonce : Nonce32 := Vector.replicate 32 7

/-- The nonce is checked twice without an opening in between. -/
def checkedTwice : List StoreCall :=
  [.checkAndRecordNonce sampleNonce 300 0, .checkAndRecordNonce sampleNonce 300 10]

theorem checkedTwice_spaced :
    Always (GuardedSession.step plainLines sampleConfig) (GuardedSession.Spaced 300)
      (GuardedSession.start .empty {}) checkedTwice := by
  apply (replay_guard_iff plainLines sampleConfig 300 .empty {} checkedTwice
    ⟨⟨rfl, Nat.le_refl 0⟩, ⟨rfl, Nat.zero_le 10⟩, trivial⟩).mpr
  refine ⟨forall_mem_nil _, fun old member _ _ => ?_, trivial⟩
  obtain rfl := mem_singleton.mp member
  rfl

/-- The store is opened again between the two checks. -/
def reopenedBetween : List StoreCall :=
  [.checkAndRecordNonce sampleNonce 300 0, .reopen none, .checkAndRecordNonce sampleNonce 300 0]

theorem replay_not_guarded :
    ¬ ∀ (Line : Type) (env : Environment Line) (config : TrustedDeviceStoreConfig)
      (ttl : Int64) (records : DeviceTable) (disk : Disk Line) (calls : List StoreCall),
      Guarded (GuardedSession.step env config) (GuardedSession.Timely ttl)
          (GuardedSession.start records disk) calls →
        Always (GuardedSession.step env config) (GuardedSession.Spaced ttl)
          (GuardedSession.start records disk) calls := by
  intro always
  have final := (always TrustedDeviceRecord plainLines sampleConfig 300 .empty {} reopenedBetween
    ⟨⟨rfl, Nat.le_refl 0⟩, trivial, ⟨rfl, Nat.le_refl 0⟩, trivial⟩).final
  have twice : (run (GuardedSession.step plainLines sampleConfig) (GuardedSession.start .empty {})
      reopenedBetween).accepted = [⟨sampleNonce, 0, 1⟩, ⟨sampleNonce, 0, 0⟩] := rfl
  unfold GuardedSession.Spaced at final
  rw [twice] at final
  have apart := (pairwise_cons.mp final).1 _ mem_cons_self rfl
  revert apart
  decide

end A3Net.Pairing
