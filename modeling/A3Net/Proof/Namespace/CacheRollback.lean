import A3Net.Construction.Namespace.Resolver
import A3Net.Machine.History

namespace A3Net.Ipns

open Cryptography Machine Cache List Option Function

variable {name : String} {cur : IpnRecord}

namespace Cache

/-- None of the checks under the write lock refuses the record. -/
def Accepts (cache : Cache) (record : IpnRecord) (trustLevel : TrustLevel) (now : UInt64) : Prop :=
  ¬ (trustLevel = .network ∧ record.signature.isEmpty) ∧ cache.isStale record = false ∧
    record.isExpired now = false

variable {cache : Cache} {record : IpnRecord} {trustLevel : TrustLevel} {now : UInt64}

theorem cacheRecordVerified_of_accepts (accepts : cache.Accepts record trustLevel now) :
    cache.cacheRecordVerified record trustLevel now = update cache record.name (some record) := by
  obtain ⟨signed, fresh, valid⟩ := accepts
  rw [cacheRecordVerified, if_neg signed, fresh, valid]
  rfl

theorem cacheRecordVerified_of_refuses (refuses : ¬ cache.Accepts record trustLevel now) :
    cache.cacheRecordVerified record trustLevel now = cache := by
  unfold cacheRecordVerified
  split_ifs with unsigned stale expired
  · rfl
  · rfl
  · rfl
  · exact absurd ⟨unsigned, Bool.eq_false_iff.mpr stale, Bool.eq_false_iff.mpr expired⟩ refuses

/-- What stands in the cache afterwards was there before or is the accepted record. -/
theorem mem_cacheRecordVerified
    (found : cache.cacheRecordVerified record trustLevel now name = some cur) :
    cache name = some cur ∨
      cur = record ∧ name = record.name ∧ cache.Accepts record trustLevel now := by
  by_cases accepts : cache.Accepts record trustLevel now
  · rw [cacheRecordVerified_of_accepts accepts] at found
    by_cases same : name = record.name
    · rw [same, update_self, some.injEq] at found
      exact .inr ⟨found.symm, same, accepts⟩
    · rw [update_of_ne same] at found
      exact .inl found
  · rw [cacheRecordVerified_of_refuses accepts] at found
    exact .inl found

/-- The record is cached afterwards exactly when it was cached or is accepted. -/
theorem cacheRecordVerified_self_iff :
    cache.cacheRecordVerified record trustLevel now record.name = some record ↔
      cache record.name = some record ∨ cache.Accepts record trustLevel now := by
  constructor
  · intro found
    rcases mem_cacheRecordVerified found with before | ⟨_, _, accepts⟩
    · exact .inl before
    · exact .inr accepts
  · intro either
    by_cases accepts : cache.Accepts record trustLevel now
    · rw [cacheRecordVerified_of_accepts accepts, update_self]
    · rw [cacheRecordVerified_of_refuses accepts]
      exact either.resolve_right accepts

theorem mem_of_getCached (found : cache.getCached name now = some record) :
    cache name = some record :=
  (filter_eq_some_iff.mp found).1

/-- At time zero no record has expired. -/
theorem getCached_zero (name : String) : cache.getCached name 0 = cache name := by
  unfold getCached
  cases cache name with
  | none => rfl
  | some record => simp [IpnRecord.isExpired]

end Cache

namespace IpnResolver

variable {tasks : Nat}

/-- The event brings this record to the write lock. -/
inductive Offers (resolver : IpnResolver tasks) :
    ResolverEvent tasks → IpnRecord → TrustLevel → UInt64 → Prop where
  | direct (record : IpnRecord) (trustLevel : TrustLevel) (now : UInt64) :
      Offers resolver (.cacheRecordVerified record trustLevel now) record trustLevel now
  | commit (task : Fin tasks) (record : IpnRecord) (now : UInt64)
      (waiting : resolver.phase task = .caching record) :
      Offers resolver (.commit task now) record .verified now

variable (earlier later : IpnResolver tasks)

/-- No name shows a smaller sequence number than it showed before, whenever one looks. -/
def NotOlder : Prop :=
  ∀ name firstNow secondNow first second,
    earlier.cache.getCached name firstNow = some first →
    later.cache.getCached name secondNow = some second → first.sequence ≤ second.sequence

theorem notOlder_iff :
    NotOlder earlier later ↔ ∀ name first second, earlier.cache name = some first →
      later.cache name = some second → first.sequence ≤ second.sequence := by
  constructor
  · intro notOlder name first second before after
    apply notOlder name 0 0 first second
    · rw [getCached_zero, before]
    · rw [getCached_zero, after]
  · intro ordered name firstNow secondNow first second before after
    exact ordered name first second (mem_of_getCached before) (mem_of_getCached after)

theorem notOlder_refl (resolver : IpnResolver tasks) : NotOlder resolver resolver := by
  rw [notOlder_iff]
  intro name first second before after
  rw [before, some.injEq] at after
  rw [after]
  exact UInt64.le_refl _

variable (lib : Ed25519) (past : List (ResolverEvent tasks)) {resolver : IpnResolver tasks}
  (event : ResolverEvent tasks) {now : UInt64} {record : IpnRecord}

theorem step_cache_of_offers {event : ResolverEvent tasks} {trustLevel : TrustLevel}
    (offers : resolver.Offers event record trustLevel now) :
    (resolver.step lib event).cache = resolver.cache.cacheRecordVerified record trustLevel now := by
  cases offers with
  | direct => rfl
  | commit task record now waiting => simp only [step, act, waiting, finish, goto]

/-- The step leaves the cache alone and does not answer `true`. -/
def Quiet (resolver : IpnResolver tasks) (event : ResolverEvent tasks) : Prop :=
  (resolver.step lib event).cache = resolver.cache ∧
    ∀ record, resolver.returned lib event ≠ some ⟨record, .ok true⟩

variable {task : Fin tasks}

theorem quiet_verifyAndCache {publicKey : Bytes} :
    Quiet lib resolver (.verifyAndCache task record publicKey) := by
  simp only [Quiet, step, returned, act]
  split
  · split <;> exact ⟨rfl, by simp [finish]⟩
  · exact ⟨rfl, by simp⟩

theorem quiet_verify : Quiet lib resolver (.verify task now) := by
  simp only [Quiet, step, returned, act]
  split
  · split <;> exact ⟨rfl, by simp [finish]⟩
  · exact ⟨rfl, by simp⟩

/-- A task without a verified record has nothing to cache. -/
theorem quiet_commit (nothing : ¬ ∃ record, resolver.phase task = .caching record) :
    Quiet lib resolver (.commit task now) := by
  simp only [Quiet, step, returned, act]
  split
  · exact absurd ⟨_, ‹_›⟩ nothing
  · exact ⟨rfl, by simp⟩

/-- A cached record was cached before the step, or the step brought it and it was accepted. -/
theorem mem_step_cache {event : ResolverEvent tasks}
    (found : (resolver.step lib event).cache name = some cur) :
    resolver.cache name = some cur ∨
      ∃ trustLevel now, resolver.Offers event cur trustLevel now ∧ name = cur.name ∧
        resolver.cache.Accepts cur trustLevel now := by
  have quiet : Quiet lib resolver event → resolver.cache name = some cur := by
    intro still
    rw [← still.1, found]
  have offered : ∀ {record trustLevel now}, resolver.Offers event record trustLevel now →
      resolver.cache name = some cur ∨
        ∃ trustLevel now, resolver.Offers event cur trustLevel now ∧ name = cur.name ∧
          resolver.cache.Accepts cur trustLevel now := by
    intro record trustLevel now offers
    rw [step_cache_of_offers lib offers] at found
    rcases mem_cacheRecordVerified found with before | ⟨rfl, same, accepts⟩
    · exact .inl before
    · exact .inr ⟨trustLevel, now, offers, same, accepts⟩
  cases event with
  | cacheRecordVerified record trustLevel now => exact offered (.direct record trustLevel now)
  | verifyAndCache task record publicKey =>
    exact .inl (quiet (quiet_verifyAndCache lib))
  | verify task now => exact .inl (quiet (quiet_verify lib))
  | commit task now =>
    by_cases waiting : ∃ record, resolver.phase task = .caching record
    · obtain ⟨record, waiting⟩ := waiting
      exact offered (.commit task record now waiting)
    · exact .inl (quiet (quiet_commit lib waiting))
  | clearExpired now => exact .inl (filter_eq_some_iff.mp found).1

/-- Only the last step of a call answers `true`. -/
theorem returned_true_iff (resolver : IpnResolver tasks) {event : ResolverEvent tasks}
    (record : IpnRecord) :
    resolver.returned lib event = some ⟨record, .ok true⟩ ↔
      ∃ task now, event = .commit task now ∧ resolver.phase task = .caching record := by
  constructor
  · intro answer
    cases event with
    | cacheRecordVerified | clearExpired => cases answer
    | verifyAndCache task other publicKey =>
      exact absurd answer ((quiet_verifyAndCache lib).2 record)
    | verify task now => exact absurd answer ((quiet_verify lib).2 record)
    | commit task now =>
      by_cases waiting : ∃ other, resolver.phase task = .caching other
      · obtain ⟨other, waiting⟩ := waiting
        simp only [returned, act, waiting, finish, some.injEq, VerifyReturn.mk.injEq] at answer
        exact ⟨task, now, rfl, answer.1 ▸ waiting⟩
      · exact absurd answer ((quiet_commit lib waiting).2 record)
  · rintro ⟨task, now, rfl, waiting⟩
    simp only [returned, act, waiting, finish]

variable (events : List (ResolverEvent tasks))

/-- The resolver after these events, from the empty cache on. -/
def after : IpnResolver tasks :=
  run (step lib) new events

theorem after_concat : after lib (past ++ [event]) = (after lib past).step lib event := by
  rw [after, run_append, run_cons, run_nil]
  rfl

/-- No later state of the run shows an older record than an earlier one. -/
def NoRollback : Prop :=
  Ordered (step lib) new NotOlder events

/-- A call that answers `true` leaves its record in the cache. -/
def Truthful : Prop :=
  Stepwise (fun past event => ∀ record,
    (after lib past).returned lib event = some ⟨record, .ok true⟩ →
    (after lib (past ++ [event])).cache record.name = some record) events

/-- A record that is accepted for a vacant name is at least as new as every record that the name
had earlier. -/
def Renews (past : List (ResolverEvent tasks)) (event : ResolverEvent tasks) : Prop :=
  ∀ record trustLevel now, (after lib past).Offers event record trustLevel now →
    (after lib past).cache.Accepts record trustLevel now →
    (after lib past).cache record.name = none →
    ∀ earlier, earlier <+: past → ∀ existing,
      (after lib earlier).cache record.name = some existing →
      existing.sequence ≤ record.sequence

/-- A verified record that reaches the write lock is cached already, or it is newer than the cached
one and has not expired in the meantime. -/
def Lands (past : List (ResolverEvent tasks)) (event : ResolverEvent tasks) : Prop :=
  ∀ task now record, event = .commit task now → (after lib past).phase task = .caching record →
    (after lib past).cache record.name = some record ∨
      (after lib past).cache.isStale record = false ∧ record.isExpired now = false

theorem relatedToPast_iff_renews (before : RelatedToPast (step lib) new NotOlder past) :
    RelatedToPast (step lib) new NotOlder (past ++ [event]) ↔ Renews lib past event := by
  constructor
  · intro related record trustLevel now offers accepts _ earlier short existing held
    have ordered := related earlier (short.trans (prefix_append _ _))
    refine (notOlder_iff _ _).mp ordered record.name existing record held ?_
    show (after lib (past ++ [event])).cache record.name = some record
    rw [after_concat, step_cache_of_offers lib offers,
      cacheRecordVerified_of_accepts accepts, update_self]
  · intro renews earlier short
    rcases prefix_concat_iff.mp short with rfl | shorter
    · exact notOlder_refl _
    have ordered := (notOlder_iff _ _).mp (before earlier shorter)
    rw [notOlder_iff]
    intro name first second held found
    change (after lib (past ++ [event])).cache name = some second at found
    rw [after_concat] at found
    rcases mem_step_cache lib found with kept | ⟨trustLevel, now, offers, rfl, accepts⟩
    · exact ordered name first second held kept
    cases cur : (after lib past).cache second.name with
    | none => exact renews second trustLevel now offers accepts cur earlier shorter first held
    | some existing =>
      -- A record that is replaced carries the order on to the newer one.
      have older := ordered second.name first existing held cur
      have fresh := accepts.2.1
      rw [isStale, cur] at fresh
      have newer := UInt64.not_le.mp (of_decide_eq_false fresh)
      exact UInt64.le_of_lt (UInt64.lt_of_le_of_lt older newer)

theorem truthful_iff_lands :
    (∀ record, (after lib past).returned lib event = some ⟨record, .ok true⟩ →
      (after lib (past ++ [event])).cache record.name = some record) ↔
      Lands lib past event := by
  have verified : ∀ (cache : Cache) (record : IpnRecord) (now : UInt64),
      cache.Accepts record .verified now ↔
        cache.isStale record = false ∧ record.isExpired now = false := by
    intro cache record now
    simp [Accepts]
  have lands : ∀ {task now record}, event = .commit task now →
      (after lib past).phase task = .caching record →
      ((after lib (past ++ [event])).cache record.name = some record ↔
        (after lib past).cache record.name = some record ∨
          (after lib past).cache.isStale record = false ∧ record.isExpired now = false) := by
    rintro task now record rfl waiting
    rw [after_concat, step_cache_of_offers lib (.commit task record now waiting),
      cacheRecordVerified_self_iff, verified]
  constructor
  · intro truthful task now record committed waiting
    refine (lands committed waiting).mp (truthful record ?_)
    exact (returned_true_iff lib _ record).mpr ⟨task, now, committed, waiting⟩
  · intro meets record answer
    obtain ⟨task, now, committed, waiting⟩ := (returned_true_iff lib _ record).mp answer
    exact (lands committed waiting).mpr (meets task now record committed waiting)

/-- The cache never goes back and every `true` is about the cached record exactly in the runs that
fill a vacant name with nothing older than it had, and that cache each verified record in time. -/
theorem cache_keeps_newest_iff (events : List (ResolverEvent tasks)) :
    NoRollback lib events ∧ Truthful lib events ↔
      Stepwise (fun past event => Renews lib past event ∧ Lands lib past event) events := by
  simp only [Stepwise, imp_and, forall_and]
  refine and_congr ?_ ?_
  · exact ordered_iff_stepwise (step lib) new NotOlder notOlder_refl (relatedToPast_iff_renews lib)
  · exact forall₂_congr fun past event => imp_congr_right fun _ => truthful_iff_lands lib past event

/-- One name with records of different age. -/
def published (sequence expires : UInt64) : IpnRecord where
  name := "n"
  value := "v"
  sequence := sequence
  ttlSecs := 10
  created := 0
  expires := expires
  signature := replicate 64 7
  sigType := 1
  validityType := "0"
  validityOffset := 10

/-- The newer record expires and is cleared, and then gossip brings the older one. -/
def replayAfterClear : List (ResolverEvent 1) :=
  [.cacheRecordVerified (published 5 10) .network 0, .clearExpired fun _ => 11,
    .cacheRecordVerified (published 3 100) .network 11]

/-- Another call caches a newer record while this one verifies its signature. -/
def overtaken : List (ResolverEvent 1) :=
  [.verifyAndCache 0 (published 5 100) (replicate 32 1), .verify 0 0,
    .cacheRecordVerified (published 9 100) .network 0, .commit 0 0]

/-- This library accepts one message. -/
def publishedLibrary : Ed25519 where
  isKey := fun _ => true
  verify := fun _ data _ => data = (published 5 100).signingData

/-- An older record comes back after the newer one was cleared, and a call answers `true` although
the cache keeps a newer record than its own. -/
theorem cache_goes_back :
    (¬ ∀ (lib : Ed25519) (events : List (ResolverEvent 1)), NoRollback lib events) ∧
      ¬ ∀ (lib : Ed25519) (events : List (ResolverEvent 1)), Truthful lib events := by
  constructor
  · intro noRollback
    have ordered := noRollback publishedLibrary replayAfterClear replayAfterClear
      (prefix_refl _) (replayAfterClear.take 1) ( take_prefix _ _)
    exact absurd (ordered "n" 0 11 (published 5 10) (published 3 100) (by decide) (by decide))
      (by decide)
  · intro truthful
    have answer := (returned_true_iff publishedLibrary (after publishedLibrary (overtaken.take 3))
      (published 5 100)).mpr ⟨0, 0, rfl, by decide⟩
    have cached := truthful publishedLibrary overtaken (overtaken.take 3) (.commit 0 0)
      (prefix_refl _) (published 5 100) answer
    exact absurd cached (by decide)

end IpnResolver
end A3Net.Ipns
