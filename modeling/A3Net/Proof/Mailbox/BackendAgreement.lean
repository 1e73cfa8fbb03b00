import A3Net.Proof.Mailbox.Delivery

namespace A3Net.Mailbox

open Machine SqliteStore List StoredEnvelope

variable (chrono : Chrono)

/-- The date library reads the time back from its text. -/
def Chrono.Survives (time : DateTime) : Prop :=
  chrono.parseFromRfc3339 (chrono.toRfc3339 time) = some time
deriving Decidable

/-- The texts of the two times stand in the order of the times. -/
def Chrono.Compares (first second : DateTime) : Prop :=
  chrono.toRfc3339 first ≤ chrono.toRfc3339 second ↔ first ≤ second
deriving Decidable

/-- A new envelope comes when the stored ones of its recipient are as many as their highest
sequence says. A pull asks for an envelope when one is pending. A purge finds expiries whose texts
compare as they do, and usage is asked only for a recipient without envelopes. -/
def Agreeable (stores : MemoryStore × SqliteStore) : Request → Prop
  | .enqueue envelope _ =>
    let bucket := stores.1.bucket envelope.recipientId
    bucket.find? envelope.repeats = none →
      bucket.length = SqliteStore.maxSequence bucket ∧ bucket.length + 1 < 2 ^ 63 ∧
        chrono.Survives envelope.queuedAt ∧ chrono.Survives envelope.expiresAt
  | .pull recipientId since limit _ =>
    let bucket := stores.1.bucket recipientId
    (0 < limit ∨ ∀ envelope ∈ bucket, envelope.sequence ≤ since) ∧ (since < 2 ^ 63 ∨ bucket = [])
  | .ack _ _ => True
  | .purgeExpired now =>
    (∀ row ∈ stores.2.rows, chrono.Compares row.expiresAt now) ∧
      (stores.2.path ≠ ":memory:" ∨ ∀ row ∈ stores.2.rows, now < row.expiresAt)
  | .quotaUsage recipientId _ => stores.1.bucket recipientId = []

instance (chrono : Chrono) (stores : MemoryStore × SqliteStore) (req : Request) :
    Decidable (Agreeable chrono stores req) := by
  cases req <;> dsimp only [Agreeable] <;> infer_instance

/-- The envelopes of one recipient have increasing sequences that fit a signed word, and times that
survive their texts. -/
structure Regular (chrono : Chrono) (bucket : List StoredEnvelope) : Prop where
  increasing : Increasing sequence bucket
  fits : ∀ envelope ∈ bucket, 0 < envelope.sequence ∧ envelope.sequence < 2 ^ 63
  survives : ∀ envelope ∈ bucket,
    chrono.Survives envelope.queuedAt ∧ chrono.Survives envelope.expiresAt

/-- Both stores have the same envelopes for each recipient. -/
structure Matched (chrono : Chrono) (stores : MemoryStore × SqliteStore) : Prop where
  same : ∀ recipientId, stores.1.bucket recipientId = stores.2.rowsOf recipientId
  regular : ∀ recipientId, Regular chrono (stores.2.rowsOf recipientId)

variable {envelope : StoredEnvelope} {now : DateTime}

namespace Regular

variable {chrono} {bucket : List StoredEnvelope}

section

variable (regular : Regular chrono bucket)
include regular

theorem filter (keep : StoredEnvelope → Bool) :
    Regular chrono (bucket.filter keep) where
  increasing := List.Pairwise.filter keep regular.increasing
  fits envelope member := regular.fits envelope (mem_of_mem_filter member)
  survives envelope member := regular.survives envelope (mem_of_mem_filter member)

theorem concat (next : envelope.sequence = nextSequence bucket) (fits : envelope.sequence < 2 ^ 63)
    (survives : chrono.Survives envelope.queuedAt ∧ chrono.Survives envelope.expiresAt) :
    Regular chrono (bucket ++ [envelope]) where
  increasing := by
    refine pairwise_append.mpr ⟨regular.increasing, pairwise_singleton _ _, ?_⟩
    intro earlier member last final
    obtain rfl := mem_singleton.mp final
    rw [next]
    exact Nat.lt_succ_of_le (le_maxSequence member)
  fits := forall_mem_append.mpr
    ⟨regular.fits, forall_mem_singleton.mpr ⟨next ▸ Nat.succ_pos _, fits⟩⟩
  survives := forall_mem_append.mpr ⟨regular.survives, forall_mem_singleton.mpr survives⟩

/-- There are fewer envelopes than sequences. -/
theorem length_lt : bucket.length < 2 ^ 63 := by
  have distinct : (bucket.map sequence).Nodup :=
    pairwise_map.mpr (List.Pairwise.imp (fun less => less.ne) regular.increasing)
  have within : bucket.map sequence ⊆ List.range' 1 (2 ^ 63 - 1) := by
    intro sequence member
    obtain ⟨envelope, stored, rfl⟩ := mem_map.mp member
    have := regular.fits envelope stored
    rw [mem_range'_1]
    omega
  have short := (subperm_of_subset distinct within).length_le
  rw [length_map, length_range'] at short
  omega

omit regular in
theorem readTime_eq {time : DateTime} (survives : chrono.Survives time) :
    readTime chrono now time = time := by
  rw [readTime, survives]
  rfl

theorem map_rowToEnvelope (now : DateTime) : bucket.map (rowToEnvelope chrono now) = bucket := by
  refine (map_congr_left fun row member => ?_).trans (map_id bucket)
  obtain ⟨queued, expires⟩ := regular.survives row member
  rw [rowToEnvelope, readTime_eq queued, readTime_eq expires]
  rfl

/-- The limit of the query reaches as far as the limit of the memory store. -/
theorem limited_eq_take {limit : Nat} (asks : 0 < limit ∨ bucket = []) :
    limited limit bucket = bucket.take (max limit 1) := by
  have short := regular.length_lt
  rw [limited]
  rcases asks with positive | rfl
  · rw [Nat.max_eq_left positive]
    split
    · next negative =>
      rw [take_of_length_le]
      unfold asI64 at negative
      split at negative <;> omega
    · rfl
  · simp

end

end Regular

namespace Matched

variable {chrono} {stores : MemoryStore × SqliteStore}

section

variable (matched : Matched chrono stores)
include matched

/-- Both stores find the envelope that a call of `enqueue` repeats. -/
theorem enqueue_repeated {row : StoredEnvelope}
    (found : (stores.2.rowsOf envelope.recipientId).find? envelope.repeats = some row) :
    some (stores.1.enqueue envelope).2 = (stores.2.enqueue chrono envelope now).2 ∧
      Matched chrono ((stores.1.enqueue envelope).1, (stores.2.enqueue chrono envelope now).1) := by
  have member := mem_of_find?_eq_some found
  have repeats := find?_some found
  have msgId : row.msgId = envelope.msgId := by
    simp only [StoredEnvelope.repeats, Bool.and_eq_true, decide_eq_true_eq] at repeats
    exact repeats.1
  obtain ⟨queued, expires⟩ := (matched.regular envelope.recipientId).survives row member
  simp only [MemoryStore.enqueue, enqueue, matched.same, found, msgId,
    Regular.readTime_eq queued, Regular.readTime_eq expires, true_and]
  exact matched

variable (now : DateTime)

/-- Both stores give a new envelope the same sequence. -/
theorem enqueue_new (agreeable : Agreeable chrono stores (.enqueue envelope now))
    (new : (stores.2.rowsOf envelope.recipientId).find? envelope.repeats = none) :
    some (stores.1.enqueue envelope).2 = (stores.2.enqueue chrono envelope now).2 ∧
      Matched chrono ((stores.1.enqueue envelope).1, (stores.2.enqueue chrono envelope now).1) := by
  have same := matched.same envelope.recipientId
  obtain ⟨dense, fits, survives⟩ := agreeable (same ▸ new)
  rw [same] at dense fits
  have next : MemoryStore.nextSequence (stores.1.bucket envelope.recipientId) =
      nextSequence (stores.2.rowsOf envelope.recipientId) := by
    rw [same, MemoryStore.nextSequence, nextSequence, dense]
  have small : nextSequence (stores.2.rowsOf envelope.recipientId) < 2 ^ 63 := by
    rw [nextSequence, ← dense]
    exact fits
  have memory := MemoryStore.represents.enqueue_new stores.1 envelope now
    (nextSequence (stores.2.rowsOf envelope.recipientId))
    (by simp [MemoryStore.mailboxStore, MemoryStore.enqueue, same, new, newSequence, ← next])
  have sqlite := (represents chrono).enqueue_new stores.2 envelope now
    (nextSequence (stores.2.rowsOf envelope.recipientId))
    (by simp only [mailboxStore, enqueue, new, if_pos small,
      newSequence, Option.bind_some, Bool.false_eq_true, if_false])
  refine ⟨?_, fun recipientId => ?_, fun recipientId => ?_⟩
  · simp only [MemoryStore.enqueue, enqueue, same ▸ new, new, next, if_pos small]
  · refine (memory.2.2 recipientId).trans (Eq.trans ?_ (sqlite.2.2 recipientId).symm)
    rw [matched.same]
  · refine (sqlite.2.2 recipientId).symm ▸ ?_
    split
    · next own =>
      subst own
      exact (matched.regular envelope.recipientId).concat rfl small survives
    · exact matched.regular recipientId

theorem enqueue (envelope : StoredEnvelope) (now : DateTime)
    (agreeable : Agreeable chrono stores (.enqueue envelope now)) :
    some (stores.1.enqueue envelope).2 = (stores.2.enqueue chrono envelope now).2 ∧
      Matched chrono ((stores.1.enqueue envelope).1, (stores.2.enqueue chrono envelope now).1) := by
  cases found : (stores.2.rowsOf envelope.recipientId).find? envelope.repeats with
  | some row => exact matched.enqueue_repeated found
  | none => exact matched.enqueue_new now agreeable found

variable (recipientId : String)

theorem pull (since limit : Nat)
    (now : DateTime) (agreeable : Agreeable chrono stores (.pull recipientId since limit now)) :
    stores.1.pull recipientId since limit = stores.2.pull chrono recipientId since limit now := by
  have regular := matched.regular recipientId
  obtain ⟨asks, marks⟩ := agreeable
  rw [matched.same] at asks marks
  rw [MemoryStore.pull, SqliteStore.pull, matched.same]
  rcases marks with small | empty
  · have pending_regular : Regular chrono
        (pending sequence (stores.2.rowsOf recipientId) since) := regular.filter _
    have pending_asks : 0 < limit ∨ pending sequence (stores.2.rowsOf recipientId) since = [] := by
      refine asks.imp_right fun passed => filter_eq_nil_iff.mpr fun row member => ?_
      simpa using passed row member
    rw [SqliteStore.query_eq_pending small regular.increasing,
      pending_regular.limited_eq_take pending_asks, map_take,
      pending_regular.map_rowToEnvelope]
    rfl
  · simp [empty, SqliteStore.limited]

omit matched in
theorem length_sub_filter {Item : Type} (items : List Item) (removes : Item → Bool) :
    items.length - (items.filter fun item => !removes item).length =
      (items.filter removes).length := by
  have := length_eq_length_filter_add removes (l := items)
  omega

/-- Filters of the rows keep the stores matched when they remove the same envelopes. -/
theorem shrink {memory : MemoryStore} {sqlite : SqliteStore} (keep : String → StoredEnvelope → Bool)
    (bucket : ∀ recipientId, memory.bucket recipientId =
      (stores.1.bucket recipientId).filter (keep recipientId))
    (rowsOf : ∀ recipientId, sqlite.rowsOf recipientId =
      (stores.2.rowsOf recipientId).filter (keep recipientId)) :
    Matched chrono (memory, sqlite) where
  same recipientId := by
    rw [bucket, rowsOf, matched.same]
  regular recipientId := by
    rw [rowsOf]
    exact (matched.regular recipientId).filter _

theorem ack (msgIds : List String) :
    (stores.1.ack recipientId msgIds).2 = (stores.2.ack recipientId msgIds).2 ∧
      Matched chrono
        ((stores.1.ack recipientId msgIds).1, (stores.2.ack recipientId msgIds).1) := by
  constructor
  · have memory : (stores.1.ack recipientId msgIds).2 =
        ((stores.1.bucket recipientId).filter fun row => msgIds.contains row.msgId).length := by
      rw [MemoryStore.ack, MemoryStore.bucket]
      cases stores.1.inner.lookup recipientId with
      | none => rfl
      | some bucket => exact length_sub_filter bucket fun row => msgIds.contains row.msgId
    have sqlite : (stores.2.ack recipientId msgIds).2 =
        ((stores.2.rowsOf recipientId).filter fun row => msgIds.contains row.msgId).length := by
      rw [SqliteStore.ack, SqliteStore.rowsOf, filter_filter]
      split
      · next empty => simp [isEmpty_iff.mp empty]
      · simp only [length_sub_filter, Bool.and_comm]
    rw [memory, sqlite, matched.same]
  · exact matched.shrink _ (MemoryStore.represents.ack stores.1 recipientId msgIds)
      ((SqliteStore.represents chrono).ack stores.2 recipientId msgIds)

omit matched in
/-- The memory store counts what the purge removes recipient by recipient. -/
theorem purgeExpired_count (store : MemoryStore) (now : DateTime) :
    (store.purgeExpired now).2 = (store.inner.keys.map fun recipientId =>
      ((store.bucket recipientId).filter (store.purges now)).length).sum := by
  rw [MemoryStore.purgeExpired, Table.values, AList.keys, List.keys, map_map, map_map]
  refine congrArg List.sum (map_congr_left ?_)
  rintro ⟨recipientId, bucket⟩ member
  have found : store.bucket recipientId = bucket := by
    rw [MemoryStore.bucket, AList.mem_lookup_iff.mpr member]
    rfl
  have kept : MemoryStore.unexpired now bucket =
      bucket.filter fun envelope => !store.purges now envelope := by
    apply filter_congr
    intro envelope _
    rw [Bool.eq_iff_iff]
    simp [MemoryStore.purges]
  simp only [Function.comp_apply, found, kept, length_sub_filter]

/-- Every stored row belongs to a bucket, so the buckets count all rows that have expired. -/
theorem memory_purge_count :
    (stores.1.purgeExpired now).2 = (stores.2.rows.filter (stores.1.purges now)).length := by
  rw [purgeExpired_count, ← sum_length_filter recipientId stores.1.inner.keys_nodup]
  · simp only [matched.same, rowsOf, filter_filter, Bool.and_comm]
  · intro row member
    have stored : row ∈ stores.1.bucket row.recipientId := by
      rw [matched.same]
      exact mem_filter.mpr ⟨mem_of_mem_filter member, decide_eq_true rfl⟩
    cases found : stores.1.inner.lookup row.recipientId with
    | none => simp [MemoryStore.bucket, found] at stored
    | some bucket => exact Table.mem_keys_of_lookup found

omit matched in
theorem sqlite_purge_count (store : SqliteStore) (now : DateTime) :
    (store.purgeExpired chrono now).2 = (store.rows.filter (purges chrono store now)).length := by
  rw [purgeExpired]
  split
  · next memory =>
    rw [filter_eq_nil_iff.mpr]
    · rfl
    · simp [purges, memory]
  · next disk =>
    refine (length_sub_filter store.rows (purged chrono now)).trans ?_
    refine congrArg List.length (filter_congr fun row _ => ?_)
    simp [purges, disk]

theorem purgeExpired (agreeable : Agreeable chrono stores (.purgeExpired now)) :
    (stores.1.purgeExpired now).2 = (stores.2.purgeExpired chrono now).2 ∧
      Matched chrono ((stores.1.purgeExpired now).1, (stores.2.purgeExpired chrono now).1) := by
  obtain ⟨compares, reaches⟩ := agreeable
  have purges_eq : ∀ row ∈ stores.2.rows,
      purges chrono stores.2 now row = stores.1.purges now row := by
    intro row member
    have compared : purged chrono now row = stores.1.purges now row := by
      rw [Bool.eq_iff_iff, purged, MemoryStore.purges, decide_eq_true_iff, decide_eq_true_iff]
      exact compares row member
    rw [purges, compared]
    rcases reaches with disk | unexpired
    · simp [disk]
    · have := unexpired row member
      simp [MemoryStore.purges, Int.not_le.mpr this]
  constructor
  · rw [matched.memory_purge_count, sqlite_purge_count]
    exact congrArg List.length (filter_congr fun row member => (purges_eq row member).symm)
  · refine matched.shrink _ (MemoryStore.represents.purge stores.1 now) fun recipientId => ?_
    rw [← filter_congr fun row member => ?_]
    · exact (represents chrono).purge stores.2 now recipientId
    · rw [purges_eq row (mem_of_mem_filter member)]

theorem quotaUsage (now : DateTime)
    (agreeable : Agreeable chrono stores (.quotaUsage recipientId now)) :
    stores.1.quotaUsage recipientId = stores.2.quotaUsage chrono recipientId now := by
  have empty : stores.1.bucket recipientId = [] := agreeable
  have none : stores.2.rowsOf recipientId = [] := (matched.same recipientId).symm.trans empty
  rw [MemoryStore.quotaUsage, SqliteStore.quotaUsage, empty, none]
  rfl

/-- Both stores give one answer to an agreeable call and stay matched. -/
theorem serve (req : Request) (agreeable : Agreeable chrono stores req) :
    (MemoryStore.mailboxStore.serve stores.1 req).2 =
        ((mailboxStore chrono).serve stores.2 req).2 ∧
      Matched chrono (together MemoryStore.mailboxStore.serve
        (mailboxStore chrono).serve stores req) := by
  cases req with
  | enqueue envelope now =>
    obtain ⟨outcome, next⟩ := matched.enqueue envelope now agreeable
    exact ⟨congrArg Answer.outcome outcome, next⟩
  | pull recipientId since limit now =>
    exact ⟨congrArg Answer.envelopes (matched.pull recipientId since limit now agreeable), matched⟩
  | ack recipientId msgIds =>
    obtain ⟨count, next⟩ := matched.ack recipientId msgIds
    exact ⟨congrArg Answer.removed count, next⟩
  | purgeExpired now =>
    obtain ⟨count, next⟩ := matched.purgeExpired now agreeable
    exact ⟨congrArg Answer.removed count, next⟩
  | quotaUsage recipientId now =>
    exact ⟨congrArg Answer.usage (matched.quotaUsage recipientId now agreeable), matched⟩

end

theorem start (chrono : Chrono) (path : String) : Matched chrono ({}, ⟨path, []⟩) where
  same _ := rfl
  regular _ := ⟨List.Pairwise.nil, by simp [rowsOf], by simp [rowsOf]⟩

end Matched

/-- Both stores give the same answers in every run of agreeable calls from the empty stores. -/
theorem backends_agree (chrono : Chrono) (path : String) (requests : List Request)
    (guarded : Guarded (together MemoryStore.mailboxStore.serve
      (SqliteStore.mailboxStore chrono).serve) (Agreeable chrono) ({}, ⟨path, []⟩) requests) :
    answers MemoryStore.mailboxStore.serve {} requests =
      answers (SqliteStore.mailboxStore chrono).serve ⟨path, []⟩ requests :=
  answers_eq (fun _ req matched => matched.serve req) (Matched.start chrono path) guarded

/-- The sample library writes the two times of the sample envelopes. -/
def sampleChrono : Chrono where
  toRfc3339 time :=
    if time < 100 then "1970-01-01T00:00:00+00:00" else "1970-01-01T00:00:00.000000100+00:00"
  parseFromRfc3339 text :=
    if text = "1970-01-01T00:00:00+00:00" then some 0
    else if text = "1970-01-01T00:00:00.000000100+00:00" then some 100
    else none

/-- The newest message is acknowledged first. -/
def newestFirst : List Request :=
  [.enqueue (sampleEnvelope "m1") 0, .enqueue (sampleEnvelope "m2") 0, .pull "bob" 0 10 0,
    .ack "bob" ["m2"], .enqueue (sampleEnvelope "m3") 0, .purgeExpired 100, .quotaUsage "bob" 100]

theorem newestFirst_agree :
    answers MemoryStore.mailboxStore.serve {} newestFirst =
      answers (SqliteStore.mailboxStore sampleChrono).serve ⟨"mailbox.db", []⟩ newestFirst :=
  backends_agree sampleChrono "mailbox.db" newestFirst (by decide +kernel)

/-- The oldest message is acknowledged first, and the next message is the second one that the memory
store has and the third one that the SQLite store numbers. -/
def oldestFirst : List Request :=
  [.enqueue (sampleEnvelope "m1") 0, .enqueue (sampleEnvelope "m2") 0, .ack "bob" ["m1"],
    .enqueue (sampleEnvelope "m3") 0]

theorem backends_disagree :
    ¬ ∀ (chrono : Chrono) (path : String) (requests : List Request),
      answers MemoryStore.mailboxStore.serve {} requests =
        answers (SqliteStore.mailboxStore chrono).serve ⟨path, []⟩ requests := by
  intro agree
  have answered := agree sampleChrono "mailbox.db" oldestFirst
  revert answered
  decide +kernel

end A3Net.Mailbox
