import A3Net.Construction.Mailbox.SqliteStore
import A3Net.Proof.Mailbox.Watermark

namespace A3Net.Mailbox

open Machine List Nat StoredEnvelope

/-- The deliveries of pending envelopes are the pending deliveries. -/
theorem pending_deliveries (envelopes : List StoredEnvelope) (mark : Nat) :
    pending Delivery.sequence (envelopes.map delivery) mark =
      (pending sequence envelopes mark).map delivery :=
  filter_map

namespace MemoryStore

/-- Nothing that came for the recipient has left its bucket. -/
def Intact (allocated bucket : List StoredEnvelope) : Prop := bucket.length = allocated.length

/-- The purge removes what has expired. -/
def purges (_ : MemoryStore) (now : DateTime) (envelope : StoredEnvelope) : Bool :=
  envelope.expiresAt ≤ now

/-- The memory store numbers the envelopes from one on while nothing leaves the bucket. -/
def numbering : Numbering where
  next := nextSequence
  Small _ := True
  Numbered allocated := allocated.map sequence = List.range' 1 allocated.length
  Intact := Intact
  small_zero := trivial
  next_pos _ := succ_pos _
  numbered_nil := rfl
  numbered_concat allocated bucket envelope numbered intact next := by
    rw [map_append, numbered, map_singleton, next, nextSequence, intact,
      length_append, length_singleton, range'_1_concat, add_comm 1]
  intact_iff allocated bucket numbered _ stored := by
    have bounded : ∀ envelope ∈ allocated, envelope.sequence ≤ allocated.length := by
      intro envelope member
      have inside := mem_map_of_mem (f := sequence) member
      rw [numbered, mem_range'_1] at inside
      omega
    constructor
    · intro below
      refine le_antisymm stored.length_le (Nat.le_of_not_lt fun shorter => ?_)
      have last : allocated.length ∈ List.range' 1 allocated.length := by
        rw [mem_range'_1]
        omega
      rw [← numbered] at last
      obtain ⟨envelope, member, same⟩ := mem_map.mp last
      have small := below envelope member
      rw [nextSequence] at small
      omega
    · intro intact envelope member
      rw [nextSequence, intact]
      exact lt_succ_of_le (bounded envelope member)

theorem bucket_insert (store : MemoryStore) (key recipientId : String)
    (envelopes : List StoredEnvelope) :
    bucket ⟨store.inner.insert key envelopes⟩ recipientId =
      if recipientId = key then envelopes else store.bucket recipientId := by
  rw [bucket, Table.lookup_insert_eq]
  split <;> rfl

/-- The buckets of the memory store represent its mailboxes. -/
theorem represents : Represents mailboxStore bucket purges numbering where
  enqueue_new store envelope now sequence outcome := by
    simp only [mailboxStore, enqueue] at outcome ⊢
    cases found : (store.bucket envelope.recipientId).find? envelope.repeats with
    | some existing => simp [found, newSequence] at outcome
    | none =>
      simp only [found, newSequence, Option.bind_some, Bool.false_eq_true, if_false,
        Option.some.injEq] at outcome ⊢
      subst outcome
      refine ⟨rfl, trivial, fun recipientId => ?_⟩
      rw [bucket_insert]
      split
      · next same => rw [same]
      · rfl
  enqueue_old store envelope now outcome recipientId := by
    simp only [mailboxStore, enqueue] at outcome ⊢
    cases found : (store.bucket envelope.recipientId).find? envelope.repeats with
    | some existing => rfl
    | none => simp [found, newSequence] at outcome
  pull store recipientId since limit now _ _ := by
    refine ⟨max limit 1, fun _ => lt_of_lt_of_le Nat.one_pos (le_max_right limit 1), ?_⟩
    rw [pending_deliveries, ← map_take]
    rfl
  ack store recipientId msgIds other := by
    simp only [mailboxStore, ack]
    cases found : store.inner.lookup recipientId with
    | none =>
      by_cases same : other = recipientId
      · have empty : store.bucket other = [] := by
          rw [same, bucket, found]
          rfl
        rw [empty, filter_nil]
      · simp [same]
    | some envelopes =>
      simp only [bucket_insert]
      split
      · next same =>
        subst same
        simp [bucket, found]
      · next ne => simp [ne]
  purge store now recipientId := by
    simp only [mailboxStore, purgeExpired, bucket, Table.lookup_mapValues]
    cases store.inner.lookup recipientId with
    | none => rfl
    | some envelopes =>
      simp only [Option.map_some, Option.getD_some, unexpired, purges]
      apply filter_congr
      intro envelope _
      rw [Bool.eq_iff_iff]
      simp

end MemoryStore
namespace SqliteStore

/-- The newest envelope that came for the recipient is still stored. -/
def Intact (allocated rows : List StoredEnvelope) : Prop :=
  ∀ last, allocated.getLast? = some last → last ∈ rows

variable {rows : List StoredEnvelope}

theorem le_maxSequence {row : StoredEnvelope} (member : row ∈ rows) :
    row.sequence ≤ maxSequence rows :=
  le_max?_getD_of_mem (mem_map_of_mem member)

/-- A positive maximum is the sequence of a row. -/
theorem maxSequence_mem (positive : 0 < maxSequence rows) :
    ∃ row ∈ rows, row.sequence = maxSequence rows := by
  rw [maxSequence] at positive ⊢
  cases greatest : (rows.map sequence).max? with
  | none => simp [greatest] at positive
  | some value => exact mem_map.mp (max?_mem greatest)

/-- The SQLite store numbers an envelope past the stored ones. -/
def numbering : Numbering where
  next := nextSequence
  Small sequence := sequence < 2 ^ 63
  Numbered allocated := ∀ envelope ∈ allocated, 0 < envelope.sequence
  Intact := Intact
  small_zero := by decide
  next_pos _ := succ_pos _
  numbered_nil := forall_mem_nil _
  numbered_concat allocated rows envelope numbered _ next other member := by
    rw [mem_append, mem_singleton] at member
    rcases member with earlier | rfl
    · exact numbered other earlier
    · rw [next]
      exact succ_pos _
  intact_iff allocated rows numbered increasing stored := by
    constructor
    · intro below last final
      have present : last ∈ allocated := mem_of_getLast? final
      have reaches : last.sequence ≤ maxSequence rows := le_of_lt_succ (below last present)
      obtain ⟨row, member, greatest⟩ :=
        maxSequence_mem (lt_of_lt_of_le (numbered last present) reaches)
      have bounded := increasing.le_last final (stored.mem member)
      have same : row = last := increasing.injective (stored.mem member) present (by omega)
      exact same ▸ member
    · intro intact envelope member
      cases final : allocated.getLast? with
      | none =>
        rw [getLast?_eq_none_iff.mp final] at member
        exact absurd member not_mem_nil
      | some last =>
        have bounded := increasing.le_last final member
        exact lt_succ_of_le (bounded.trans (le_maxSequence (intact last final)))

variable (chrono : Chrono)

/-- The purge removes rows by their texts, and nothing from a database in memory. -/
def purges (store : SqliteStore) (now : DateTime) (row : StoredEnvelope) : Bool :=
  store.path ≠ ":memory:" && purged chrono now row

variable (store : SqliteStore)

theorem rowsOf_filter (keep : StoredEnvelope → Bool) (recipientId : String) :
    rowsOf {store with rows := store.rows.filter keep} recipientId =
      (store.rowsOf recipientId).filter keep := by
  rw [rowsOf, rowsOf, filter_filter, filter_filter]
  apply filter_congr
  intro row _
  exact Bool.and_comm _ _

/-- The query brings the rows after the mark in the order of their sequences. -/
theorem query_eq_pending {since : Nat} (small : since < 2 ^ 63)
    (increasing : Increasing sequence rows) :
    ((rows.filter fun row => asI64 since < row.sequence).mergeSort
      fun first second => first.sequence ≤ second.sequence) =
      pending sequence rows since := by
  have later : (rows.filter fun row => asI64 since < row.sequence) =
      pending sequence rows since := by
    apply filter_congr
    intro row _
    simp only [asI64, if_pos small, Int.ofNat_lt]
  rw [later]
  apply mergeSort_of_pairwise
  exact (increasing.pending since).imp fun less => decide_eq_true less.le

/-- The query brings a front part of the pending rows. -/
theorem pull_deliveries {recipientId : String} {since limit : Nat} {now : DateTime}
    (small : since < 2 ^ 63)
    (increasing : Increasing sequence (store.rowsOf recipientId)) :
    (pull chrono store recipientId since limit now).map delivery =
      limited limit (pending Delivery.sequence
        ((store.rowsOf recipientId).map delivery) since) := by
  have same : delivery ∘ rowToEnvelope chrono now = delivery := rfl
  simp only [pull]
  rw [query_eq_pending small increasing, map_map, same, pending_deliveries, limited, limited]
  split
  · rfl
  · rw [map_take]

theorem limited_take {limit : Nat} {rows : List Delivery} :
    ∃ count, (0 < limit → 0 < count) ∧ limited limit rows = rows.take count := by
  rw [limited]
  split
  · exact ⟨rows.length + 1, fun _ => succ_pos _, (take_of_length_le (le_succ _)).symm⟩
  · exact ⟨limit, id, rfl⟩

/-- The rows of the SQLite store represent its mailboxes. -/
theorem represents : Represents (mailboxStore chrono) rowsOf (purges chrono) numbering where
  enqueue_new store envelope now sequence outcome := by
    simp only [mailboxStore, enqueue] at outcome ⊢
    cases found : (store.rowsOf envelope.recipientId).find? envelope.repeats with
    | some existing => simp [found, newSequence] at outcome
    | none =>
      simp only [found] at outcome ⊢
      split at outcome
      · next small =>
        simp only [newSequence, Option.bind_some, Bool.false_eq_true, if_false,
          Option.some.injEq] at outcome
        subst outcome
        refine ⟨rfl, small, fun recipientId => ?_⟩
        rw [if_pos small, rowsOf, filter_append]
        by_cases same : recipientId = envelope.recipientId
        · simp [same, rowsOf]
        · simp [same, Ne.symm same, rowsOf]
      · simp [newSequence] at outcome
  enqueue_old store envelope now outcome recipientId := by
    simp only [mailboxStore, enqueue] at outcome ⊢
    cases found : (store.rowsOf envelope.recipientId).find? envelope.repeats with
    | some existing => rfl
    | none =>
      simp only [found] at outcome ⊢
      split at outcome
      · simp [newSequence] at outcome
      · next large => rw [if_neg large]
  pull store recipientId since limit now small increasing := by
    obtain ⟨count, positive, front⟩ := limited_take
    exact ⟨count, positive, (pull_deliveries chrono store small increasing).trans front⟩
  ack store recipientId msgIds other := by
    simp only [mailboxStore, ack]
    split
    · next empty =>
      rw [isEmpty_iff.mp empty]
      simp
    · rw [rowsOf_filter]
      apply filter_congr
      intro row member
      have mine : row.recipientId = other := of_decide_eq_true (mem_filter.mp member).2
      rw [mine]
  purge store now recipientId := by
    simp only [mailboxStore, purgeExpired]
    split
    · next memory => simp [purges, memory]
    · next disk =>
      rw [rowsOf_filter]
      simp [purges, disk]

end SqliteStore
/-- On either store, the watermark protocol delivers in a whole run exactly when each call is
orderly: the memory store has lost none of the recipient's envelopes when a new one comes, the
SQLite store still has the newest one, and what is acknowledged or purged was received or has
expired. -/
theorem watermark_delivers_iff (owner : String) (chrono : Chrono) (path : String)
    (calls : List Call) :
    (Always (step MemoryStore.mailboxStore owner) (Delivers MemoryStore.mailboxStore owner)
        {store := {}} calls ↔
      Guarded (step MemoryStore.mailboxStore owner)
        (Orderly MemoryStore.mailboxStore MemoryStore.bucket MemoryStore.purges
          MemoryStore.Intact owner) {store := {}} calls) ∧
    (Always (step (SqliteStore.mailboxStore chrono) owner)
        (Delivers (SqliteStore.mailboxStore chrono) owner) {store := ⟨path, []⟩} calls ↔
      Guarded (step (SqliteStore.mailboxStore chrono) owner)
        (Orderly (SqliteStore.mailboxStore chrono) SqliteStore.rowsOf (SqliteStore.purges chrono)
          SqliteStore.Intact owner) {store := ⟨path, []⟩} calls) :=
  ⟨run_delivers_iff MemoryStore.represents rfl,
    run_delivers_iff (SqliteStore.represents chrono) rfl⟩

/-- The message that the sample sender leaves for the sample recipient. -/
def sampleEnvelope (msgId : String) : StoredEnvelope :=
  ⟨"alice", "bob", msgId, [], [], 0, 0, 100⟩

/-- The recipient receives and acknowledges the first message before the second one comes. -/
def sampleCalls : List Call :=
  [.enqueue (sampleEnvelope "m1") 0, .receive 10 1, .confirm, .enqueue (sampleEnvelope "m2") 2]

/-- On either store the second message gets the sequence of the first one again, which the watermark
already covers. -/
theorem delivery_skipped :
    (¬ ∀ (owner : String) (calls : List Call), Always (step MemoryStore.mailboxStore owner)
      (Delivers MemoryStore.mailboxStore owner) {store := {}} calls) ∧
    ¬ ∀ (owner : String) (chrono : Chrono) (path : String) (calls : List Call),
      Always (step (SqliteStore.mailboxStore chrono) owner)
        (Delivers (SqliteStore.mailboxStore chrono) owner) {store := ⟨path, []⟩} calls := by
  constructor
  · intro delivers
    have increasing := (delivers "bob" sampleCalls).final.increasing
    revert increasing
    unfold Increasing
    decide +kernel
  · intro delivers
    have increasing := (delivers "bob" ⟨fun _ => "", fun _ => none⟩ "mailbox.db"
      sampleCalls).final.increasing
    revert increasing
    unfold Increasing
    decide +kernel

end A3Net.Mailbox
