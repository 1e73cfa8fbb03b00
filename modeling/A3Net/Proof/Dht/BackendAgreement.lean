/-
The memory keeps a record for each provider, and the database keeps one for each key.
-/

import A3Net.Construction.Dht.RocksDb
import A3Net.Machine.Run

namespace A3Net.Dht

open Cryptography Machine List Table InMemoryDhtStore Option

/-- Provider lists are the same up to their order. -/
def StoreAnswer.Same : StoreAnswer → StoreAnswer → Prop
  | .providers first, .providers second => first.Perm second
  | first, second => first = second

/-- The three stores take the same calls. -/
structure Trio (Blob : Type) where
  memory : InMemoryDhtStore := {}
  rocksdb : RocksDbDhtStore Blob := {}
  tiered : TieredDhtStore Blob := {}
  clock : UInt64 := 0

/-- A name keeps its record or gets one with a greater sequence. -/
def DhtStorage.Forward {Store : Type} (storage : DhtStorage Store) (before after : Store) : Prop :=
  ∀ name old new, storage.getIpns before name = some old → storage.getIpns after name = some new →
    old = new ∨ old.sequence < new.sequence

namespace Trio

variable {Blob : Type} (codec : Codec Blob) (trio : Trio Blob)

def step (timed : TimedCall) : Trio Blob where
  memory := (InMemoryDhtStore.dhtStorage.serve trio.memory timed).2
  rocksdb := ((RocksDbDhtStore.dhtStorage codec).serve trio.rocksdb timed).2
  tiered := ((TieredDhtStore.dhtStorage codec).serve trio.tiered timed).2
  clock := timed.now

/-- The answers are the same, and no name goes back. -/
structure Agree (trio : Trio Blob) (timed : TimedCall) : Prop where
  rocksdb : ((InMemoryDhtStore.dhtStorage.serve trio.memory timed).1).Same
    ((RocksDbDhtStore.dhtStorage codec).serve trio.rocksdb timed).1
  tiered : ((InMemoryDhtStore.dhtStorage.serve trio.memory timed).1).Same
    ((TieredDhtStore.dhtStorage codec).serve trio.tiered timed).1
  memoryForward : InMemoryDhtStore.dhtStorage.Forward trio.memory (trio.step codec timed).memory
  rocksdbForward : (RocksDbDhtStore.dhtStorage codec).Forward trio.rocksdb
    (trio.step codec timed).rocksdb
  tieredForward : (TieredDhtStore.dhtStorage codec).Forward trio.tiered
    (trio.step codec timed).tiered

/-- The times do not decrease. -/
def Timely (timed : TimedCall) : Prop := trio.clock ≤ timed.now

end Trio

/-- Providers are asked for when only the newest record of the key may be live and that has no
signature, a name gets greater sequences, and nothing is expired when expired records are
removed. -/
def InMemoryDhtStore.Harmless (store : InMemoryDhtStore) (timed : TimedCall) : Prop :=
  match timed.call with
  | .getProviders key =>
    (∀ record ∈ (store.recordsAt key).dropLast, record.isExpired timed.now = true) ∧
      ∀ last, (store.recordsAt key).getLast? = some last → last.isExpired timed.now = false →
        last.signature = none
  | .putIpns name record => ∀ old, store.ipns.lookup name = some old → old.sequence < record.sequence
  | .removeExpiredProviders =>
    ∀ key, ∀ record ∈ store.recordsAt key, record.isExpired timed.now = false
  | .removeExpiredValues =>
    ∀ key value, store.values.lookup key = some value → value.isExpired timed.now = false
  | _ => True

theorem ProviderRecord.isExpired_mono {record : ProviderRecord} {first second : UInt64}
    (expired : record.isExpired first = true) (order : first ≤ second) :
    record.isExpired second = true := by
  have bound := UInt64.le_iff_toNat_le.mp order
  unfold isExpired at expired ⊢
  rw [decide_eq_true_eq] at expired ⊢
  omega

namespace InMemoryDhtStore

variable (store : InMemoryDhtStore) (now : UInt64)

theorem recordsAt_removeExpiredProviders (key : DhtKey) :
    (store.removeExpiredProviders now).2.recordsAt key = store.getProviders key now := by
  unfold removeExpiredProviders recordsAt getProviders recordsAt
  rw [lookup_keep, lookup_mapValues]
  cases store.providers.lookup key with
  | none => rfl
  | some records =>
    simp only [map_some, filter_some]
    split
    · rfl
    · next empty =>
      have nothing : (records.filter fun record => !record.isExpired now) = [] := by
        simpa using empty
      exact nothing.symm

/-- Nothing is removed exactly when nothing is expired. -/
theorem removeExpiredProviders_eq_zero :
    (store.removeExpiredProviders now).1 = 0 ↔
      ∀ key, ∀ record ∈ store.recordsAt key, record.isExpired now = false := by
  have kept : ∀ records : List ProviderRecord,
      records.length - (records.filter fun record => !record.isExpired now).length = 0 ↔
        ∀ record ∈ records, record.isExpired now = false := by
    intro records
    have bound := length_filter_le (fun record => !record.isExpired now) records
    rw [Nat.sub_eq_zero_iff_le, ← Nat.le_antisymm_iff.trans (and_iff_right bound),
      length_filter_eq_length_iff]
    simp
  simp only [removeExpiredProviders, List.sum_eq_zero_iff_forall_eq_nat, List.forall_mem_map,
    Table.mem_values_iff, forall_exists_index, recordsAt]
  constructor
  · intro zero key record member
    cases found : store.providers.lookup key with
    | none =>
      rw [found] at member
      exact absurd member not_mem_nil
    | some records =>
      rw [found] at member
      exact (kept records).mp (zero records key found) record member
  · intro live records key found
    apply (kept records).mpr
    intro record member
    apply live key
    rw [found]
    exact member

theorem removeExpiredValues_eq_zero :
    (store.removeExpiredValues now).1 = 0 ↔
      ∀ key value, store.values.lookup key = some value → value.isExpired now = false := by
  simp only [removeExpiredValues, length_eq_zero_iff, filter_eq_nil_iff,
    mem_values_iff, forall_exists_index, Bool.not_eq_true]
  exact ⟨fun live key value => live value key, fun live value key => live key value⟩

variable {record : IpnRecord} {name : DhtKey}

theorem putIpns_done_iff :
    (store.putIpns name record).1 = true ↔
      ∀ old, store.ipns.lookup name = some old → old.sequence < record.sequence := by
  unfold putIpns
  split
  · next existing found =>
    rw [found]
    split
    · next older => simpa using older
    · next newer => simpa using newer
  · next absent => simp [absent]

theorem putIpns_of_newer
    (newer : ∀ old, store.ipns.lookup name = some old → old.sequence < record.sequence) :
    store.putIpns name record = (true, {store with ipns := store.ipns.insert name record}) := by
  unfold putIpns
  split
  · next existing found =>
    rw [if_neg (UInt64.not_le.mpr (newer existing found))]
  · rfl

/-- The memory never goes back to an older record. -/
theorem forward_serve (timed : TimedCall) :
    dhtStorage.Forward store (dhtStorage.serve store timed).2 := by
  intro name old new before after
  have kept : store.ipns.lookup name = some new → old = new := fun same =>
    Option.some.inj (Eq.trans before.symm same)
  obtain ⟨call, now⟩ := timed
  cases call with
  | putIpns other record =>
    simp only [DhtStorage.serve, dhtStorage, putIpns, getIpns] at before after
    split at after
    · next existing found =>
      split at after
      · exact .inl (kept after)
      · next newer =>
        simp only [Prod.map_snd, id, lookup_insert_eq] at after
        split at after
        · next same =>
          rw [same, found] at before
          rw [← Option.some.inj before, ← Option.some.inj after]
          exact .inr (UInt64.not_le.mp newer)
        · exact .inl (kept after)
    · next absent =>
      simp only [Prod.map_snd, id, lookup_insert_eq] at after
      split at after
      · next same =>
        rw [same, absent] at before
        cases before
      · exact .inl (kept after)
  | _ => exact .inl (kept after)

end InMemoryDhtStore

variable {Blob : Type} {codec : Codec Blob}

open RocksDbDhtStore

/-- A key of the database has one of the three letters. -/
def Shaped (raw : Bytes) : Prop :=
  ∃ key, raw = makeKey providerByte key ∨ raw = makeKey ipnsByte key ∨ raw = makeKey valueByte key

/-- The database has the newest record of a key, unless that is expired and was deleted. -/
def ProvidersAt (codec : Codec Blob) (clock : UInt64) (records : List ProviderRecord)
    (blob : Option Blob) : Prop :=
  match records.getLast? with
  | none => blob = none
  | some last =>
    blob = some (codec.provider.encode last) ∨ blob = none ∧ last.isExpired clock = true

/-- The database has the newest providers, the names and the values of the memory and nothing
else. -/
structure Mirrors (codec : Codec Blob) (clock : UInt64) (memory : InMemoryDhtStore)
    (rocksdb : RocksDbDhtStore Blob) : Prop where
  providers : ∀ key, ProvidersAt codec clock (memory.recordsAt key)
    (rocksdb.db.lookup (makeKey providerByte key))
  ipns : ∀ name, rocksdb.db.lookup (makeKey ipnsByte name) =
    (memory.ipns.lookup name).map codec.ipns.encode
  values : ∀ key, rocksdb.db.lookup (makeKey valueByte key) =
    (memory.values.lookup key).map codec.value.encode
  shaped : ∀ raw blob, rocksdb.db.lookup raw = some blob → Shaped raw

variable {clock now : UInt64} {memory : InMemoryDhtStore} {rocksdb : RocksDbDhtStore Blob}

/-- The newest record is answered without its signature, unless it is expired. -/
def newestLive (records : List ProviderRecord) (now : UInt64) : List ProviderRecord :=
  ((records.getLast?.filter fun last => !last.isExpired now).map
    fun last => {last with signature := none}).toList

variable {records : List ProviderRecord}

theorem ProvidersAt.later {blob : Option Blob} (kept : ProvidersAt codec clock records blob)
    (order : clock ≤ now) : ProvidersAt codec now records blob := by
  unfold ProvidersAt at kept ⊢
  split
  · next absent =>
    rw [absent] at kept
    exact kept
  · next last found =>
    rw [found] at kept
    exact kept.imp_right fun gone => ⟨gone.1, ProviderRecord.isExpired_mono gone.2 order⟩

theorem Mirrors.later (mirrors : Mirrors codec clock memory rocksdb) (order : clock ≤ now) :
    Mirrors codec now memory rocksdb :=
  {mirrors with providers := fun key => (mirrors.providers key).later order}

theorem makeKey_injective {first : UInt8} : Function.Injective (makeKey first) := by
  intro key other same
  exact congrArg DhtKey.mk (List.cons.inj same).2

variable (store : RocksDbDhtStore Blob)

theorem lookup_put (first : UInt8) (key other : DhtKey) (blob : Blob) :
    (store.put (makeKey first key) blob).2.db.lookup (makeKey first other) =
      if other = key then some blob else store.db.lookup (makeKey first other) := by
  rw [put, lookup_insert_eq]
  exact if_congr (makeKey_injective).eq_iff rfl rfl

variable {blob : Blob}

section

variable {first second : UInt8} (ne : second ≠ first) (key other : DhtKey)
include ne

theorem lookup_delete_of_ne :
    (store.delete [makeKey first key]).db.lookup (makeKey second other) =
      store.db.lookup (makeKey second other) :=
  AList.lookup_erase_ne fun same => ne (List.cons.inj same).1

theorem lookup_put_of_ne :
    (store.put (makeKey first key) blob).2.db.lookup (makeKey second other) =
      store.db.lookup (makeKey second other) := by
  rw [put, lookup_insert_eq, if_neg]
  exact fun same => ne (List.cons.inj same).1

end

variable {raw : Bytes}

section

variable (mirrors : Mirrors codec clock memory rocksdb)
include mirrors

theorem Mirrors.shaped_put (fits : Shaped raw) (other : Bytes) (found : Blob)
    (stored : (rocksdb.put raw blob).2.db.lookup other = some found) : Shaped other := by
  rw [put, lookup_insert_eq] at stored
  split at stored
  · next same =>
    rw [same]
    exact fits
  · exact mirrors.shaped other found stored

variable (key : DhtKey)

theorem Mirrors.putProvider (record : ProviderRecord) :
    Mirrors codec clock (memory.putProvider key record).2
      (rocksdb.putProvider codec key record).2 where
  providers other := by
    rw [RocksDbDhtStore.putProvider, lookup_put, InMemoryDhtStore.putProvider]
    simp only [InMemoryDhtStore.recordsAt, Table.lookup_insert_eq]
    split
    · simp [ProvidersAt]
    · exact mirrors.providers other
  ipns name := (lookup_put_of_ne rocksdb (by decide) key name).trans (mirrors.ipns name)
  values other := (lookup_put_of_ne rocksdb (by decide) key other).trans (mirrors.values other)
  shaped := mirrors.shaped_put ⟨key, .inl rfl⟩

theorem Mirrors.putIpns (name : DhtKey) (record : IpnRecord) :
    Mirrors codec clock {memory with ipns := memory.ipns.insert name record}
      (rocksdb.putIpns codec name record).2 where
  providers other := by
    rw [RocksDbDhtStore.putIpns, lookup_put_of_ne rocksdb (by decide)]
    exact mirrors.providers other
  ipns other := by
    rw [RocksDbDhtStore.putIpns, lookup_put, lookup_insert_eq, mirrors.ipns]
    split <;> rfl
  values other := (lookup_put_of_ne rocksdb (by decide) name other).trans (mirrors.values other)
  shaped := mirrors.shaped_put ⟨name, .inr (.inl rfl)⟩

theorem Mirrors.putValue (value : DhtValue) :
    Mirrors codec clock (memory.putValue key value).2 (rocksdb.putValue codec key value).2 where
  providers other := by
    rw [RocksDbDhtStore.putValue, lookup_put_of_ne rocksdb (by decide)]
    exact mirrors.providers other
  ipns name := (lookup_put_of_ne rocksdb (by decide) key name).trans (mirrors.ipns name)
  values other := by
    rw [RocksDbDhtStore.putValue, lookup_put, InMemoryDhtStore.putValue, Table.lookup_insert_eq,
      mirrors.values]
    split <;> rfl
  shaped := mirrors.shaped_put ⟨key, .inr (.inr rfl)⟩

theorem Mirrors.getIpns (name : DhtKey) : rocksdb.getIpns codec name = memory.getIpns name := by
  rw [RocksDbDhtStore.getIpns, mirrors.ipns, InMemoryDhtStore.getIpns]
  cases memory.ipns.lookup name with
  | none => rfl
  | some record => exact codec.ipns.decode_encode record trivial

theorem Mirrors.getValue : rocksdb.getValue codec key = memory.getValue key := by
  rw [RocksDbDhtStore.getValue, mirrors.values, InMemoryDhtStore.getValue]
  cases memory.values.lookup key with
  | none => rfl
  | some value => exact codec.value.decode_encode value trivial

/-- The database answers with the newest record, or it deletes that because it is expired. -/
theorem Mirrors.getProviders_cases (order : clock ≤ now) {key : DhtKey} :
    rocksdb.getProviders codec key now = (newestLive (memory.recordsAt key) now, rocksdb) ∨
      ∃ last, (memory.recordsAt key).getLast? = some last ∧ last.isExpired now = true ∧
        rocksdb.getProviders codec key now = ([], rocksdb.delete [makeKey providerByte key]) := by
  have kept := (mirrors.providers key).later order
  unfold ProvidersAt at kept
  unfold RocksDbDhtStore.getProviders newestLive
  cases newest : (memory.recordsAt key).getLast? with
  | none =>
    rw [newest] at kept
    rw [kept]
    exact .inl rfl
  | some last =>
    rw [newest] at kept
    rcases kept with stored | ⟨absent, expired⟩
    · have parsed : (rocksdb.db.lookup (makeKey providerByte key)).bind codec.provider.decode =
          some {last with signature := none} := by
        rw [stored]
        exact codec.provider.decode_encode last trivial
      have same : ({last with signature := none} : ProviderRecord).isExpired now =
          last.isExpired now := rfl
      rw [parsed]
      simp only [same]
      cases expired : last.isExpired now with
      | false => simp [filter_some, expired]
      | true => exact .inr ⟨last, rfl, expired, rfl⟩
    · rw [absent]
      simp [filter_some, expired]

theorem Mirrors.deleted {key : DhtKey} {last : ProviderRecord}
    (newest : (memory.recordsAt key).getLast? = some last) (expired : last.isExpired clock = true) :
    Mirrors codec clock memory (rocksdb.delete [makeKey providerByte key]) where
  providers other := by
    by_cases same : other = key
    · rw [same, ProvidersAt, newest]
      exact .inr ⟨AList.lookup_erase .., expired⟩
    · rw [delete, foldl_cons, foldl_nil, AList.lookup_erase_ne ((makeKey_injective).ne same)]
      exact mirrors.providers other
  ipns name := (lookup_delete_of_ne rocksdb (by decide) key name).trans (mirrors.ipns name)
  values other := (lookup_delete_of_ne rocksdb (by decide) key other).trans (mirrors.values other)
  shaped raw blob found := by
    by_cases same : raw = makeKey providerByte key
    · exact ⟨key, .inl same⟩
    · exact mirrors.shaped raw blob ((AList.lookup_erase_ne same).symm.trans found)

theorem Mirrors.getProviders (order : clock ≤ now) (key : DhtKey) :
    Mirrors codec now memory (rocksdb.getProviders codec key now).2 := by
  rcases mirrors.getProviders_cases order with answer | ⟨last, newest, expired, answer⟩
  · rw [answer]
    exact mirrors.later order
  · rw [answer]
    exact (mirrors.later order).deleted newest expired

end

theorem mem_prefixIterator {store : RocksDbDhtStore Blob} {first : UInt8}
    (member : (raw, blob) ∈ store.prefixIterator first) :
    store.db.lookup raw = some blob ∧ [first] ≤ raw := by
  obtain ⟨stored, after⟩ := mem_filter.mp member
  obtain ⟨⟨other, same⟩, inside, equal⟩ := mem_map.mp stored
  obtain ⟨rfl, rfl⟩ := Prod.mk.inj equal
  exact ⟨AList.mem_lookup_iff.mpr inside, of_decide_eq_true after⟩

/-- The iterator does not meet the keys with a smaller letter. -/
theorem not_le_makeKey {first second : UInt8} (less : second < first) {key : DhtKey} :
    ¬[first] ≤ makeKey second key :=
  fun order => order (List.Lex.rel less)

section

variable (mirrors : Mirrors codec clock memory rocksdb)
include mirrors

/-- When nothing is expired in the memory, nothing is expired in the database. -/
theorem Mirrors.expiredProviders
    (live : ∀ key, ∀ record ∈ memory.recordsAt key, record.isExpired now = false) :
    rocksdb.expiredProviders codec now = [] := by
  rw [RocksDbDhtStore.expiredProviders, filter_eq_nil_iff]
  rintro ⟨raw, blob⟩ member
  obtain ⟨found, after⟩ := mem_prefixIterator member
  obtain ⟨key, rfl | rfl | rfl⟩ := mirrors.shaped _ _ found
  · have kept := mirrors.providers key
    rw [ProvidersAt, found] at kept
    cases newest : (memory.recordsAt key).getLast? with
    | none =>
      rw [newest] at kept
      cases kept
    | some last =>
      rw [newest] at kept
      rcases kept with same | ⟨contrary, _⟩
      · have alive := live key last (mem_of_getLast? newest)
        rw [Option.some.inj same, codec.provider.decode_encode _ trivial]
        simpa [ProviderRecord.isExpired] using alive
      · cases contrary
  · exact absurd after (not_le_makeKey (by decide))
  · have stored := mirrors.values key
    rw [found] at stored
    obtain ⟨value, _, printed⟩ := map_eq_some_iff.mp stored.symm
    rw [← printed, codec.value_not_provider]
    simp

theorem Mirrors.expiredValues
    (live : ∀ key value, memory.values.lookup key = some value → value.isExpired now = false) :
    rocksdb.expiredValues codec now = [] := by
  rw [RocksDbDhtStore.expiredValues, filter_eq_nil_iff]
  rintro ⟨raw, blob⟩ member
  obtain ⟨found, after⟩ := mem_prefixIterator member
  obtain ⟨key, rfl | rfl | rfl⟩ := mirrors.shaped _ _ found
  · exact absurd after (not_le_makeKey (by decide))
  · exact absurd after (not_le_makeKey (by decide))
  · have stored := mirrors.values key
    rw [found] at stored
    obtain ⟨value, own, printed⟩ := map_eq_some_iff.mp stored.symm
    rw [← printed, codec.value.decode_encode _ trivial]
    simpa using live key value own

/-- The mirror looks at the records, the names and the values of the memory only. -/
theorem Mirrors.of_same {other : InMemoryDhtStore}
    (records : ∀ key, other.recordsAt key = memory.recordsAt key)
    (ipns : ∀ name, other.ipns.lookup name = memory.ipns.lookup name)
    (values : ∀ key, other.values.lookup key = memory.values.lookup key) :
    Mirrors codec clock other rocksdb where
  providers key := by
    rw [records]
    exact mirrors.providers key
  ipns name := by
    rw [ipns]
    exact mirrors.ipns name
  values key := by
    rw [values]
    exact mirrors.values key
  shaped := mirrors.shaped

theorem Mirrors.removeExpiredProviders
    (live : ∀ key, ∀ record ∈ memory.recordsAt key, record.isExpired now = false) :
    Mirrors codec clock (memory.removeExpiredProviders now).2
      (rocksdb.removeExpiredProviders codec now).2 := by
  have same : (rocksdb.removeExpiredProviders codec now).2 = rocksdb := by
    simp only [RocksDbDhtStore.removeExpiredProviders, mirrors.expiredProviders live]
    rfl
  rw [same]
  refine mirrors.of_same (fun key => ?_) (fun _ => rfl) (fun _ => rfl)
  rw [InMemoryDhtStore.recordsAt_removeExpiredProviders, InMemoryDhtStore.getProviders,
    filter_eq_self]
  intro record member
  rw [live key record member]
  rfl

theorem Mirrors.removeExpiredValues
    (live : ∀ key value, memory.values.lookup key = some value → value.isExpired now = false) :
    Mirrors codec clock (memory.removeExpiredValues now).2
      (rocksdb.removeExpiredValues codec now).2 := by
  have same : (rocksdb.removeExpiredValues codec now).2 = rocksdb := by
    simp only [RocksDbDhtStore.removeExpiredValues, mirrors.expiredValues live]
    rfl
  rw [same]
  refine mirrors.of_same (fun _ => rfl) (fun _ => rfl) (fun key => ?_)
  simp only [InMemoryDhtStore.removeExpiredValues, Table.lookup_keep]
  cases found : memory.values.lookup key with
  | none => rfl
  | some value => simp [live key value found]

end

/-- The live records are at most the newest one, without a signature, exactly when the older ones are
expired and the newest one is expired or has no signature. -/
theorem live_perm_newest_iff :
    (records.filter fun record => !record.isExpired now).Perm (newestLive records now) ↔
      (∀ record ∈ records.dropLast, record.isExpired now = true) ∧
        ∀ last, records.getLast? = some last → last.isExpired now = false →
          last.signature = none := by
  unfold newestLive
  rcases eq_nil_or_concat records with rfl | ⟨others, last, rfl⟩
  · simp
  · rw [concat_eq_append, filter_append, getLast?_concat, dropLast_concat]
    have older_iff : (others.filter fun record => !record.isExpired now) = [] ↔
        ∀ record ∈ others, record.isExpired now = true := by
      simp [filter_eq_nil_iff]
    cases expired : last.isExpired now with
    | true =>
      simp only [filter_singleton, filter_some, expired, Bool.not_true, Bool.false_eq_true,
        if_false, cond_false, append_nil, map_none, toList_none, perm_nil, older_iff]
      refine ⟨fun older => ⟨older, fun newest found live => ?_⟩, And.left⟩
      rw [← Option.some.inj found, expired] at live
      cases live
    | false =>
      simp only [filter_singleton, filter_some, expired, Bool.not_false, if_true, cond_true,
        map_some, toList_some, perm_singleton, append_eq_singleton_iff, older_iff, cons_ne_nil,
        and_false, or_false, List.cons.injEq, and_true, Option.some.injEq, forall_eq', forall_const]
      refine and_congr_right fun _ => ⟨fun same => ?_, fun unsigned => ?_⟩
      · rw [same]
      · obtain ⟨key, providerId, providerAddr, ttlSecs, createdAt, sig⟩ := last
        rw [show sig = none from unsigned]

section

variable (mirrors : Mirrors codec clock memory rocksdb) (order : clock ≤ now)
include mirrors order

theorem Mirrors.getProviders_fst (key : DhtKey) :
    (rocksdb.getProviders codec key now).1 = newestLive (memory.recordsAt key) now := by
  rcases mirrors.getProviders_cases order with answer | ⟨last, newest, expired, answer⟩
  · rw [answer]
  · simp [answer, newestLive, newest, filter_some, expired]

variable {key : DhtKey}

/-- A record that the memory has not is not in the database either. -/
theorem Mirrors.getProviders_of_nil (nothing : memory.getProviders key now = []) :
    (rocksdb.getProviders codec key now).1 = [] := by
  rw [mirrors.getProviders_fst order, newestLive]
  cases newest : (memory.recordsAt key).getLast? with
  | none => rfl
  | some last =>
    have expired := filter_eq_nil_iff.mp nothing last (mem_of_getLast? newest)
    simp [filter_some, expired]

/-- The tiers together answer as their memory does. -/
theorem Mirrors.tiered_getProviders (key : DhtKey) :
    TieredDhtStore.getProviders codec ⟨memory, rocksdb⟩ key now =
      (memory.getProviders key now,
        if (memory.getProviders key now).isEmpty then
          ⟨memory, (rocksdb.getProviders codec key now).2⟩
        else ⟨memory, rocksdb⟩) := by
  unfold TieredDhtStore.getProviders
  cases found : memory.getProviders key now with
  | nil =>
    have nothing := mirrors.getProviders_of_nil order found
    simp [nothing]
  | cons record rest => rfl

/-- A live record in the memory is the newest one, so the database deletes nothing. -/
theorem Mirrors.getProviders_snd_of_live
    (older : ∀ record ∈ (memory.recordsAt key).dropLast, record.isExpired now = true)
    (live : memory.getProviders key now ≠ []) :
    (rocksdb.getProviders codec key now).2 = rocksdb := by
  rcases mirrors.getProviders_cases order with answer | ⟨last, newest, expired, answer⟩
  · rw [answer]
  · refine absurd (filter_eq_nil_iff.mpr fun record member => ?_) live
    have place := dropLast_append_getLast? last newest
    rw [← place, mem_append, mem_singleton] at member
    rcases member with early | rfl
    · simp [older record early]
    · simp [expired]

end

/-- The tiered store is made of the other two, and the database mirrors the memory. -/
structure Trio.Related (codec : Codec Blob) (trio : Trio Blob) : Prop where
  tiered : trio.tiered = ⟨trio.memory, trio.rocksdb⟩
  mirrors : Mirrors codec trio.clock trio.memory trio.rocksdb

theorem Trio.related_start : Trio.Related codec ({} : Trio Blob) where
  tiered := rfl
  mirrors := {
    providers := fun _ => rfl
    ipns := fun _ => rfl
    values := fun _ => rfl
    shaped := fun _ _ found => by cases found}

/-- The sum of two numbers is one of them and the other one too only when both are zero. -/
theorem removed_same_iff {first second : Nat} (zero : first = 0 → second = 0) :
    (StoreAnswer.Same (.removed first) (.removed second) ∧
        StoreAnswer.Same (.removed first) (.removed (first + second))) ↔ first = 0 := by
  simp only [StoreAnswer.Same, StoreAnswer.removed.injEq]
  omega

namespace Trio

variable {trio : Trio Blob} {timed : TimedCall}

section

variable (related : trio.Related codec)
include related

theorem Related.step (timely : trio.Timely timed)
    (harmless : trio.memory.Harmless timed) : (trio.step codec timed).Related codec := by
  obtain ⟨memory, rocksdb, tiered, clock⟩ := trio
  obtain ⟨call, now⟩ := timed
  obtain ⟨(rfl : tiered = ⟨memory, rocksdb⟩), mirrors⟩ := related
  have cur : Mirrors codec now memory rocksdb := mirrors.later timely
  cases call with
  | putProvider key record => exact ⟨rfl, cur.putProvider key record⟩
  | getProviders key =>
    refine ⟨?_, mirrors.getProviders timely key⟩
    change (TieredDhtStore.getProviders codec ⟨memory, rocksdb⟩ key now).2 =
      ⟨memory, (rocksdb.getProviders codec key now).2⟩
    rw [mirrors.tiered_getProviders timely]
    split
    · rfl
    · next some_ =>
      rw [mirrors.getProviders_snd_of_live timely harmless.1]
      intro nothing
      rw [nothing] at some_
      exact some_ rfl
  | removeExpiredProviders => exact ⟨rfl, cur.removeExpiredProviders harmless⟩
  | putIpns name record =>
    refine ⟨rfl, ?_⟩
    change Mirrors codec now (memory.putIpns name record).2 _
    rw [memory.putIpns_of_newer harmless]
    exact cur.putIpns name record
  | getIpns | getValue => exact ⟨rfl, cur⟩
  | putValue key value => exact ⟨rfl, cur.putValue key value⟩
  | removeExpiredValues => exact ⟨rfl, cur.removeExpiredValues harmless⟩

/-- The three answers are the same exactly when the call is harmless. -/
theorem Related.answers_iff (timely : trio.Timely timed) :
    ((dhtStorage.serve trio.memory timed).1.Same
          ((RocksDbDhtStore.dhtStorage codec).serve trio.rocksdb timed).1 ∧
        (dhtStorage.serve trio.memory timed).1.Same
          ((TieredDhtStore.dhtStorage codec).serve trio.tiered timed).1) ↔
      trio.memory.Harmless timed := by
  obtain ⟨memory, rocksdb, tiered, clock⟩ := trio
  obtain ⟨call, now⟩ := timed
  obtain ⟨(rfl : tiered = ⟨memory, rocksdb⟩), mirrors⟩ := related
  cases call with
  | putProvider | putValue => exact ⟨fun _ => trivial, fun _ => ⟨rfl, rfl⟩⟩
  | getProviders key =>
    change ((memory.getProviders key now).Perm (rocksdb.getProviders codec key now).1 ∧
      (memory.getProviders key now).Perm
        (TieredDhtStore.getProviders codec ⟨memory, rocksdb⟩ key now).1) ↔ _
    rw [mirrors.tiered_getProviders timely, mirrors.getProviders_fst timely]
    refine (and_iff_left (List.Perm.refl _)).trans ?_
    exact live_perm_newest_iff
  | removeExpiredProviders =>
    refine Iff.trans ?_ (memory.removeExpiredProviders_eq_zero now)
    apply removed_same_iff
    intro zero
    have live := (memory.removeExpiredProviders_eq_zero now).mp zero
    rw [mirrors.expiredProviders live]
    rfl
  | putIpns name record =>
    change (StoreAnswer.stored (memory.putIpns name record).1 = .stored true ∧
      StoreAnswer.stored (memory.putIpns name record).1 = .stored true) ↔ _
    rw [and_self, StoreAnswer.stored.injEq]
    exact memory.putIpns_done_iff
  | getIpns name =>
    refine ⟨fun _ => trivial, fun _ => ?_⟩
    change StoreAnswer.ipns (memory.getIpns name) = .ipns (rocksdb.getIpns codec name) ∧
      StoreAnswer.ipns (memory.getIpns name) =
        .ipns ((memory.getIpns name).or (rocksdb.getIpns codec name))
    rw [mirrors.getIpns, Option.or_self]
    exact ⟨rfl, rfl⟩
  | getValue key =>
    refine ⟨fun _ => trivial, fun _ => ?_⟩
    change StoreAnswer.value (memory.getValue key) = .value (rocksdb.getValue codec key) ∧
      StoreAnswer.value (memory.getValue key) =
        .value ((memory.getValue key).or (rocksdb.getValue codec key))
    rw [mirrors.getValue, Option.or_self]
    exact ⟨rfl, rfl⟩
  | removeExpiredValues =>
    refine Iff.trans ?_ (memory.removeExpiredValues_eq_zero now)
    apply removed_same_iff
    intro zero
    have live := (memory.removeExpiredValues_eq_zero now).mp zero
    rw [mirrors.expiredValues live]
    rfl

/-- Related stores have the same names. -/
theorem Related.getIpns (name : DhtKey) :
    (RocksDbDhtStore.dhtStorage codec).getIpns trio.rocksdb name =
        dhtStorage.getIpns trio.memory name ∧
      (TieredDhtStore.dhtStorage codec).getIpns trio.tiered name =
        dhtStorage.getIpns trio.memory name := by
  have same : trio.rocksdb.getIpns codec name = trio.memory.getIpns name :=
    related.mirrors.getIpns name
  refine ⟨same, ?_⟩
  rw [related.tiered]
  change (trio.memory.getIpns name).or (trio.rocksdb.getIpns codec name) = _
  rw [same, Option.or_self]
  rfl

theorem Related.agree_iff (timely : trio.Timely timed) :
    trio.Agree codec timed ↔ trio.memory.Harmless timed := by
  constructor
  · intro agree
    exact (related.answers_iff timely).mp ⟨agree.rocksdb, agree.tiered⟩
  · intro harmless
    obtain ⟨rocksdb, tiered⟩ := (related.answers_iff timely).mpr harmless
    have next := related.step timely harmless
    have forward := trio.memory.forward_serve timed
    refine ⟨rocksdb, tiered, forward, ?_, ?_⟩
    · intro name old new before after
      rw [(related.getIpns name).1] at before
      rw [(next.getIpns name).1] at after
      exact forward name old new before after
    · intro name old new before after
      rw [(related.getIpns name).2] at before
      rw [(next.getIpns name).2] at after
      exact forward name old new before after

end

end Trio

/-- Along a run whose times do not decrease, the three stores give the same answers and no name goes
back exactly when each call is harmless for the memory. -/
theorem storage_agrees_iff {Blob : Type} (codec : Codec Blob) (calls : List TimedCall)
    (timely : Guarded (Trio.step codec) Trio.Timely {} calls) :
    Guarded (Trio.step codec) (Trio.Agree codec) {} calls ↔
      Guarded (Trio.step codec) (fun trio timed => trio.memory.Harmless timed) {} calls := by
  apply guarded_congr_of _ (Trio.Related codec)
  · exact fun trio timed related timely => related.agree_iff timely
  · exact fun trio timed related timely harmless => related.step timely harmless
  · exact Trio.related_start
  · exact timely

/-- A blob is one of the three kinds of records itself. -/
def plainCodec : Codec (ProviderRecord ⊕ IpnRecord ⊕ DhtValue) where
  provider := {
    encode record := .inl {record with signature := none}
    decode blob := blob.getLeft?
    decode_encode _ _ := rfl}
  ipns := {
    encode record := .inr (.inl record)
    decode blob := blob.getRight?.bind Sum.getLeft?
    decode_encode _ _ := rfl}
  value := {
    encode record := .inr (.inr record)
    decode blob := blob.getRight?.bind Sum.getRight?
    decode_encode _ _ := rfl}
  value_not_provider _ := rfl

def numberedIpns (sequence : UInt64) : IpnRecord := ⟨⟨[1]⟩, "", sequence, 60, 0, 60, []⟩

def twoSequences (first second : UInt64) : List TimedCall :=
  [⟨.putIpns ⟨[1]⟩ (numberedIpns first), 0⟩, ⟨.putIpns ⟨[1]⟩ (numberedIpns second), 0⟩]

theorem twoSequences_agree :
    Guarded (Trio.step plainCodec) (Trio.Agree plainCodec) {} (twoSequences 1 2) := by
  apply (storage_agrees_iff plainCodec (twoSequences 1 2) ⟨UInt64.le_refl 0, UInt64.le_refl 0, trivial⟩).mpr
  refine ⟨fun old found => absurd found (some_ne_none old).symm, fun old found => ?_, trivial⟩
  obtain rfl : numberedIpns 1 = old := Option.some.inj found
  decide

/-- The database replaces a record by an older one that the memory refuses. -/
theorem storage_disagrees :
    ¬Guarded (Trio.step plainCodec) (Trio.Agree plainCodec) {} (twoSequences 2 1) ∧
      (RocksDbDhtStore.dhtStorage plainCodec).getIpns
        (run (Trio.step plainCodec) {} (twoSequences 2 1)).rocksdb ⟨[1]⟩ = some (numberedIpns 1) := by
  refine ⟨fun guarded => ?_, by decide⟩
  have answered := guarded.2.1.rocksdb
  cases answered

end A3Net.Dht
