import A3Net.Construction.Dht.Handler

namespace A3Net.Dht

open Cryptography

namespace InMemoryDhtStore

variable (store : InMemoryDhtStore)

theorem recordsAt_putProvider (key other : DhtKey) (record : ProviderRecord) :
    (store.putProvider key record).2.recordsAt other =
      if other = key then
        (store.recordsAt key).filter (fun old => old.providerId ≠ record.providerId) ++ [record]
      else store.recordsAt other := by
  unfold putProvider recordsAt
  rw [Table.lookup_insert_eq]
  split <;> rfl

/-- A provider has the same records under every key. -/
def SameRecords (provider : NodeId) (first second : InMemoryDhtStore) : Prop :=
  ∀ key record, record.providerId = provider →
    (record ∈ first.recordsAt key ↔ record ∈ second.recordsAt key)

/-- The record is the only one that its provider has under the key. -/
def Only (store : InMemoryDhtStore) (key : DhtKey) (record : ProviderRecord) : Prop :=
  record ∈ store.recordsAt key ∧
    ∀ old ∈ store.recordsAt key, old.providerId = record.providerId → old = record

/-- A record changes nothing for its provider exactly when it was there alone. -/
theorem putProvider_sameRecords_iff (key : DhtKey) (record : ProviderRecord) :
    SameRecords record.providerId store (store.putProvider key record).2 ↔
      store.Only key record := by
  have after : ∀ old, old.providerId = record.providerId →
      (old ∈ (store.putProvider key record).2.recordsAt key ↔ old = record) := by
    intro old own
    simp [recordsAt_putProvider, own]
  constructor
  · intro same
    constructor
    · exact (same key record rfl).mpr ((after record rfl).mpr rfl)
    · intro old member own
      exact (after old own).mp ((same key old own).mp member)
  · intro only other old own
    by_cases here : other = key
    · rw [here, after old own]
      constructor
      · intro member
        exact only.2 old member own
      · intro equal
        rw [equal]
        exact only.1
    · rw [recordsAt_putProvider, if_neg here]

end InMemoryDhtStore

namespace DhtProtocolHandler

variable {Address : Type} (seen : Nat)

theorem store_handleAddProvider (now : UInt64) (handler : DhtProtocolHandler Address)
    (payload : AddProviderPayload) :
    (handler.handleAddProvider seen now payload).2.store =
      (handler.store.putProvider ⟨payload.key⟩ (recordOf now payload)).2 := by
  show ((handler.updateRoutingTable seen payload.senderId).store.putProvider _ _).2 = _
  unfold updateRoutingTable
  split <;> rfl

/-- The provider signed the announced record. -/
def Signed (verifier : Verifier) (now : UInt64) (payload : AddProviderPayload) : Prop :=
  (recordOf now payload).verifySignature verifier = some true

/-- An announcement without a valid signature leaves the records of its provider. -/
def Authentic (verifier : Verifier) (now : UInt64) (handler : DhtProtocolHandler Address)
    (payload : AddProviderPayload) : Prop :=
  ¬ Signed verifier now payload →
    InMemoryDhtStore.SameRecords payload.provider.providerId handler.store
      (handler.handleAddProvider seen now payload).2.store

/-- The handler looks at no signature: it is right for signed announcements and for those that
repeat the only record of the provider. -/
theorem handleAddProvider_authentic_iff (verifier : Verifier) (now : UInt64)
    (handler : DhtProtocolHandler Address) (payload : AddProviderPayload) :
    handler.Authentic seen verifier now payload ↔
      Signed verifier now payload ∨ handler.store.Only ⟨payload.key⟩ (recordOf now payload) := by
  have stored := InMemoryDhtStore.putProvider_sameRecords_iff handler.store ⟨payload.key⟩
    (recordOf now payload)
  unfold Authentic
  rw [store_handleAddProvider, ← stored]
  exact or_iff_not_imp_left.symm

def sampleNode : NodeId := ⟨List.replicate 64 'a'⟩

/-- The node announced itself. -/
def honestRecord : ProviderRecord := ⟨⟨[1]⟩, sampleNode, "10.0.0.1:1", 60, 0, some [7]⟩

/-- Somebody announces another address for the node without a signature. -/
def forgedPayload : AddProviderPayload where
  key := [1]
  provider := ⟨sampleNode, ["6.6.6.6:1"], 60, none⟩
  requestId := "r"
  senderId := ⟨List.replicate 64 'b'⟩

/-- The record of the node is lost to a record that it did not sign, whatever signatures are. -/
theorem handleAddProvider_forged :
    ¬ ∃ verifier : Verifier, ∀ (seen : Nat) (now : UInt64)
      (handler : DhtProtocolHandler String) (payload : AddProviderPayload),
      handler.Authentic seen verifier now payload := by
  intro secure
  obtain ⟨verifier, authentic⟩ := secure
  let store : InMemoryDhtStore := {providers := AList.singleton ⟨[1]⟩ [honestRecord]}
  have unsigned : ¬ Signed verifier 0 forgedPayload := by
    intro signed
    cases signed
  have same := authentic 0 0 ⟨sampleNode, .new sampleNode, store⟩ forgedPayload unsigned
  have kept := (same ⟨[1]⟩ honestRecord rfl).mp (by decide)
  exact absurd kept (by decide)

end DhtProtocolHandler
/-
The node identifier of a provider is signed as the bytes that its text stands for, and the text may
be written in either case.
-/

namespace ProviderRecord

/-- The length of each field fits in four bytes. -/
def Short (record : ProviderRecord) : Prop :=
  record.key.bytes.length < 2 ^ 32 ∧ (∀ node ∈ record.providerId.asBytes, node.length < 2 ^ 32) ∧
    (utf8 record.providerAddr).length < 2 ^ 32

variable (first second : ProviderRecord)

def Agree : Prop :=
  first.key = second.key ∧ first.providerId = second.providerId ∧
    first.providerAddr = second.providerAddr ∧ first.ttlSecs = second.ttlSecs

def SameSpelling : Prop :=
  first.providerId.text.map Char.isUpper = second.providerId.text.map Char.isUpper

end ProviderRecord

namespace IpnRecord

def Short (record : IpnRecord) : Prop :=
  record.name.bytes.length < 2 ^ 32 ∧ (utf8 record.value).length < 2 ^ 32

def Agree (first second : IpnRecord) : Prop :=
  first.name = second.name ∧ first.value = second.value ∧ first.sequence = second.sequence ∧
    first.created = second.created ∧ first.expires = second.expires

end IpnRecord

/-- The length of a signed field stands in four bytes. -/
theorem signedField_injective {first second rest others : Bytes} (short : first.length < 2 ^ 32)
    (otherShort : second.length < 2 ^ 32)
    (same : bigEndian 4 first.length ++ (first ++ rest) =
      bigEndian 4 second.length ++ (second ++ others)) : first = second ∧ rest = others :=
  framed_injective 4 (bigEndian 4) (fun _ => bigEndian_length 4)
    (ofBigEndian_bigEndian 4 short) (ofBigEndian_bigEndian 4 otherShort) same

theorem IpnRecord.agree_of_signingData {first second : IpnRecord} (short : first.Short)
    (otherShort : second.Short) (same : first.signingData = second.signingData) :
    first.Agree second := by
  simp only [signingData, List.append_assoc] at same
  obtain ⟨names, same⟩ := signedField_injective short.1 otherShort.1 same
  obtain ⟨values, same⟩ := signedField_injective short.2 otherShort.2 same
  obtain ⟨sequences, same⟩ := bigEndian_append_injective same
  obtain ⟨created, expiries⟩ := bigEndian_append_injective same
  have words := bigEndian_injective 8 first.expires.toNat_lt second.expires.toNat_lt expiries
  exact ⟨congrArg DhtKey.mk names, utf8_injective values, sequences, created,
    UInt64.toNat_inj.mp words⟩

/-- Equal signing data binds all fields of both kinds of records, but the identifier of a provider
only up to the case of its letters. -/
theorem signing_data_binds_iff {first second : ProviderRecord} {data : Bytes} (short : first.Short)
    (otherShort : second.Short) (signed : first.signingData = some data)
    (otherSigned : second.signingData = some data) :
    (first.Agree second ↔ first.SameSpelling second) ∧
      ∀ one other : IpnRecord, one.Short → other.Short →
        one.signingData = other.signingData → one.Agree other := by
  refine ⟨⟨?_, fun spelling => ?_⟩, fun _ _ => IpnRecord.agree_of_signingData⟩
  · rintro ⟨-, ids, -⟩
    rw [ProviderRecord.SameSpelling, ids]
  · obtain ⟨node, decoded, flat⟩ := Option.bind_eq_some_iff.mp signed
    obtain ⟨other, otherDecoded, otherFlat⟩ := Option.bind_eq_some_iff.mp otherSigned
    have same := Option.some.inj (flat.trans otherFlat.symm)
    simp only [List.append_assoc] at same
    obtain ⟨keys, later⟩ := signedField_injective short.1 otherShort.1 same
    obtain ⟨rfl, last⟩ :=
      signedField_injective (short.2.1 _ decoded) (otherShort.2.1 _ otherDecoded) later
    obtain ⟨addresses, lifetimes⟩ := signedField_injective short.2.2 otherShort.2.2 last
    have ids := bytesOfHexChars_injective decoded otherDecoded spelling
    have words := bigEndian_injective 8 first.ttlSecs.toNat_lt second.ttlSecs.toNat_lt lifetimes
    exact ⟨congrArg DhtKey.mk keys, congrArg NodeId.mk ids, utf8_injective addresses,
      UInt64.toNat_inj.mp words⟩

def sampleRecord (text : List Char) : ProviderRecord := ⟨⟨[1]⟩, ⟨text⟩, "", 60, 0, none⟩

theorem sampleRecord_short : ∀ text ∈ [['a', 'b'], ['A', 'B']], (sampleRecord text).Short := by
  unfold ProviderRecord.Short
  decide

theorem signing_data_binds_cases :
    (sampleRecord ['a', 'b']).Agree (sampleRecord ['A', 'B']) ↔
      (sampleRecord ['a', 'b']).SameSpelling (sampleRecord ['A', 'B']) :=
  (signing_data_binds_iff (sampleRecord_short _ (by decide)) (sampleRecord_short _ (by decide))
    rfl rfl).1

/-- The signature of a provider is valid for the same identifier in capital letters. -/
theorem signing_data_recased :
    ¬ ∀ (first second : ProviderRecord) (data : Bytes), first.Short → second.Short →
      first.signingData = some data → second.signingData = some data → first.Agree second := by
  intro agree
  have same := agree (sampleRecord ['a', 'b']) (sampleRecord ['A', 'B']) _
    (sampleRecord_short _ (by decide)) (sampleRecord_short _ (by decide)) rfl rfl
  exact absurd same.2.1 (by decide)

end A3Net.Dht
