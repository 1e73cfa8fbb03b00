/-
The store checks that a key is a key and that a packet is there, and no signature.
-/

import A3Net.Construction.DnsServer.Pkarr
import A3Net.Machine.Run

namespace A3Net.DnsServer

open Cryptography Machine PkarrApi

/-- An ideal signature scheme tells which packets and which deletions a public key signed. -/
structure Signatures where
  packet : Bytes → Bytes → Bool
  deletion : Bytes → Bytes → Bool

def PkarrApi.packetAt {Zone : Type} (api : PkarrApi Zone) (z32 : List Char) : Option Bytes :=
  (api.store.inner.lookup z32).map PkarrRecord.packet

/-- The request carries a signature of the key over the packet that it leaves, or over the
deletion. -/
def Request.SignedBy (signatures : Signatures) (key : Bytes) (req : Request)
    (left : Option Bytes) : Prop :=
  match req with
  | .publish _ packet _ => left = some packet ∧ signatures.packet key packet
  | .delete _ credential => left = none ∧ signatures.deletion key credential

variable {Zone : Type} (lib : Library) (zones : ZoneInterface Zone) (signatures : Signatures)
  (api : PkarrApi Zone)

/-- A packet changes or disappears only through a request that its key signed. -/
def SelfCertified (call : Call) : Prop :=
  ∀ z32 key, z32Decode z32 = some key →
    (api.serve lib zones call).packetAt z32 ≠ api.packetAt z32 →
      call.request.SignedBy signatures key ((api.serve lib zones call).packetAt z32)

/-- The store takes the packet. -/
def PkarrStore.Takes (store : PkarrStore) (z32 : List Char) (packet : Bytes) : Prop :=
  validateZ32Pubkey lib z32 = .ok () ∧ packet ≠ [] ∧ validateZone lib store.zone = .ok ()

/-- The client signed what the request changes, although the handler does not look. -/
def Signed (call : Call) : Prop :=
  match call.request with
  | .publish z32 packet _ =>
    api.store.Takes lib z32 packet → api.packetAt z32 ≠ some packet →
      ∀ key, z32Decode z32 = some key → signatures.packet key packet
  | .delete z32 credential =>
    validateZ32Pubkey lib z32 = .ok () → api.packetAt z32 ≠ none →
      ∀ key, z32Decode z32 = some key → signatures.deletion key credential

section Effects

variable {lib} {zones}

@[simp] theorem PkarrStore.persist_inner (store : PkarrStore) (fault : Option PkarrError) :
    (store.persist fault).2.inner = store.inner := by
  simp only [persist]
  split
  · rfl
  · cases fault <;> rfl

variable {z32 : List Char} {api : PkarrApi Zone} {packet : Bytes} {store : PkarrStore}

theorem PkarrStore.publish_inner_of_takes (taken : store.Takes lib z32 packet)
    (ttlSecs : UInt32) (fault : Option PkarrError) :
    (store.publish lib z32 packet ttlSecs fault).2.inner =
      store.inner.insert z32 ⟨store.zone, packet, min ttlSecs maxTtlSeconds⟩ := by
  obtain ⟨valid, present, zoned⟩ := taken
  have full : packet.isEmpty = false := by
    rw [List.isEmpty_eq_false_iff]
    exact present
  have made : PkarrRecord.inZone lib store.zone packet ttlSecs =
      .ok ⟨store.zone, packet, min ttlSecs maxTtlSeconds⟩ := by
    rw [PkarrRecord.inZone, zoned]
    rfl
  simp only [publish, valid, full, made, Bool.false_eq_true, if_false, persist_inner]

theorem PkarrStore.publish_inner_of_not_takes (refused : ¬store.Takes lib z32 packet)
    (ttlSecs : UInt32) (fault : Option PkarrError) :
    (store.publish lib z32 packet ttlSecs fault).2.inner = store.inner := by
  simp only [publish]
  split
  · rfl
  next valid =>
  split
  · rfl
  next present =>
  split
  · rfl
  next record made =>
  have zoned : validateZone lib store.zone = .ok () := by
    simp only [PkarrRecord.inZone] at made
    cases checked : validateZone lib store.zone with
    | error error =>
      rw [checked] at made
      cases made
    | ok => rfl
  exact absurd ⟨valid, fun empty => present (by rw [empty]; rfl), zoned⟩ refused

theorem PkarrApi.publish_store
    (ttlSecs : Option UInt32) (nowUnixMs : Int) (fault : Option PkarrError) :
    (api.publish lib zones z32 packet ttlSecs nowUnixMs fault).2.store =
      (api.store.publish lib z32 packet (ttlSecs.getD 3600) fault).2 := by
  rw [publish]
  split
  · next failed => rw [failed]
  · next stored => rw [stored]

theorem PkarrApi.delete_inner_of_valid (valid : validateZ32Pubkey lib z32 = .ok ())
    (fault : Option PkarrError) (other : List Char) :
    (api.delete lib zones z32 fault).2.store.inner.lookup other =
      if other = z32 then none else api.store.inner.lookup other := by
  simp only [delete, valid]
  split
  · next absent =>
    split
    · next same =>
      rw [same]
      exact Option.isNone_iff_eq_none.mp absent
    · rfl
  · have erased : ∀ store : PkarrStore, store.inner = api.store.inner.erase z32 →
        store.inner.lookup other = if other = z32 then none else api.store.inner.lookup other := by
      intro store same
      rw [same, Table.lookup_erase_eq]
    have kept := PkarrStore.persist_inner { api.store with inner := api.store.inner.erase z32 } fault
    split
    · next failed =>
      rw [failed] at kept
      exact erased _ kept
    · next written =>
      rw [written] at kept
      exact erased _ kept

variable {fault : Option PkarrError} {other : List Char} {ttlSecs : Option UInt32} {nowUnixMs : Int}

/-- A packet that the store takes replaces the packet of its key and no other. -/
theorem packetAt_publish_of_takes {zones : ZoneInterface Zone}
    (taken : api.store.Takes lib z32 packet) :
    (api.publish lib zones z32 packet ttlSecs nowUnixMs fault).2.packetAt other =
      if other = z32 then some packet else api.packetAt other := by
  simp only [packetAt]
  rw [publish_store, PkarrStore.publish_inner_of_takes taken, Table.lookup_insert_eq]
  split <;> rfl

/-- A deletion takes the packet of a valid key away and no other. -/
theorem packetAt_delete_of_valid {zones : ZoneInterface Zone}
    (valid : validateZ32Pubkey lib z32 = .ok ()) :
    (api.delete lib zones z32 fault).2.packetAt other =
      if other = z32 then none else api.packetAt other := by
  simp only [packetAt]
  rw [delete_inner_of_valid valid]
  split <;> rfl

theorem PkarrApi.delete_of_not_valid (refused : validateZ32Pubkey lib z32 ≠ .ok ()) :
    (api.delete lib zones z32 fault).2 = api := by
  simp only [delete]
  split
  · rfl
  · next valid => exact absurd valid refused

end Effects

/-- A request that leaves one packet at its key is certified when that change is signed. -/
theorem certified_iff {z32 : List Char} {after before : List Char → Option Bytes}
    {left : Option Bytes} {Taken : Prop} {Holds : Bytes → Prop}
    (does : Taken → ∀ other, after other = if other = z32 then left else before other)
    (keeps : ¬ Taken → ∀ other, after other = before other) :
    (∀ other key, z32Decode other = some key → after other ≠ before other →
        after other = left ∧ Holds key) ↔
      (Taken → before z32 ≠ left → ∀ key, z32Decode z32 = some key → Holds key) := by
  constructor
  · intro certified taken changes key decoded
    have signed := certified z32 key decoded
    rw [does taken z32, if_pos rfl] at signed
    exact (signed changes.symm).2
  · intro signed other key decoded changed
    by_cases taken : Taken
    · rw [does taken] at changed ⊢
      split at changed
      · next same =>
        rw [same] at decoded changed
        rw [if_pos same]
        exact ⟨rfl, signed taken changed.symm key decoded⟩
      · exact absurd rfl changed
    · exact absurd (keeps taken other) changed

/-- Over a whole run the packets are self-certifying exactly when the clients sign what they
change. -/
theorem self_certifying_iff (api : PkarrApi Zone) (calls : List Call) :
    Guarded (PkarrApi.serve lib zones) (SelfCertified lib zones signatures) api calls ↔
      Guarded (PkarrApi.serve lib zones) (Signed lib signatures) api calls := by
  apply guarded_congr
  rintro api ⟨req, nowUnixMs, fault⟩
  cases req with
  | publish z32 packet ttlSecs =>
    apply certified_iff fun taken other => packetAt_publish_of_takes taken
    intro refused other
    simp only [packetAt]
    rw [publish_store, PkarrStore.publish_inner_of_not_takes refused]
  | delete z32 credential =>
    apply certified_iff fun valid other => packetAt_delete_of_valid valid
    intro refused other
    exact congrArg (packetAt · other) (delete_of_not_valid refused)

/-- Every point is on the curve of this library. -/
def sampleLibrary : Library := ⟨String.ofList, fun _ => .ok ()⟩

def sampleZones : ZoneInterface Unit :=
  ⟨fun _ => ['a', '.', 'b'], fun zone _ => (.ok (), zone), fun zone _ => (.ok (), zone)⟩

def sampleApi : PkarrApi Unit := ⟨⟨['a', '.', 'b'], false, ∅, none⟩, ()⟩

/-- This is the text of the key of zeros. -/
def zeroKey : List Char := List.replicate 52 'y'

def ownPacket : Bytes := List.replicate 32 0 ++ [7]

/-- The owner of the key publishes a packet, and then a client that signed nothing publishes another
one. -/
def overwriting : List Call :=
  [⟨.publish zeroKey ownPacket none, 0, none⟩, ⟨.publish zeroKey [1] none, 0, none⟩]

/-- The second packet replaces the first one, whatever the signatures are. -/
theorem not_self_certifying :
    (Machine.run (PkarrApi.serve sampleLibrary sampleZones) sampleApi overwriting).packetAt
        zeroKey = some [1] ∧
      ∀ signatures : Signatures, signatures.packet (List.replicate 32 0) [1] = false →
        ¬Guarded (PkarrApi.serve sampleLibrary sampleZones)
          (SelfCertified sampleLibrary sampleZones signatures) sampleApi overwriting := by
  have decoded : z32Decode zeroKey = some (List.replicate 32 0) := by decide +kernel
  have first : ((sampleApi.serve sampleLibrary sampleZones
      ⟨.publish zeroKey ownPacket none, 0, none⟩).packetAt zeroKey) = some ownPacket := by
    decide +kernel
  have second : (Machine.run (serve sampleLibrary sampleZones) sampleApi
      overwriting).packetAt zeroKey = some [1] := by decide +kernel
  refine ⟨second, fun signatures unsigned guarded => ?_⟩
  have certified := guarded.2.1 zeroKey (List.replicate 32 0) decoded
  rw [first] at certified
  have ne : some [1] ≠ some ownPacket := by decide
  have signed := certified fun same => ne (second.symm.trans same)
  exact Bool.false_ne_true (unsigned.symm.trans signed.2)

end A3Net.DnsServer
