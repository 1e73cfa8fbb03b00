import A3Net.Construction.Dht.Bucket
import A3Net.Machine.Run

namespace A3Net.Dht

open Machine List

variable {Address : Type}

namespace KBucket

def ids (bucket : KBucket Address) : List NodeId := bucket.contacts.map Contact.id

variable (bucket : KBucket Address) (id : NodeId) {contact : Contact Address}

theorem find_isSome : (bucket.find id).isSome ↔ id ∈ bucket.ids := by
  simp [find, ids, find?_isSome]

theorem ids_replaceExisting {contacts : List (Contact Address)} :
    (replaceExisting contact contacts).map Contact.id = contacts.map Contact.id := by
  induction contacts with
  | nil => rfl
  | cons existing rest ih =>
    unfold replaceExisting
    split
    · next same => rw [map_cons, map_cons, same]
    · rw [map_cons, map_cons, ih]

/-- An insertion adds its contact at most once, and only while there is room. -/
theorem insert_ids :
    (bucket.insert contact).2.ids = bucket.ids ∨
      (contact.id ∉ bucket.ids ∧ bucket.ids.length < kbucketSize ∧
        (bucket.insert contact).2.ids = bucket.ids ++ [contact.id]) := by
  unfold insert
  split_ifs with known full
  · exact .inl (ids_replaceExisting)
  · exact .inl rfl
  · rw [find_isSome] at known
    refine .inr ⟨known, ?_, map_append⟩
    rw [ids, length_map]
    exact Nat.not_le.mp full

theorem remove_subperm : (bucket.remove id).2.ids.Subperm bucket.ids :=
  (eraseP_sublist.map Contact.id).subperm

theorem markSeen_subperm {now : Nat} : (bucket.markSeen id now).ids.Subperm bucket.ids := by
  unfold markSeen
  split
  · exact List.Subperm.refl _
  · next contact found =>
    -- The contact that is put at the back has the identifier of the one that is taken out.
    have here : contact.id = id := by simpa using find?_some found
    obtain ⟨gone, before, later, -, matched, split, erased⟩ :=
      exists_of_eraseP (mem_of_find?_eq_some found) (find?_some found)
    have same : gone.id = contact.id := (of_decide_eq_true matched).trans here.symm
    apply List.Perm.subperm
    simp only [ids]
    rw [erased, split]
    simp only [map_append, map_cons, map_nil, same, append_assoc]
    exact (perm_append_singleton contact.id _).append_left _

theorem removeAll_subperm (gone : List NodeId) (bucket : KBucket Address) :
    (bucket.removeAll gone).ids.Subperm bucket.ids := by
  induction gone generalizing bucket with
  | nil => exact List.Subperm.refl _
  | cons id rest ih => exact (ih (bucket.remove id).2).trans (bucket.remove_subperm id)

end KBucket

namespace RoutingTable

def bucketIds (table : RoutingTable Address) (index : Fin 256) : List NodeId :=
  (table.buckets index).ids

/-- This is the invariant of the routing table. -/
structure Sound (table : RoutingTable Address) : Prop where
  small : ∀ index, (table.bucketIds index).length ≤ kbucketSize
  once : (allKeys table.bucketIds).Nodup
  foreign : table.localId ∉ allKeys table.bucketIds
  placed : ∀ index, ∀ id ∈ table.bucketIds index, bucketIndex table.localId id = index

theorem indexFrom_le (index : Nat) (distance : Bytes) : indexFrom index distance ≤ 255 := by
  induction distance generalizing index with
  | nil => exact Nat.le_refl 255
  | cons byte rest ih =>
    unfold indexFrom
    split
    · exact Nat.min_le_right _ _
    · exact ih (index + 1)

variable (table : RoutingTable Address) (id : NodeId)

theorem bucketFor_val : (table.bucketFor id).val = bucketIndex table.localId id := by
  have bound : bucketIndex table.localId id ≤ 255 := indexFrom_le 0 _
  rw [bucketFor, Fin.val_ofNat, Nat.min_eq_left bound]
  exact Nat.mod_eq_of_lt (Nat.lt_succ_of_le bound)

theorem bucketFor_eq_iff {index : Fin 256} :
    table.bucketFor id = index ↔ bucketIndex table.localId id = index := by
  rw [← bucketFor_val, Fin.val_inj]

theorem Sound.filed {table : RoutingTable Address} (sound : Sound table) :
    Filed table.bucketFor table.bucketIds :=
  ⟨fun index id member => (table.bucketFor_eq_iff id).mpr (sound.placed index id member),
    sound.once⟩

theorem bucketIds_setBucketFor (bucket : KBucket Address) (index : Fin 256) :
    (table.setBucketFor id bucket).bucketIds index =
      if index = table.bucketFor id then bucket.ids else table.bucketIds index := by
  unfold bucketIds setBucketFor
  dsimp only
  rw [Function.update_apply]
  split <;> rfl

variable {after : RoutingTable Address} {table}

/-- Contacts may move inside their bucket or leave it. -/
theorem Sound.subperm (sound : Sound table) (same : after.localId = table.localId)
    (fewer : ∀ index, (after.bucketIds index).Subperm (table.bucketIds index)) : Sound after := by
  have filed := sound.filed.subperm fewer
  refine ⟨fun index => (fewer index).length_le.trans (sound.small index), filed.once, ?_, ?_⟩
  · intro known
    obtain ⟨index, member⟩ := mem_allKeys.mp known
    rw [same] at member
    exact sound.foreign (mem_allKeys.mpr ⟨index, (fewer index).subset member⟩)
  · intro index id member
    rw [same]
    exact sound.placed index id ((fewer index).subset member)

variable {bucket : KBucket Address}

section

variable (sound : Sound table)
include sound

/-- It is enough to look at the bucket that an operation replaces. -/
theorem Sound.setBucketFor (id : NodeId)
    (fewer : bucket.ids.Subperm (table.bucketIds (table.bucketFor id))) :
    Sound (table.setBucketFor id bucket) := by
  refine @Sound.subperm _ table (table.setBucketFor id bucket) sound rfl fun index => ?_
  rw [bucketIds_setBucketFor]
  split
  · next same =>
    rw [same]
    exact fewer
  · exact List.Subperm.refl _

theorem Sound.insertNew {contact : Contact Address} (other : contact.id ≠ table.localId)
    (fresh : contact.id ∉ table.bucketIds (table.bucketFor contact.id))
    (room : (table.bucketIds (table.bucketFor contact.id)).length < kbucketSize)
    (added : bucket.ids = table.bucketIds (table.bucketFor contact.id) ++ [contact.id]) :
    Sound (table.setBucketFor contact.id bucket) := by
  have atPlace : (table.setBucketFor contact.id bucket).bucketIds (table.bucketFor contact.id) =
      table.bucketIds (table.bucketFor contact.id) ++ [contact.id] := by
    rw [bucketIds_setBucketFor, if_pos rfl, added]
  have elsewhere : ∀ index, index ≠ table.bucketFor contact.id →
      (table.setBucketFor contact.id bucket).bucketIds index = table.bucketIds index := by
    intro index ne
    rw [bucketIds_setBucketFor, if_neg ne]
  have filed := sound.filed.insert fresh atPlace elsewhere
  refine ⟨fun index => ?_, filed.once, fun known => ?_, fun index id member => ?_⟩
  · by_cases same : index = table.bucketFor contact.id
    · rw [same, atPlace, length_append]
      exact room
    · rw [elsewhere index same]
      exact sound.small index
  · obtain ⟨index, member⟩ := mem_allKeys.mp known
    by_cases same : index = table.bucketFor contact.id
    · rw [same, atPlace, mem_append, mem_singleton] at member
      rcases member with old | own
      · exact sound.foreign (mem_allKeys.mpr ⟨_, old⟩)
      · exact other own.symm
    · rw [elsewhere index same] at member
      exact sound.foreign (mem_allKeys.mpr ⟨index, member⟩)
  · exact (table.bucketFor_eq_iff id).mp (filed.placed index id member)

theorem Sound.insert (contact : Contact Address) : Sound (table.insert contact).2 := by
  unfold RoutingTable.insert
  split_ifs with own
  · exact sound
  · rcases KBucket.insert_ids (table.buckets (table.bucketFor contact.id)) with
      same | ⟨fresh, room, added⟩
    · apply sound.setBucketFor
      rw [same]
      exact List.Subperm.refl _
    · exact sound.insertNew own fresh room added

/-- The new identifier must not be a contact, and no contact may change its bucket. -/
theorem Sound.setLocalId_iff (id : NodeId) :
    Sound (table.setLocalId id) ↔
      ∀ known ∈ allKeys table.bucketIds, known ≠ id ∧
        bucketIndex id known = bucketIndex table.localId known := by
  constructor
  · intro later known member
    refine ⟨fun same => later.foreign (same ▸ member), ?_⟩
    obtain ⟨index, inside⟩ := mem_allKeys.mp member
    exact (later.placed index known inside).trans (sound.placed index known inside).symm
  · intro stays
    refine ⟨sound.small, sound.once, fun own => (stays id own).1 rfl, ?_⟩
    intro index known member
    exact (stays known (mem_allKeys.mpr ⟨index, member⟩)).2.trans (sound.placed index known member)

end

variable (table : RoutingTable Address)

/-- A call keeps the contacts in place. Only a change of the local identifier can fail to. -/
def KeepsPlaces : TableCall Address → Prop
  | .setLocalId id =>
    ∀ known ∈ allKeys table.bucketIds, known ≠ id ∧
      bucketIndex id known = bucketIndex table.localId known
  | _ => True

theorem sound_new {localId : NodeId} : Sound (new localId : RoutingTable Address) := by
  have empty : allKeys (new localId : RoutingTable Address).bucketIds = [] :=
    flatMap_eq_nil_iff.mpr fun _ _ => rfl
  refine ⟨fun _ => Nat.zero_le _, ?_, ?_, fun _ _ member => absurd member not_mem_nil⟩
  · rw [empty]
    exact nodup_nil
  · rw [empty]
    exact not_mem_nil

theorem step_sound_iff (call : TableCall Address)
    (sound : Sound table) : Sound (table.step call) ↔ KeepsPlaces table call := by
  cases call with
  | setLocalId id => exact sound.setLocalId_iff id
  | addBootstrapNode contact =>
    exact iff_of_true ⟨sound.small, sound.once, sound.foreign, sound.placed⟩ trivial
  | insert contact => exact iff_of_true (sound.insert contact) trivial
  | markSeen id now =>
    exact iff_of_true (sound.setBucketFor id (KBucket.markSeen_subperm _ id)) trivial
  | remove id =>
    exact iff_of_true (sound.setBucketFor id (KBucket.remove_subperm _ id)) trivial
  | removeDeadContacts clock =>
    exact iff_of_true (sound.subperm rfl fun index => KBucket.removeAll_subperm _ _) trivial

/-- The invariant holds along a run exactly when no change of the local identifier meets a contact
that is the new identifier or belongs to another bucket under it. -/
theorem routingTable_sound_iff (localId : NodeId) (calls : List (TableCall Address)) :
    Always step Sound (new localId) calls ↔ Guarded step KeepsPlaces (new localId) calls :=
  always_iff_guarded step step_sound_iff (sound_new)

/-- This identifier is one byte and then zeros. -/
def exampleId (byte : UInt8) : NodeId :=
  ⟨Cryptography.hexChars (byte :: List.replicate 31 0)⟩

def exampleContact (byte : UInt8) : Contact Unit := ⟨exampleId byte, [()], 0, 0, false⟩

/-- After a change of the local identifier the same contact is inserted a second time. -/
theorem setLocalId_duplicates :
    ¬ ∀ (localId : NodeId) (calls : List (TableCall Unit)),
      Always step Sound (new localId) calls := by
  intro all
  have sound := (all (exampleId 0) [.insert (exampleContact 0x80), .setLocalId (exampleId 0xff),
    .insert (exampleContact 0x80)]).final
  have twice := sound.once
  revert twice
  decide +kernel

end RoutingTable
end A3Net.Dht
