import A3Net.Proof.Dht.RoutingInvariant

namespace A3Net.Dht.RoutingTable

open Machine List

variable {Address : Type} (table : RoutingTable Address)

def contacts : List (Contact Address) :=
  (List.finRange 256).flatMap fun index => (table.buckets index).contacts

/-- The contacts are distinct and foreign, and none of them is a bootstrap node. -/
structure Plain : Prop where
  sound : Sound table
  unaided : table.bootstrapNodes = []

theorem ids_contacts : table.contacts.map Contact.id = allKeys table.bucketIds :=
  map_flatMap

variable {table}

theorem Plain.closest_eq (plain : Plain table) {target : NodeId} (k : Nat) :
    table.closest target k = (table.contacts.mergeSort (nearer target)).take k := by
  have foreign : table.contacts.filter (fun contact => contact.id ≠ table.localId) =
      table.contacts := by
    apply filter_eq_self.mpr
    intro contact member
    apply decide_eq_true
    intro own
    apply plain.sound.foreign
    rw [← ids_contacts, ← own]
    exact mem_map_of_mem member
  rw [closest, plain.unaided, append_nil]
  exact congrArg (fun list => (List.mergeSort list _).take k) foreign

/-- These calls neither change the local identifier nor add a bootstrap node. -/
def Updates : TableCall Address → Prop
  | .setLocalId _ | .addBootstrapNode _ => False
  | _ => True

theorem Plain.step (plain : Plain table) {call : TableCall Address} (updates : Updates call) :
    Plain (table.step call) := by
  cases call with
  | setLocalId id | addBootstrapNode contact => exact updates.elim
  | markSeen id now | remove id | removeDeadContacts clock =>
    exact ⟨(step_sound_iff table _ plain.sound).mpr trivial, plain.unaided⟩
  | insert contact =>
    refine ⟨(step_sound_iff table _ plain.sound).mpr trivial, ?_⟩
    rw [RoutingTable.step, RoutingTable.insert]
    split_ifs
    · exact plain.unaided
    · exact plain.unaided

theorem plain_run {localId : NodeId} {calls : List (TableCall Address)}
    (updates : ∀ call ∈ calls, Updates call) : Plain (run step (new localId) calls) := by
  have guarded : Guarded step (fun _ => Updates) (new localId) calls :=
    guarded_of_invariant step (fun _ => True) (fun _ call member _ => updates call member)
      (fun _ _ _ => trivial) trivial
  exact (guarded.always step (fun _ _ plain => plain.step) ⟨sound_new, rfl⟩).final

/-- The result is the start of the contacts in order of their distance, and the contacts behind it
are no nearer. -/
theorem closest_correct (localId : NodeId) (calls : List (TableCall Address))
    (updates : ∀ call ∈ calls, Updates call) (target : NodeId) (k : Nat) :
    let table := run step (new localId) calls
    let found := table.closest target k
    (found.map Contact.id).Nodup ∧ found ⊆ table.contacts ∧
      found.length = min k table.contacts.length ∧
      found.Pairwise (fun first second =>
        first.id.xorDistance target ≤ second.id.xorDistance target) ∧
      ∀ left ∈ table.contacts, left ∉ found → ∀ contact ∈ found,
        contact.id.xorDistance target ≤ left.id.xorDistance target := by
  intro table found
  have plain : Plain table := plain_run updates
  let sorted := table.contacts.mergeSort (nearer target)
  have found_eq : found = sorted.take k := plain.closest_eq k
  have perm : sorted.Perm table.contacts := mergeSort_perm _ _
  have ordered : sorted.Pairwise fun first second =>
      first.id.xorDistance target ≤ second.id.xorDistance target := by
    refine (pairwise_mergeSort ?_ ?_ table.contacts).imp of_decide_eq_true
    · intro first second third
      simp only [decide_eq_true_eq]
      exact List.le_trans
    · intro first second
      simp only [Bool.or_eq_true, decide_eq_true_eq]
      exact List.le_total _ _
  have once : (sorted.map Contact.id).Nodup := by
    rw [(perm.map Contact.id).nodup_iff, ids_contacts]
    exact plain.sound.once
  rw [found_eq]
  refine ⟨?_, ?_, ?_, ordered.sublist (take_sublist k sorted), ?_⟩
  · exact once.sublist ((take_sublist k sorted).map Contact.id)
  · exact fun contact member => perm.subset (mem_of_mem_take member)
  · rw [length_take, perm.length_eq]
  · intro left member behind contact inFront
    rw [← take_append_drop k sorted] at ordered
    have later : left ∈ sorted.drop k := by
      have inside := perm.symm.subset member
      rw [← take_append_drop k sorted, mem_append] at inside
      exact inside.resolve_left behind
    exact (pairwise_append.mp ordered).2.2 contact inFront left later

theorem closest_pair :
    let table := run step (new (exampleId 0))
      [.insert (exampleContact 0x80), .insert (exampleContact 1)]
    (table.closest (exampleId 0x81) 1).length = min 1 table.contacts.length :=
  (closest_correct (exampleId 0) [.insert (exampleContact 0x80), .insert (exampleContact 1)]
    (by simp [Updates]) (exampleId 0x81) 1).2.2.1

end A3Net.Dht.RoutingTable
