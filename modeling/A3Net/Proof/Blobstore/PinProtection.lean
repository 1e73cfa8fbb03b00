import A3Net.Construction.Blobstore.PinSet
import A3Net.Machine.Run
import A3Net.Proof.Blobstore.StoreStaging

namespace A3Net.Blobstore

open Machine Program Store PinSet List ContentHash

inductive PinCall where
  | add (hash : ContentHash) (recursive : Bool) (descendants : List String) (nowUnix : Int)
  | addChunk (chunkHash : ContentHash) (nowUnix : Int)
  | remove (hash : ContentHash)
  | sweepOrphanChunks

/-- The record of a root lists the chunk. -/
def Lists (entries : Table String PinRecord) (root chunk : String) : Prop :=
  ∃ record, entries.lookup root = some record ∧ record.lists chunk = true

/-- The history knows the roots that were added and not removed since. A pair is expanded when the
chunk was added after the record of its root. -/
structure Pinning where
  pins : PinSet := {}
  roots : List String := []
  expanded : List (String × String) := []

namespace Pinning

variable (history : Pinning)

def entries : Table String PinRecord := history.pins.entries

def rootsListing (entries : Table String PinRecord) (chunk : String) : List String :=
  entries.keys.filter fun root => (entries.lookup root).any fun record => record.lists chunk

def step : PinCall → Pinning
  | .add hash recursive descendants nowUnix =>
    let (added, pins) := history.pins.add hash recursive descendants nowUnix
    {pins, roots := hash.asHex :: history.roots,
      expanded := if added then history.expanded.filter fun pair => pair.1 ≠ hash.asHex
        else history.expanded}
  | .addChunk chunkHash nowUnix =>
    {history with
      pins := (history.pins.addChunk chunkHash nowUnix).2,
      expanded := history.expanded ++
        (rootsListing history.entries chunkHash.asHex).map fun root => (root, chunkHash.asHex)}
  | .remove hash =>
    {history with
      pins := (history.pins.remove hash).2,
      roots := history.roots.filter fun root => root ≠ hash.asHex}
  | .sweepOrphanChunks => {history with pins := history.pins.sweepOrphanChunks.2}

/-- The content is an explicit root, or an expanded descendant of a root that is still pinned. -/
def Needed (key : String) : Prop :=
  key ∈ history.roots ∨ ∃ root, Lists history.entries root key ∧ (root, key) ∈ history.expanded

end Pinning

/-- A collection that reads the pins leaves the blob alone at each of its steps. -/
def Survives (pins : PinSet) (hash : ContentHash) : Prop :=
  ∀ (env : ContentHash → Surroundings) (names : List String) (disk : Store.Disk),
    (∀ later ∈ ((gcOrphans env names pins).execute ⟨disk, []⟩).2.disks,
      later (.blob hash) = disk (.blob hash)) ∧
    ∀ later ∈ ((gcUnpinned env names pins.pinnedHex).execute ⟨disk, []⟩).2.disks,
      later (.blob hash) = disk (.blob hash)

/-- All needed content is pinned, and no collection deletes it. -/
def Protects (history : Pinning) : Prop :=
  ∀ hash : ContentHash, history.Needed hash.asHex →
    history.pins.contains hash = true ∧ Survives history.pins hash

/-- These keys go when the key is removed. -/
def freed (entries : Table String PinRecord) (key : String) : List String :=
  match entries.lookup key with
  | some record => key :: record.descendants
  | none => []

/-- A removal frees nothing that another root needs, and a sweep finds no explicit root that is only
kept as a chunk. -/
def FreesOnlyOwn (history : Pinning) : PinCall → Prop
  | .remove hash => ∀ key ∈ freed history.entries hash.asHex,
      (key = hash.asHex ∨ key ∉ history.roots) ∧
        ∀ root ≠ hash.asHex, Lists history.entries root key → (root, key) ∉ history.expanded
  | .sweepOrphanChunks => ∀ key record, history.entries.lookup key = some record →
      record.kind = .chunk → key ∈ history.roots → PinSet.listed history.entries key = true
  | _ => True

variable (entries : Table String PinRecord) {pins : PinSet}

theorem lookup_insertNew (key other : String) (record : PinRecord) :
    (pins.insertNew key record).2.entries.lookup other =
      (pins.entries.lookup other).or (if other = key then some record else none) := by
  unfold insertNew
  split_ifs with there same same
  · subst same
    rw [Option.or_of_isSome there]
  · rw [Option.or_none]
  · subst same
    rw [Option.not_isSome_iff_eq_none.mp there]
    exact AList.lookup_insert pins.entries
  · rw [Option.or_none]
    exact AList.lookup_insert_ne same

theorem lookup_remove (hash : ContentHash) (other : String) :
    (pins.remove hash).2.entries.lookup other =
      if other ∈ freed pins.entries hash.asHex then none else pins.entries.lookup other := by
  unfold PinSet.remove freed
  cases found : pins.entries.lookup hash.asHex with
  | none => rfl
  | some record => exact Table.lookup_eraseAll pins.entries (hash.asHex :: record.descendants)

variable {chunk : String}

theorem listed_iff : listed entries chunk = true ↔ ∃ root, Lists entries root chunk := by
  unfold listed Lists
  rw [any_eq_true]
  constructor
  · rintro ⟨record, member, lists⟩
    obtain ⟨root, found⟩ := (Table.mem_values_iff entries).mp member
    exact ⟨root, record, found, lists⟩
  · rintro ⟨root, record, found, lists⟩
    exact ⟨record, (Table.mem_values_iff entries).mpr ⟨root, found⟩, lists⟩

variable {key : String}

theorem mem_chunkKeys :
    key ∈ chunkKeys entries ↔
      ∃ record, entries.lookup key = some record ∧ record.kind = .chunk := by
  unfold chunkKeys
  rw [mem_map]
  constructor
  · rintro ⟨⟨key, record⟩, member, rfl⟩
    obtain ⟨inside, kind⟩ := mem_filter.mp member
    exact ⟨record, AList.mem_lookup_iff.mpr inside, of_decide_eq_true kind⟩
  · rintro ⟨record, found, kind⟩
    exact ⟨⟨key, record⟩, mem_filter.mpr ⟨AList.mem_lookup_iff.mp found, decide_eq_true kind⟩, rfl⟩

/-- The entries after the sweep of some chunks. -/
def SweptOf (entries : Table String PinRecord) (done : List String)
    (swept : Table String PinRecord) : Prop :=
  ∀ key, swept.lookup key =
    if key ∈ done ∧ PinSet.listed entries key = false then none else entries.lookup key

variable {swept : Nat × Table String PinRecord} {done : List String}

/-- The sweep removes no root, so the same chunks stay listed. -/
theorem SweptOf.listed {entries swept : Table String PinRecord}
    (sweptOf : SweptOf entries done swept) (chunks : done ⊆ chunkKeys entries)
    (chunk : String) : listed swept chunk = listed entries chunk := by
  rw [Bool.eq_iff_iff, listed_iff, listed_iff]
  apply exists_congr
  intro root
  apply exists_congr
  intro record
  apply and_congr_left
  intro lists
  rw [sweptOf root]
  split_ifs with gone
  · constructor
    · intro impossible
      cases impossible
    · intro found
      obtain ⟨other, same, kind⟩ := (mem_chunkKeys entries).mp (chunks gone.1)
      rw [found] at same
      cases same
      simp [PinRecord.lists, kind] at lists
  · exact Iff.rfl

theorem SweptOf.step {entries : Table String PinRecord} (sweptOf : SweptOf entries done swept.2)
    (chunks : done ⊆ PinSet.chunkKeys entries) (chunk : String) :
    SweptOf entries (chunk :: done) (PinSet.sweepChunk swept chunk).2 := by
  intro key
  unfold PinSet.sweepChunk
  rw [sweptOf.listed chunks]
  by_cases same : key = chunk
  · subst same
    cases listed : PinSet.listed entries key with
    | false => simp [AList.lookup_erase]
    | true => simp [sweptOf key, listed]
  · have kept : (if PinSet.listed entries chunk = true then swept
        else (swept.1 + 1, swept.2.erase chunk)).2.lookup key = swept.2.lookup key := by
      split_ifs
      · rfl
      · exact AList.lookup_erase_ne same
    rw [kept, sweptOf key]
    simp [same]

theorem foldl_sweepChunk {entries : Table String PinRecord} {chunks : List String}
    (sweptOf : SweptOf entries done swept.2) (before : done ⊆ chunkKeys entries)
    (later : chunks ⊆ chunkKeys entries) :
    SweptOf entries (chunks.reverse ++ done) (chunks.foldl sweepChunk swept).2 := by
  induction chunks generalizing done swept with
  | nil => exact sweptOf
  | cons chunk rest ih =>
    obtain ⟨first, others⟩ := cons_subset.mp later
    rw [reverse_cons, append_assoc]
    exact ih (sweptOf.step before chunk) (cons_subset.mpr ⟨first, before⟩) others

/-- The sweep takes the chunks that no root lists. -/
theorem lookup_sweepOrphanChunks (key : String) :
    pins.sweepOrphanChunks.2.entries.lookup key =
      if key ∈ chunkKeys pins.entries ∧ listed pins.entries key = false then none
      else pins.entries.lookup key := by
  have start : SweptOf pins.entries [] (0, pins.entries).2 := fun key => by simp
  have swept := foldl_sweepChunk start (nil_subset _) (List.Subset.refl _) key
  simp only [append_nil, mem_reverse] at swept
  exact swept

/-- The blob is as it was. -/
def Same (kept : ContentHash) (start disk : Store.Disk) : Prop :=
  disk (.blob kept) = start (.blob kept)

variable {kept : ContentHash} {start : Store.Disk} {hash : ContentHash} {disk : Store.Disk}
  {names : List String}

theorem same_of_beside {before : Store.Disk} (ne : kept ≠ hash)
    (beside : Beside (.blob hash) before disk) (same : Same kept start before) :
    Same kept start disk := by
  have untouched := beside (.blob kept) fun equal => ne (Place.blob.inj equal)
  exact untouched.trans same

theorem remove_same {env : Surroundings} (ne : kept ≠ hash) :
    Safe (Same kept start) (Same kept start) (Same kept start) (remove env hash)
      fun _ => Same kept start := by
  apply Safe.look_bind
  intro value
  cases value with
  | none => exact Safe.pure fun _ held => held.1
  | some folder =>
    dsimp only
    split
    · apply Safe.bind fun _ => Same kept start
      · apply Safe.of_each
        rintro before ⟨same, found⟩
        have removed := @removeDirAll_keeps (.blob hash) before _ env .delete true_removable
        apply removed.weaken
        · rintro disk rfl
          exact ⟨fun _ _ => rfl, folder, found, trivial⟩
        · exact fun _ inside => same_of_beside ne inside.1 same
        · exact fun _ inside => same_of_beside ne inside.1 same
        · exact fun _ _ ended => same_of_beside ne ended.1 same
      · exact fun _ => Safe.pure fun _ held => held
    · exact Safe.throw fun _ held => held.1

theorem removeEach_same {env : ContentHash → Surroundings} {hashes : List ContentHash}
    (spared : kept ∉ hashes) :
    Safe (Same kept start) (Same kept start) (Same kept start) (removeEach env hashes)
      fun _ => Same kept start := by
  induction hashes with
  | nil => exact Safe.pure fun _ held => held
  | cons hash rest ih =>
    rw [mem_cons, not_or] at spared
    apply Safe.bind fun _ => Same kept start
    · apply (Safe.attempt (remove_same spared.1)).weaken
      · exact fun _ held => held
      · exact fun _ held => held
      · exact fun _ held => held
      · intro outcome disk held
        cases outcome <;> exact held
    · intro outcome
      apply Safe.bind _ (ih spared.2)
      intro removed
      split <;> exact Safe.pure fun _ held => held

theorem disks_same {Result : Type} {program : StoreProgram Result}
    (safe : Safe (Same kept start) (Same kept start) (Same kept start) program
      fun _ => Same kept start) :
    ∀ later ∈ (program.execute ⟨start, []⟩).2.disks, Same kept start later := by
  intro later member
  rcases (safe ⟨start, []⟩ rfl).1 later member with first | held
  · rw [mem_singleton.mp first]
    rfl
  · exact held

theorem fromHex_ok {text : String} (read : fromHex text = .ok hash) :
    hash.asHex = text.map Char.toLower := by
  unfold fromHex at read
  split_ifs at read
  cases read
  rfl

theorem mem_listComplete (listed : hash ∈ listComplete names disk) :
    ∃ name : String, hash.asHex = name.map Char.toLower := by
  obtain ⟨name, _, found⟩ := mem_filterMap.mp listed
  split_ifs at found
  split at found
  · next other read =>
    split_ifs at found
    cases found
    exact ⟨name, fromHex_ok read⟩
  · cases found

/-- A listed name is read back as the same hash. -/
theorem fromHex_listed {listed : ContentHash} (member : listed ∈ listComplete names disk)
    (read : fromHex listed.asHex = .ok hash) : hash.asHex = listed.asHex := by
  obtain ⟨name, lowered⟩ := mem_listComplete member
  have twice : Char.toLower ∘ Char.toLower = Char.toLower := funext toLower_toLower
  rw [fromHex_ok read, lowered, String.map_map, twice]

/-- A pinned blob is not deleted. -/
theorem survives_of_contains (pinned : pins.contains hash = true) : Survives pins hash := by
  intro env names disk
  constructor
  · apply disks_same
    apply Safe.look_bind
    intro all
    apply Safe.of_each
    rintro before ⟨same, rfl⟩
    apply Safe.bind fun _ => Same hash disk
    · apply Safe.from_pre (removeEach_same ?_) fun _ held => held ▸ same
      intro member
      obtain ⟨orphan, lost, read⟩ := mem_filterMap.mp member
      obtain ⟨stored, absent⟩ := mem_filter.mp lost
      obtain ⟨listed, complete, rfl⟩ := mem_map.mp stored
      cases parsed : fromHex listed.asHex with
      | error text => simp [parsed, Except.toOption] at read
      | ok other =>
        simp only [parsed, Except.toOption, Option.some.injEq] at read
        subst read
        rw [← fromHex_listed complete parsed] at absent
        simp [PinSet.contains] at pinned
        simp [pinned] at absent
    · exact fun _ => Safe.pure fun _ held => held
  · apply disks_same
    apply Safe.look_bind
    intro all
    apply Safe.bind fun _ => Same hash disk
    · apply Safe.from_pre (removeEach_same ?_) fun _ held => held.1
      intro member
      obtain ⟨_, absent⟩ := mem_filter.mp member
      have key : hash.asHex ∈ pins.pinnedHex :=
        AList.mem_keys.mp (AList.lookup_isSome.mp pinned)
      simp [key] at absent
    · exact fun _ => Safe.pure fun _ held => held

variable {history : Pinning}

theorem protects_iff (history : Pinning) :
    Protects history ↔ ∀ key, history.Needed key → (history.entries.lookup key).isSome = true := by
  constructor
  · intro protects key needed
    exact (protects ⟨key⟩ needed).1
  · intro pinned hash needed
    exact ⟨pinned hash.asHex needed, survives_of_contains (pinned hash.asHex needed)⟩

/-- Each root record was added explicitly and not removed since. -/
def RootsAdded (history : Pinning) : Prop :=
  ∀ key record, history.entries.lookup key = some record → record.kind = .root → key ∈ history.roots

variable {record : PinRecord}

theorem kind_of_lists (lists : record.lists chunk = true) : record.kind = .root := by
  simp only [PinRecord.lists, Bool.and_eq_true, decide_eq_true_eq] at lists
  exact lists.1.1

theorem isSome_insertNew {other : String}
    (there : other = key ∨ (pins.entries.lookup other).isSome = true) :
    ((pins.insertNew key record).2.entries.lookup other).isSome = true := by
  rw [lookup_insertNew]
  rcases there with rfl | there
  · simp
  · simp [there]

theorem insertNew_found {other : String} {found : PinRecord}
    (lookup : (pins.insertNew key record).2.entries.lookup other = some found) :
    pins.entries.lookup other = some found ∨
      (other = key ∧ found = record ∧ pins.entries.lookup key = none) := by
  rw [lookup_insertNew] at lookup
  cases old : pins.entries.lookup other with
  | some before =>
    rw [old] at lookup
    exact .inl lookup
  | none =>
    rw [old, Option.none_or] at lookup
    split_ifs at lookup with same
    cases lookup
    exact .inr ⟨same, rfl, same ▸ old⟩

variable {call : PinCall}

section

variable (protects : Protects history)
include protects

variable {nowUnix : Int}

/-- A new root keeps what was pinned. -/
theorem protects_add {recursive : Bool} {descendants : List String} :
    Protects (history.step (.add hash recursive descendants nowUnix)) := by
  rw [protects_iff] at protects ⊢
  intro key needed
  apply isSome_insertNew
  rcases needed with explicit | ⟨root, ⟨record, found, lists⟩, expanded⟩
  · rcases mem_cons.mp explicit with same | old
    · exact .inl same
    · exact .inr (protects key (.inl old))
  · right
    change (root, key) ∈ (if (history.pins.add hash recursive descendants nowUnix).1 then
      history.expanded.filter fun pair => pair.1 ≠ hash.asHex else history.expanded) at expanded
    rcases insertNew_found found with old | ⟨same, _, absent⟩
    · refine protects key (.inr ⟨root, ⟨record, old, lists⟩, ?_⟩)
      split_ifs at expanded
      · exact (mem_filter.mp expanded).1
      · exact expanded
    · -- The record is new, so its root has no expanded pair yet.
      have added : (history.pins.add hash recursive descendants nowUnix).1 = true := by
        simp [add, insertNew, absent]
      rw [if_pos added] at expanded
      exact absurd same (of_decide_eq_true (mem_filter.mp expanded).2)

/-- A new chunk keeps what was pinned. -/
theorem protects_addChunk {chunkHash : ContentHash} :
    Protects (history.step (.addChunk chunkHash nowUnix)) := by
  rw [protects_iff] at protects ⊢
  intro key needed
  apply isSome_insertNew
  rcases needed with explicit | ⟨root, ⟨record, found, lists⟩, expanded⟩
  · exact .inr (protects key (.inl explicit))
  · rcases mem_append.mp expanded with old | new
    · right
      rcases insertNew_found found with before | ⟨_, rfl, _⟩
      · exact protects key (.inr ⟨root, ⟨record, before, lists⟩, old⟩)
      · exact absurd (kind_of_lists lists) PinKind.noConfusion
    · left
      obtain ⟨other, _, pair⟩ := mem_map.mp new
      exact (Prod.mk.inj pair).2.symm

omit protects in
theorem mem_freed {entries : Table String PinRecord} (found : entries.lookup key = some record) :
    key ∈ freed entries key := by
  rw [freed, found]
  exact mem_cons_self

/-- A call that only takes entries away keeps what is needed exactly when it takes nothing needed. -/
theorem protects_thinned_iff {after : Pinning} {gone : String → Prop} [DecidablePred gone]
    (lookups : ∀ key, after.entries.lookup key =
      if gone key then none else history.entries.lookup key)
    (roots : after.roots ⊆ history.roots) (expanded : after.expanded = history.expanded) :
    Protects after ↔ ∀ key, after.Needed key → ¬ gone key := by
  rw [protects_iff] at protects ⊢
  refine forall₂_congr fun key needed => ?_
  have before : history.Needed key := by
    rcases needed with explicit | ⟨root, ⟨record, found, lists⟩, pair⟩
    · exact .inl (roots explicit)
    · rw [lookups] at found
      split_ifs at found
      exact .inr ⟨root, ⟨record, found, lists⟩, expanded ▸ pair⟩
  rw [lookups]
  split_ifs with lost
  · simp [lost]
  · simp [lost, protects key before]

/-- A removal keeps what is needed exactly when it frees only its own. -/
theorem protects_remove_iff (added : RootsAdded history) :
    Protects (history.step (.remove hash)) ↔ FreesOnlyOwn history (.remove hash) := by
  have lookups : ∀ key, (history.step (.remove hash)).entries.lookup key =
      if key ∈ freed history.entries hash.asHex then none else history.entries.lookup key :=
    lookup_remove hash
  have roots : ∀ key, key ∈ (history.step (.remove hash)).roots ↔
      key ∈ history.roots ∧ key ≠ hash.asHex := by
    intro key
    simp [Pinning.step]
  rw [protects_thinned_iff protects lookups (fun key kept => ((roots key).mp kept).1) rfl]
  constructor
  · intro spares key gone
    have unneeded := fun needed => spares key needed gone
    constructor
    · by_contra both
      rw [not_or, not_not] at both
      exact unneeded (.inl ((roots key).mpr ⟨both.2, both.1⟩))
    · rintro root ne ⟨record, found, lists⟩ expanded
      have rootAdded := added root record found (kind_of_lists lists)
      have stays := spares root (.inl ((roots root).mpr ⟨rootAdded, ne⟩))
      refine unneeded (.inr ⟨root, ⟨record, ?_, lists⟩, expanded⟩)
      rw [lookups, if_neg stays, found]
  · intro own key needed gone
    obtain ⟨single, others⟩ := own key gone
    rcases needed with explicit | ⟨root, ⟨record, found, lists⟩, expanded⟩
    · obtain ⟨explicit, ne⟩ := (roots key).mp explicit
      exact single.elim ne fun absent => absent explicit
    · rw [lookups] at found
      split_ifs at found with out
      refine others root ?_ ⟨record, found, lists⟩ expanded
      rintro rfl
      exact out (mem_freed found)

/-- A sweep keeps what is needed exactly when each explicit root that is kept as a chunk is
listed. -/
theorem protects_sweep_iff :
    Protects (history.step .sweepOrphanChunks) ↔ FreesOnlyOwn history .sweepOrphanChunks := by
  have lookups : ∀ key, (history.step .sweepOrphanChunks).entries.lookup key =
      if key ∈ chunkKeys history.entries ∧ listed history.entries key = false
      then none else history.entries.lookup key :=
    lookup_sweepOrphanChunks
  rw [protects_thinned_iff protects lookups (List.Subset.refl _) rfl]
  constructor
  · intro spares key record found kind explicit
    by_contra unlisted
    exact spares key (.inl explicit) ⟨(mem_chunkKeys _).mpr ⟨record, found, kind⟩,
      Bool.eq_false_iff.mpr unlisted⟩
  · rintro own key needed ⟨chunk, unlisted⟩
    obtain ⟨record, found, kind⟩ := (mem_chunkKeys _).mp chunk
    rcases needed with explicit | ⟨root, ⟨other, there, lists⟩, _⟩
    · rw [own key record found kind explicit] at unlisted
      cases unlisted
    · rw [lookups] at there
      split_ifs at there
      rw [(listed_iff _).mpr ⟨root, other, there, lists⟩] at unlisted
      cases unlisted

theorem protects_step_iff (added : RootsAdded history) :
    Protects (history.step call) ↔ FreesOnlyOwn history call := by
  cases call with
  | add hash recursive descendants nowUnix =>
    exact ⟨fun _ => trivial, fun _ => protects_add protects⟩
  | addChunk chunkHash nowUnix =>
    exact ⟨fun _ => trivial, fun _ => protects_addChunk protects⟩
  | remove hash => exact protects_remove_iff protects added
  | sweepOrphanChunks => exact protects_sweep_iff protects

end

theorem rootsAdded_step (added : RootsAdded history) : RootsAdded (history.step call) := by
  intro key record found kind
  cases call with
  | add hash recursive descendants nowUnix =>
    rcases insertNew_found found with old | ⟨same, _, _⟩
    · exact mem_cons_of_mem _ (added key record old kind)
    · exact mem_cons.mpr (.inl same)
  | addChunk chunkHash nowUnix =>
    rcases insertNew_found found with old | ⟨_, rfl, _⟩
    · exact added key record old kind
    · cases kind
  | remove hash =>
    have lookup := (lookup_remove hash key).symm.trans found
    split_ifs at lookup with gone
    refine mem_filter.mpr ⟨added key record lookup kind, decide_eq_true ?_⟩
    rintro rfl
    exact gone (mem_freed lookup)
  | sweepOrphanChunks =>
    have lookup := (lookup_sweepOrphanChunks key).symm.trans found
    split_ifs at lookup
    exact added key record lookup kind

/-- Along a run of calls all needed content stays pinned exactly when each call frees only its
own. -/
theorem pins_protect_iff (calls : List PinCall) :
    Always Pinning.step Protects {} calls ↔ Guarded Pinning.step FreesOnlyOwn {} calls := by
  apply always_iff_guarded_of Pinning.step RootsAdded
  · exact fun history call added protects _ => protects_step_iff protects added
  · exact fun history call added _ _ _ => rootsAdded_step added
  · intro key record found
    cases found
  · rintro key (explicit | ⟨root, _, expanded⟩)
    · cases explicit
    · cases expanded
  · exact guarded_true Pinning.step {} calls

def sampleAddress (digit : Char) : ContentHash := ⟨String.ofList (List.replicate 64 digit)⟩

def firstRoot : ContentHash := sampleAddress 'a'

def secondRoot : ContentHash := sampleAddress 'b'

def sharedChunk : ContentHash := sampleAddress 'c'

/-- Two recursive roots share a chunk, and the first root is removed. -/
def sharedCalls : List PinCall :=
  [.add firstRoot true [sharedChunk.asHex] 0, .addChunk sharedChunk 0,
    .add secondRoot true [sharedChunk.asHex] 0, .addChunk sharedChunk 0, .remove firstRoot]

/-- The removal of a root unpins the chunk of the other root. -/
theorem pins_not_protect : ¬ Always Pinning.step Protects {} sharedCalls := by
  intro always
  have protects := always.final
  have needed : (run Pinning.step {} sharedCalls).Needed sharedChunk.asHex :=
    .inr ⟨secondRoot.asHex, ⟨⟨.root, true, 0, [sharedChunk.asHex]⟩, by decide +kernel,
      by decide +kernel⟩, by decide +kernel⟩
  have lost : (run Pinning.step {} sharedCalls).pins.contains sharedChunk = false := by
    decide +kernel
  rw [(protects sharedChunk needed).1] at lost
  cases lost

end A3Net.Blobstore
