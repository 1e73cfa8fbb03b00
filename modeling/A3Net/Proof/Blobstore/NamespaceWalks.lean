/-
This file says what the walks of the NAS namespace do to its tree: which of them succeed, which
fail without a change, and which paths an entry takes with it when it is removed.
-/

import A3Net.Construction.Blobstore.Namespace

namespace A3Net.Blobstore.Namespace

open Machine OrderedMap Tree List Option

variable {State Result : Type}

def Succeeds (outcome : Outcome State Result) : Prop := ∃ result, outcome.2 = .ok result

def Refuses (state : State) (outcome : Outcome State Result) : Prop :=
  ∃ error, outcome = (state, .error error)

def Tears (state : State) (outcome : Outcome State Result) : Prop :=
  ∃ other error, outcome = (other, .error error) ∧ other ≠ state

variable (root : Entry)

/-- The directory has no room for one more entry. -/
def Full (path : PathSegments) : Prop :=
  ∃ children, root.lookup path = some (.directory children) ∧ maxChildrenPerDir ≤ children.length

/-- An entry can be created here, with the directories that are missing before it. -/
def Creatable (path : PathSegments) : Prop :=
  path ≠ [] ∧ path.length ≤ maxDepth ∧ ¬ root.Blocked path.dropLast ∧ ¬ Full root path.dropLast

section Walks

variable (borrow : String → Children → Outcome Children Result) (leafName : String)
  (done : PathSegments) {parent : PathSegments}

theorem createWalk_cons (segment : String) (leafName : String) (children : Children) :
    createWalk borrow done (segment :: (parent ++ [leafName])) (.directory children) =
      match get segment children with
      | none =>
        let walked := createWalk borrow (done ++ [segment]) (parent ++ [leafName]) (.directory [])
        (.directory (insert segment walked.1 children), walked.2)
      | some entry =>
        let walked := createWalk borrow (done ++ [segment]) (parent ++ [leafName]) entry
        (.directory (set segment walked.1 children), walked.2) := by
  cases parent <;> rfl

theorem createWalk_file {leafName : String} {file : FileEntry} :
    createWalk borrow done (parent ++ [leafName]) (.file file) =
      (.file file, .error (.notADirectory (join done))) := by
  cases parent with
  | nil => rfl
  | cons segment rest => cases rest <;> rfl

variable {root : Entry}

theorem createWalk_of_directory {children : Children}
    (found : root.lookup parent = some (.directory children)) :
    createWalk borrow done (parent ++ [leafName]) root =
      (root.update (fun children => (borrow leafName children).1) parent,
        (borrow leafName children).2) := by
  induction parent generalizing done root with
  | nil =>
    cases found
    rfl
  | cons segment rest ih =>
    cases root with
    | file leaf => cases found
    | directory entries =>
      rw [Tree.lookup_cons] at found
      obtain ⟨child, got, below⟩ := bind_eq_some_iff.mp found
      rw [List.cons_append, createWalk_cons]
      simp only [got, Tree.update]
      rw [ih _ below]

theorem createWalk_empty (done : PathSegments) :
    (createWalk borrow done (parent ++ [leafName]) (.directory [])).2 = (borrow leafName []).2 := by
  induction parent generalizing done with
  | nil => rfl
  | cons segment rest ih =>
    rw [cons_append, createWalk_cons]
    exact ih _

/-- Below a file nothing can be created, and nothing was. -/
theorem createWalk_of_blocked (blocked : root.Blocked parent) :
    ∃ error, createWalk borrow done (parent ++ [leafName]) root = (root, .error error) := by
  obtain ⟨part, file, ⟨rest, rfl⟩, stat⟩ := blocked
  induction part generalizing done root with
  | nil =>
    cases root with
    | file leaf => exact ⟨_, createWalk_file borrow done⟩
    | directory children => simp at stat
  | cons segment part ih =>
    cases root with
    | file leaf => exact ⟨_, createWalk_file borrow done⟩
    | directory children =>
      rw [stat_cons] at stat
      obtain ⟨child, got, below⟩ := bind_eq_some_iff.mp stat
      obtain ⟨error, walked⟩ := ih (done ++ [segment]) below
      refine ⟨error, ?_⟩
      rw [cons_append, cons_append, createWalk_cons]
      simp only [got, walked, set_get got]

/-- Where the parent is missing, the caller gets an empty directory. -/
theorem createWalk_of_missing (free : ¬ root.Blocked parent) (missing : root.lookup parent = none) :
    (createWalk borrow done (parent ++ [leafName]) root).2 = (borrow leafName []).2 := by
  induction parent generalizing done root with
  | nil => simp at missing
  | cons segment rest ih =>
    cases root with
    | file leaf => exact absurd ⟨[], leaf, List.nil_prefix, rfl⟩ free
    | directory children =>
      rw [Tree.lookup_cons] at missing
      rw [List.cons_append, createWalk_cons]
      cases got : OrderedMap.get segment children with
      | none => exact createWalk_empty borrow leafName _
      | some child =>
        rw [got] at missing
        apply ih _ ?_ missing
        rintro ⟨part, file, before, stat⟩
        apply free
        refine ⟨segment :: part, file, List.cons_prefix_cons.mpr ⟨rfl, before⟩, ?_⟩
        rw [Tree.stat_cons, got]
        exact stat

end Walks

theorem pathExists_iff (path : PathSegments) :
    pathExists root path = true ↔ (root.stat path).isSome := by
  rw [pathExists, stat, isSome_map]

variable {root : Entry} {children : Children} (entry : Entry) {path : PathSegments}

theorem concat_of_ne_nil (nonempty : path ≠ []) : ∃ parent leafName, path = parent ++ [leafName] :=
  ⟨path.dropLast, path.getLast nonempty, (dropLast_append_getLast nonempty).symm⟩

variable {parent : PathSegments} (borrow : String → Children → Outcome Children Result)
  (leafName : String)

/-- A path that exists has directories before its last name. -/
theorem parent_of_pathExists {leafName : String}
    (there : pathExists root (parent ++ [leafName]) = true) :
    ∃ children entry, root.lookup parent = some (.directory children) ∧
      get leafName children = some entry := by
  obtain ⟨entry, found⟩ := isSome_iff_exists.mp there
  obtain ⟨children, reached, got⟩ := lookup_snoc found
  exact ⟨children, entry, reached, got⟩

theorem insertBounded_ok (room : children.length < maxChildrenPerDir) :
    (insertBounded entry leafName children).2 = .ok () := by
  unfold insertBounded
  rw [if_neg (Nat.not_le.mpr room)]

theorem create_succeeds (creatable : Creatable root path) :
    Succeeds (splitWalkOrCreate (insertBounded entry) path root) := by
  obtain ⟨nonempty, shallow, free, room⟩ := creatable
  refine ⟨(), ?_⟩
  unfold splitWalkOrCreate
  rw [if_neg nonempty, if_neg (Nat.not_lt.mpr shallow)]
  obtain ⟨parent, leafName, rfl⟩ := concat_of_ne_nil nonempty
  rw [dropLast_concat] at free room
  cases found : root.lookup parent with
  | none =>
    rw [createWalk_of_missing _ leafName [] free found]
    exact insertBounded_ok entry leafName (by decide)
  | some node =>
    cases node with
    | file file =>
      exact absurd ⟨parent, file, prefix_rfl, by rw [stat, found]; rfl⟩ free
    | directory children =>
      rw [createWalk_of_directory _ leafName [] found]
      apply insertBounded_ok entry leafName
      exact Nat.lt_of_not_le fun full => room ⟨children, found, full⟩

theorem create_refuses (blocked : ¬ Creatable root path) :
    Refuses root (splitWalkOrCreate (insertBounded entry) path root) := by
  unfold splitWalkOrCreate
  by_cases empty : path = []
  · rw [if_pos empty]
    exact ⟨_, rfl⟩
  rw [if_neg empty]
  by_cases deep : maxDepth < path.length
  · rw [if_pos deep]
    exact ⟨_, rfl⟩
  rw [if_neg deep]
  obtain ⟨parent, leafName, rfl⟩ := concat_of_ne_nil empty
  by_cases free : root.Blocked parent
  · exact createWalk_of_blocked _ leafName [] free
  · have full : Full root parent := by
      by_contra room
      apply blocked
      rw [Creatable, dropLast_concat]
      exact ⟨empty, Nat.not_lt.mp deep, free, room⟩
    obtain ⟨children, found, many⟩ := full
    refine ⟨.tooManyChildren maxChildrenPerDir, ?_⟩
    have kept : insertBounded entry leafName children =
        (children, .error (.tooManyChildren maxChildrenPerDir)) := if_pos many
    rw [createWalk_of_directory _ leafName [] found, kept, update_eq_self found (by rw [kept])]

theorem splitWalk_of_directory (found : root.lookup parent = some (.directory children)) :
    splitWalk borrow (parent ++ [leafName]) root =
      (root.update (fun children => (borrow leafName children).1) parent,
        (borrow leafName children).2) := by
  rw [splitWalk_snoc]
  exact walkMut_of_directory (borrow leafName) [] found

/-- A caller that gives the children back as they were leaves the tree as it was. -/
theorem splitWalk_refuses {borrow : String → Children → Outcome Children Result}
    (refused : ∀ parent leafName children, path = parent ++ [leafName] →
      root.lookup parent = some (.directory children) → Refuses children (borrow leafName children)) :
    Refuses root (splitWalk borrow path root) := by
  rcases eq_or_ne path [] with rfl | nonempty
  · exact ⟨_, rfl⟩
  obtain ⟨parent, leafName, rfl⟩ := concat_of_ne_nil nonempty
  by_cases dir : root.IsDirectory parent
  · obtain ⟨children, reached⟩ := root.isDirectory_iff.mp dir
    obtain ⟨error, outcome⟩ := refused parent leafName children rfl reached
    refine ⟨error, ?_⟩
    rw [splitWalk_of_directory borrow leafName reached, outcome,
      update_eq_self reached (by rw [outcome])]
  · rw [splitWalk_snoc]
    exact walkMut_of_not_directory (borrow leafName) [] dir

/-- Below the path nothing is left, and the rest of the tree is as it was. -/
def Pruned (before : Entry) (path : PathSegments) (after : Entry) : Prop :=
  ∀ other, after.stat other = if path <+: other then none else before.stat other

variable {after before : Entry}

section

variable (pruned : Pruned before path after)
include pruned

theorem Pruned.gone : pathExists after path = false := by
  have gone := pruned path
  rw [if_pos prefix_rfl] at gone
  rw [Bool.eq_false_iff, ne_eq, pathExists_iff, gone]
  exact Bool.false_ne_true

theorem Pruned.ne (there : pathExists before path = true) : after ≠ before := by
  rintro rfl
  rw [pruned.gone] at there
  cases there

theorem Pruned.pathExists (other : PathSegments) :
    Namespace.pathExists after other = true ↔
      Namespace.pathExists before other = true ∧ ¬ path <+: other := by
  rw [pathExists_iff, pathExists_iff, pruned other]
  split <;> simp_all

theorem Pruned.isDirectory {other : PathSegments} :
    after.IsDirectory other ↔ before.IsDirectory other ∧ ¬ path <+: other := by
  rw [Tree.IsDirectory, Tree.IsDirectory, pruned other]
  split <;> simp_all

end

theorem pruned_of_vacant (vacant : pathExists root path = false) : Pruned root path root := by
  intro other
  split
  · next below =>
    by_contra there
    have part := stat_of_isPrefix below (isSome_iff_ne_none.mpr there)
    rw [← pathExists_iff, vacant] at part
    cases part
  · rfl

theorem pruned_update_remove {leafName : String} :
    Pruned root (parent ++ [leafName]) (root.update (remove leafName) parent) :=
  fun _ => stat_update_remove root

theorem clearDestination_eq {leafName : String}
    (there : pathExists root (parent ++ [leafName]) = true) :
    clearDestination (parent ++ [leafName]) true root =
      (root.update (remove leafName) parent, .ok ()) := by
  obtain ⟨children, entry, reached, got⟩ := parent_of_pathExists there
  rw [clearDestination, if_pos there, if_pos rfl, splitWalk_of_directory _ leafName reached]
  rfl

variable {target : PathSegments} {overwrite : Bool}

theorem clearDestination_vacant (vacant : pathExists root target = false) :
    clearDestination target overwrite root = (root, .ok ()) := by
  rw [clearDestination, vacant, if_neg Bool.false_ne_true]

/-- An old destination that may go is gone, with everything below it. -/
theorem clearDestination_prunes (nonempty : target ≠ [])
    (allowed : pathExists root target = true → overwrite = true) :
    ∃ cleared, clearDestination target overwrite root = (cleared, .ok ()) ∧
      Pruned root target cleared := by
  cases old : pathExists root target with
  | false => exact ⟨root, clearDestination_vacant old, pruned_of_vacant old⟩
  | true =>
    obtain rfl := allowed old
    obtain ⟨parent, leafName, rfl⟩ := concat_of_ne_nil nonempty
    exact ⟨_, clearDestination_eq old, pruned_update_remove⟩

theorem clearDestination_refuses
    (there : pathExists root target = true) (kept : overwrite = false ∨ target = []) :
    Refuses root (clearDestination target overwrite root) := by
  rw [clearDestination, if_pos there]
  rcases kept with rfl | rfl
  · exact ⟨_, rfl⟩
  · cases overwrite with
    | false => exact ⟨_, rfl⟩
    | true => exact ⟨_, rfl⟩

variable {source : PathSegments}

theorem takeEntry_prunes (nonempty : source ≠ []) (there : pathExists root source = true) :
    ∃ rest entry, splitWalk (takeEntry source) source root = (rest, .ok entry) ∧
      Pruned root source rest ∧ root.lookup source = some entry := by
  obtain ⟨parent, leafName, rfl⟩ := concat_of_ne_nil nonempty
  obtain ⟨children, entry, reached, got⟩ := parent_of_pathExists there
  refine ⟨_, entry, ?_, pruned_update_remove, (lookup_child reached leafName).trans got⟩
  have same : ∀ others, (takeEntry (parent ++ [leafName]) leafName others).1 =
      remove leafName others := by
    intro others
    unfold takeEntry
    cases absent : get leafName others with
    | some _ => rfl
    | none => exact (remove_of_absent absent).symm
  rw [splitWalk_of_directory _ leafName reached]
  simp only [same]
  simp only [takeEntry, got]

theorem takeEntry_refuses (missing : source = [] ∨ pathExists root source = false) :
    Refuses root (splitWalk (takeEntry source) source root) := by
  apply splitWalk_refuses
  rintro parent leafName children rfl reached
  have absent := missing.resolve_left (concat_ne_nil _ _)
  rw [pathExists, lookup_child reached] at absent
  unfold takeEntry
  cases got : get leafName children with
  | none => exact ⟨_, rfl⟩
  | some entry => simp [got] at absent

theorem insertWalk_cons (entry : Entry) (done : PathSegments) (segment : String) (leafName : String) :
    insertWalk entry done (segment :: (parent ++ [leafName])) (.directory children) =
      match get segment children with
      | none => (.directory children, .error (.notFound (join (done ++ [segment]))))
      | some child =>
        let walked := insertWalk entry (done ++ [segment]) (parent ++ [leafName]) child
        (.directory (set segment walked.1 children), walked.2) := by
  cases parent <;> rfl

theorem insertWalk_of_directory {entry : Entry} {leafName : String} (done : PathSegments)
    (found : root.lookup parent = some (.directory children)) :
    insertWalk entry done (parent ++ [leafName]) root =
      (root.update (insert leafName entry) parent, .ok ()) := by
  induction parent generalizing done root with
  | nil =>
    cases found
    rfl
  | cons segment rest ih =>
    cases root with
    | file leaf => cases found
    | directory others =>
      rw [Tree.lookup_cons] at found
      obtain ⟨child, got, below⟩ := bind_eq_some_iff.mp found
      rw [cons_append, insertWalk_cons, got]
      simp only [ih _ below, Tree.update, got]

theorem insertWalk_refuses {entry : Entry} {leafName : String} (done : PathSegments)
    (missing : ¬ root.IsDirectory parent) :
    Refuses root (insertWalk entry done (parent ++ [leafName]) root) := by
  induction parent generalizing done root with
  | nil =>
    cases root with
    | file leaf => exact ⟨_, rfl⟩
    | directory children => exact absurd rfl missing
  | cons segment rest ih =>
    cases root with
    | file leaf => cases rest <;> exact ⟨_, rfl⟩
    | directory children =>
      rw [cons_append, insertWalk_cons]
      cases got : get segment children with
      | none => exact ⟨_, rfl⟩
      | some child =>
        have below : ¬ child.IsDirectory rest := by
          intro dir
          apply missing
          rw [Tree.IsDirectory, stat_cons, got]
          exact dir
        obtain ⟨error, walked⟩ := ih (done ++ [segment]) below
        refine ⟨error, ?_⟩
        simp only [walked, set_get got]

end A3Net.Blobstore.Namespace
