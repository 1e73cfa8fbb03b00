import A3Net.Proof.Blobstore.NamespaceWalks

namespace A3Net.Blobstore.Namespace

open Machine OrderedMap List Tree

/-- A call that fails leaves the tree and the generation as they were. -/
def AllOrNothing (nas : Nas) (outcome : Outcome Nas Unit) : Prop :=
  ∀ error, outcome.2 = .error error →
    outcome.1.manifest.root = nas.manifest.root ∧
      outcome.1.manifest.generation = nas.manifest.generation

/-- The directory has no room even after one of its entries is gone. -/
def Overfull (root : Entry) (path : PathSegments) : Prop :=
  ∃ children, root.lookup path = some (.directory children) ∧ maxChildrenPerDir < children.length

/-- The paths and flags are such that every step on the tree succeeds. -/
def Accepted (env : Surroundings) (root : Entry) : Operation → Prop
  | .put path _ size => env.checkWrite size = .ok () ∧ Creatable root path
  | .delete path => path ≠ [] ∧ ∃ file, root.stat path = some (some file)
  | .mkcol path =>
    path ≠ [] ∧ root.IsDirectory path.dropLast ∧ pathExists root path = false ∧
      ¬ Full root path.dropLast
  | .rename source target overwrite =>
    source ≠ [] ∧ pathExists root source ∧ ¬ target <+: source ∧
      root.IsDirectory target.dropLast ∧ ¬ source <+: target.dropLast ∧
      (pathExists root target → overwrite)
  | .copy source target overwrite =>
    pathExists root source ∧
      if pathExists root target then
        overwrite ∧ target ≠ [] ∧ target.length ≤ maxDepth ∧ ¬ Overfull root target.dropLast
      else Creatable root target

/-- The paths and flags are such that the call fails before its first step on the tree. -/
def Refused (env : Surroundings) (root : Entry) : Operation → Prop
  | .rename source target overwrite =>
    if pathExists root target then overwrite = false ∨ target = []
    else source = [] ∨ pathExists root source = false
  | .copy source target overwrite =>
    pathExists root source = false ∨
      if pathExists root target then overwrite = false ∨ target = []
      else ¬ Creatable root target
  | operation => ¬ Accepted env root operation

section Commit

variable {Result : Type} (env : Surroundings) (audit : AuditContext) (op path : String)
  (change : Change Result) (nas : Nas)

/-- The manifest in memory changes before anything is written. -/
theorem commit_manifest :
    (commit env audit op path change nas).1.manifest = (mutateWith change nas.manifest).1 := by
  unfold commit
  obtain ⟨manifest, _ | result⟩ := mutateWith change nas.manifest
  · rfl
  · cases auditFault : env.auditFault with
    | some fault =>
      simp only [writeAudit, auditFault]
      split <;> rfl
    | none =>
      cases persistFault : env.persistFault <;>
        simp [writeAudit, auditFault, persistManifest, persistFault]

theorem commit_succeeds_iff :
    Succeeds (commit env audit op path change nas) ↔
      Succeeds (change.apply nas.manifest.root) ∧
        env.auditFault = none ∧ env.persistFault = none := by
  change _ ↔ Succeeds (mutateWith change nas.manifest) ∧ _
  unfold commit
  obtain ⟨manifest, _ | result⟩ := mutateWith change nas.manifest
  · simp [Succeeds]
  · cases auditFault : env.auditFault <;> cases persistFault : env.persistFault <;>
      simp [writeAudit, auditFault, persistManifest, persistFault, Succeeds]

variable {op path change nas}

/-- A call keeps its promise when its change is refused, or when everything succeeds. -/
theorem commit_allOrNothing_iff (toUnit : Result → Unit) :
    AllOrNothing nas ((commit env audit op path change nas).1,
        (commit env audit op path change nas).2.map toUnit) ↔
      Refuses nas.manifest.root (change.apply nas.manifest.root) ∨
        Succeeds (change.apply nas.manifest.root) ∧
          env.auditFault = none ∧ env.persistFault = none := by
  have manifestOf := commit_manifest env audit op path change nas
  rw [← commit_succeeds_iff env audit op path change nas]
  generalize commit env audit op path change nas = outcome at manifestOf ⊢
  obtain ⟨after, error | result⟩ := outcome
  · have unchanged : AllOrNothing nas (after, (.error error : Except _ Result).map toUnit) ↔
        (mutateWith change nas.manifest).1.root = nas.manifest.root ∧
          (mutateWith change nas.manifest).1.generation = nas.manifest.generation := by
      rw [← manifestOf]
      exact ⟨fun promise => promise error rfl, fun same _ _ => same⟩
    rw [unchanged, or_iff_left (by simp [Succeeds])]
    simp only [mutateWith, Refuses]
    obtain ⟨root, _ | result⟩ := change.apply nas.manifest.root
    · simp [Except.isOk, Except.toBool]
    · simp [Except.isOk, Except.toBool]
  · exact iff_of_true (fun _ failed => nomatch failed) (.inr ⟨result, rfl⟩)

end Commit

variable {env : Surroundings} (audit : AuditContext) {root : Entry} {path : PathSegments}

theorem delete_succeeds (accepted : Accepted env root (.delete path)) :
    Succeeds (deleteBody path root) := by
  obtain ⟨nonempty, file, stat⟩ := accepted
  obtain ⟨parent, leafName, rfl⟩ := concat_of_ne_nil nonempty
  have there : pathExists root (parent ++ [leafName]) = true := by
    rw [pathExists_iff, stat]
    rfl
  obtain ⟨children, entry, reached, got⟩ := parent_of_pathExists there
  rw [Tree.stat, Tree.lookup_child reached, got] at stat
  cases entry with
  | directory below => simp [kind] at stat
  | file found =>
    refine ⟨found.hash, ?_⟩
    rw [deleteBody, splitWalk_of_directory _ leafName reached]
    simp only [removeFile, got]

/-- A directory that was taken out by mistake is put back in its place. -/
theorem delete_refuses (ordered : root.Ordered) (refused : ¬ Accepted env root (.delete path)) :
    Refuses root (deleteBody path root) := by
  apply splitWalk_refuses
  rintro parent leafName children rfl reached
  unfold removeFile
  cases got : get leafName children with
  | none => exact ⟨_, rfl⟩
  | some entry =>
    cases entry with
    | file file =>
      apply absurd _ refused
      refine ⟨concat_ne_nil _ _, file, ?_⟩
      rw [Tree.stat, Tree.lookup_child reached, got]
      rfl
    | directory below =>
      cases ordered.lookup reached with
      | directory sorted _ =>
        dsimp only
        rw [insert_remove sorted got]
        exact ⟨_, rfl⟩

theorem mkcol_succeeds (accepted : Accepted env root (.mkcol path)) :
    Succeeds (mkcolBody path root) := by
  obtain ⟨nonempty, dir, vacant, room⟩ := accepted
  obtain ⟨parent, leafName, rfl⟩ := concat_of_ne_nil nonempty
  rw [dropLast_concat] at dir room
  obtain ⟨children, reached⟩ := root.isDirectory_iff.mp dir
  have space : ¬ maxChildrenPerDir ≤ children.length := fun full => room ⟨children, reached, full⟩
  rw [pathExists, lookup_child reached] at vacant
  refine ⟨(), ?_⟩
  rw [mkcolBody, splitWalk_of_directory _ leafName reached, insertDirectory, vacant,
    if_neg Bool.false_ne_true, if_neg space]

theorem mkcol_refuses (refused : ¬ Accepted env root (.mkcol path)) :
    Refuses root (mkcolBody path root) := by
  apply splitWalk_refuses
  rintro parent leafName children rfl reached
  unfold insertDirectory
  split_ifs with taken full
  · exact ⟨_, rfl⟩
  · exact ⟨_, rfl⟩
  · apply absurd _ refused
    rw [Accepted, dropLast_concat]
    refine ⟨concat_ne_nil _ _, root.isDirectory_iff.mpr ⟨children, reached⟩, ?_, ?_⟩
    · rw [pathExists, lookup_child reached]
      exact Bool.eq_false_iff.mpr taken
    · rintro ⟨others, found, many⟩
      rw [reached] at found
      cases found
      exact full many

variable {cleared : Entry} {source target : PathSegments} {overwrite : Bool}

/-- A rename that fails after the destination was cleared has taken the source, or found none. -/
theorem rename_fails_of_cleared
    (outcome : clearDestination target overwrite root = (cleared, .ok ()))
    (targetNonempty : target ≠ []) (fails : source ≠ [] → pathExists cleared source = true →
      ¬ (cleared.IsDirectory target.dropLast ∧ ¬ source <+: target.dropLast)) :
    ∃ after error, renameBody source target overwrite root = (after, .error error) ∧
      (after = cleared ∧ (source = [] ∨ pathExists cleared source = false) ∨
        pathExists cleared source = true ∧ Pruned cleared source after) := by
  by_cases missing : source = [] ∨ pathExists cleared source = false
  · obtain ⟨error, taken⟩ := takeEntry_refuses missing
    refine ⟨cleared, error, ?_, Or.inl ⟨rfl, missing⟩⟩
    simp only [renameBody, outcome, taken]
  · have sourceNonempty : source ≠ [] := fun empty => missing (Or.inl empty)
    have there : pathExists cleared source = true :=
      Bool.eq_true_of_not_eq_false fun absent => missing (Or.inr absent)
    obtain ⟨rest, entry, taken, pruned, _⟩ := takeEntry_prunes sourceNonempty there
    obtain ⟨parent, leafName, rfl⟩ := concat_of_ne_nil targetNonempty
    have gone : ¬ rest.IsDirectory parent := by
      rw [pruned.isDirectory]
      rw [dropLast_concat] at fails
      exact fails sourceNonempty there
    obtain ⟨error, inserted⟩ := insertWalk_refuses [] gone
    refine ⟨rest, error, ?_, Or.inr ⟨there, pruned⟩⟩
    simp only [renameBody, outcome, taken]
    exact inserted

theorem not_isPrefix_dropLast (nonempty : path ≠ []) : ¬ path <+: path.dropLast := by
  intro before
  have shorter := before.length_le
  have positive := length_pos_of_ne_nil nonempty
  rw [length_dropLast] at shorter
  omega

/-- The subtree of the source stands at the target, and the rest of the tree is as it was. -/
structure Moved (before : Entry) (source target : PathSegments) (after : Entry) : Prop where
  arrived : ∀ path, after.stat (target ++ path) = before.stat (source ++ path)
  gone : after.stat source = none
  others : ∀ other, ¬ source <+: other → ¬ target <+: other → after.stat other = before.stat other

theorem rename_moves (accepted : Accepted env root (.rename source target overwrite)) :
    ∃ after, renameBody source target overwrite root = (after, .ok ()) ∧
      Moved root source target after := by
  obtain ⟨sourceNonempty, there, apart, dir, outside, allowed⟩ := accepted
  have targetNonempty : target ≠ [] := by
    rintro rfl
    exact apart List.nil_prefix
  obtain ⟨cleared, outcome, cut⟩ := clearDestination_prunes targetNonempty allowed
  obtain ⟨rest, entry, taken, pruned, found⟩ := takeEntry_prunes sourceNonempty
    ((cut.pathExists source).mpr ⟨there, apart⟩)
  have kept := pruned.isDirectory.mpr ⟨cut.isDirectory.mpr
    ⟨dir, not_isPrefix_dropLast targetNonempty⟩, outside⟩
  obtain ⟨parent, leafName, rfl⟩ := concat_of_ne_nil targetNonempty
  rw [dropLast_concat] at kept outside
  obtain ⟨children, reached⟩ := rest.isDirectory_iff.mp kept
  have grafted : ∀ other, (rest.update (insert leafName entry) parent).stat other = _ := fun _ =>
    stat_update rest (fun others other => get_insert leafName other entry others) (.inr kept)
  have inside : ¬ source <+: parent ++ [leafName] := fun below =>
    (prefix_concat_iff.mp below).elim (fun same => apart (same ▸ prefix_rfl)) outside
  refine ⟨rest.update (insert leafName entry) parent, ?_, fun path => ?_, ?_,
    fun other notSource notTarget => ?_⟩
  · simp only [renameBody, outcome, taken]
    exact insertWalk_of_directory [] reached
  · have clear : ¬ parent ++ [leafName] <+: source ++ path := fun below =>
      Or.elim ( prefix_or_prefix_of_prefix below (prefix_append source path)) apart inside
    have same := cut (source ++ path)
    rw [if_neg clear, stat, Tree.lookup_append, found] at same
    rw [grafted, if_pos (prefix_append _ _), drop_left' (by simp), ← same]
    rfl
  · rw [grafted, if_neg apart, pruned, if_pos prefix_rfl]
  · rw [grafted, if_neg notTarget, pruned, if_neg notSource, cut, if_neg notTarget]

theorem rename_succeeds (accepted : Accepted env root (.rename source target overwrite)) :
    Succeeds (renameBody source target overwrite root) := by
  obtain ⟨_, renamed, _⟩ := rename_moves accepted
  exact ⟨(), congrArg Prod.snd renamed⟩

theorem rename_refuses (refused : Refused env root (.rename source target overwrite)) :
    Refuses root (renameBody source target overwrite root) := by
  rw [Refused] at refused
  split_ifs at refused with old
  · obtain ⟨error, outcome⟩ := clearDestination_refuses old refused
    refine ⟨error, ?_⟩
    simp only [renameBody, outcome]
  · have vacant : pathExists root target = false := Bool.eq_false_iff.mpr old
    obtain ⟨error, taken⟩ := takeEntry_refuses refused
    refine ⟨error, ?_⟩
    simp only [renameBody, clearDestination_vacant vacant, taken]

/-- The old destination is gone, or the source is. -/
theorem rename_tears (accepted : ¬ Accepted env root (.rename source target overwrite))
    (refused : ¬ Refused env root (.rename source target overwrite)) :
    Tears root (renameBody source target overwrite root) := by
  rw [Refused] at refused
  have targetNonempty : target ≠ [] := by
    rintro rfl
    exact refused (.inr rfl)
  have allowed : pathExists root target = true → overwrite = true := by
    intro old
    rw [if_pos old, not_or] at refused
    exact Bool.eq_true_of_not_eq_false refused.1
  obtain ⟨cleared, outcome, pruned⟩ := clearDestination_prunes targetNonempty allowed
  have fails : source ≠ [] → pathExists cleared source = true →
      ¬ (cleared.IsDirectory target.dropLast ∧ ¬ source <+: target.dropLast) := by
    rintro sourceNonempty there ⟨dir, outside⟩
    obtain ⟨before, apart⟩ := (pruned.pathExists source).mp there
    exact accepted ⟨sourceNonempty, before, apart, (pruned.isDirectory.mp dir).1, outside,
      allowed⟩
  obtain ⟨after, error, failed, left⟩ := rename_fails_of_cleared outcome targetNonempty fails
  refine ⟨after, error, failed, ?_⟩
  rintro rfl
  rcases left with ⟨rfl, missing⟩ | ⟨there, taken⟩
  · rw [if_neg (by simp [pruned.gone])] at refused
    exact refused missing
  · have before := ((pruned.pathExists source).mp there).1
    rw [taken.gone] at before
    cases before

/-- The directories before an entry that was removed are still there. -/
theorem creatable_cleared_iff (ordered : root.Ordered) {parent : PathSegments} {leafName : String}
    (there : pathExists root (parent ++ [leafName]) = true) :
    Creatable (root.update (remove leafName) parent) (parent ++ [leafName]) ↔
      (parent ++ [leafName]).length ≤ maxDepth ∧ ¬ Overfull root parent := by
  obtain ⟨children, entry, reached, got⟩ := parent_of_pathExists there
  have left := lookup_update_self (remove leafName) reached
  have shorter : (remove leafName children).length + 1 = children.length := by
    cases ordered.lookup reached with
    | directory sorted _ => exact length_remove sorted got
  have free : ¬ (root.update (remove leafName) parent).Blocked parent := by
    rintro ⟨part, file, ⟨rest, rfl⟩, stat⟩
    rw [stat_update_remove] at stat
    split_ifs at stat
    rw [pathExists_iff] at there
    exact not_file_of_snoc there stat
  have full_iff : Full (root.update (remove leafName) parent) parent ↔ Overfull root parent := by
    constructor
    · rintro ⟨others, found, many⟩
      rw [left] at found
      cases found
      exact ⟨children, reached, by omega⟩
    · rintro ⟨others, found, many⟩
      rw [reached] at found
      cases found
      exact ⟨_, left, by omega⟩
  rw [Creatable, dropLast_concat, full_iff]
  constructor
  · rintro ⟨_, shallow, _, room⟩
    exact ⟨shallow, room⟩
  · rintro ⟨shallow, room⟩
    exact ⟨append_ne_nil_of_right_ne_nil _ (cons_ne_nil _ _), shallow, free, room⟩

variable {entry : Entry}

theorem copy_succeeds (ordered : root.Ordered)
    (accepted : Accepted env root (.copy source target overwrite)) :
    Succeeds (copyBody entry target overwrite root) := by
  obtain ⟨_, accepted⟩ := accepted
  split_ifs at accepted with old
  · obtain ⟨allowed, targetNonempty, shallow, room⟩ := accepted
    obtain rfl : overwrite = true := allowed
    obtain ⟨parent, leafName, rfl⟩ := concat_of_ne_nil targetNonempty
    rw [dropLast_concat] at room
    simp only [copyBody, clearDestination_eq old]
    exact create_succeeds entry ((creatable_cleared_iff ordered old).mpr ⟨shallow, room⟩)
  · have vacant : pathExists root target = false := Bool.eq_false_iff.mpr old
    simp only [copyBody, clearDestination_vacant vacant]
    exact create_succeeds entry accepted

theorem copy_refuses (there : pathExists root source = true)
    (refused : Refused env root (.copy source target overwrite)) :
    Refuses root (copyBody entry target overwrite root) := by
  have stopped := refused.resolve_left (by rw [there]; exact Bool.noConfusion)
  split_ifs at stopped with old
  · obtain ⟨error, outcome⟩ := clearDestination_refuses old stopped
    refine ⟨error, ?_⟩
    simp only [copyBody, outcome]
  · have vacant : pathExists root target = false := Bool.eq_false_iff.mpr old
    simp only [copyBody, clearDestination_vacant vacant]
    exact create_refuses entry stopped

/-- The old destination is gone. -/
theorem copy_tears (ordered : root.Ordered) (there : pathExists root source = true)
    (accepted : ¬ Accepted env root (.copy source target overwrite))
    (refused : ¬ Refused env root (.copy source target overwrite)) :
    Tears root (copyBody entry target overwrite root) := by
  obtain ⟨_, open_⟩ := not_or.mp refused
  split_ifs at open_ with old
  · obtain ⟨allowed, targetNonempty⟩ := not_or.mp open_
    obtain rfl : overwrite = true := Bool.eq_true_of_not_eq_false allowed
    obtain ⟨parent, leafName, rfl⟩ := concat_of_ne_nil targetNonempty
    have blocked : ¬ Creatable (root.update (remove leafName) parent) (parent ++ [leafName]) := by
      rw [creatable_cleared_iff ordered old]
      rintro ⟨shallow, room⟩
      refine accepted ⟨there, ?_⟩
      rw [if_pos old, dropLast_concat]
      exact ⟨rfl, targetNonempty, shallow, room⟩
    obtain ⟨error, outcome⟩ := create_refuses entry blocked
    refine ⟨_, error, ?_, (pruned_update_remove).ne old⟩
    simp only [copyBody, clearDestination_eq old, outcome]
  · have creatable := not_not.mp open_
    refine absurd ⟨there, ?_⟩ accepted
    rw [if_neg old]
    exact creatable

variable {quiet accepted : Prop}

theorem verdict_iff {State Result : Type} {state : State} {outcome : Outcome State Result}
    {refused : Prop} (succeeds : accepted → Succeeds outcome)
    (refuses : refused → Refuses state outcome)
    (tears : ¬ accepted → ¬ refused → Tears state outcome) :
    Refuses state outcome ∨ Succeeds outcome ∧ quiet ↔ refused ∨ accepted ∧ quiet := by
  constructor
  · intro verdict
    by_cases isRefused : refused
    · exact Or.inl isRefused
    by_cases isAccepted : accepted
    · rcases verdict with ⟨_, failed⟩ | ⟨_, quiet⟩
      · obtain ⟨_, succeeded⟩ := succeeds isAccepted
        rw [failed] at succeeded
        cases succeeded
      · exact Or.inr ⟨isAccepted, quiet⟩
    · obtain ⟨other, error, torn, ne⟩ := tears isAccepted isRefused
      rcases verdict with ⟨_, failed⟩ | ⟨⟨_, succeeded⟩, _⟩
      · rw [torn] at failed
        exact absurd (congrArg Prod.fst failed) ne
      · rw [torn] at succeeded
        cases succeeded
  · exact Or.imp refuses (And.imp_left succeeds)

/-- A change that is refused whenever it is not accepted cannot be torn. -/
theorem verdict_iff_of_refuses {State Result : Type} {state : State}
    {outcome : Outcome State Result} (succeeds : accepted → Succeeds outcome)
    (refuses : ¬ accepted → Refuses state outcome) :
    Refuses state outcome ∨ Succeeds outcome ∧ quiet ↔ ¬ accepted ∨ accepted ∧ quiet :=
  verdict_iff succeeds refuses fun isAccepted isRefused => absurd isAccepted isRefused

theorem allOrNothing_of_unchanged {nas : Nas} {error : NamespaceError} :
    AllOrNothing nas (nas, .error error) :=
  fun _ _ => ⟨rfl, rfl⟩

theorem map_unit (outcome : Outcome Nas Unit) :
    (outcome.1, outcome.2.map fun _ => ()) = outcome := by
  obtain ⟨nas, error | value⟩ := outcome <;> rfl

variable (nas : Nas)

theorem commit_unit_iff (op path : String) (change : Change Unit) :
    AllOrNothing nas (commit env audit op path change nas) ↔
      Refuses nas.manifest.root (change.apply nas.manifest.root) ∨
        Succeeds (change.apply nas.manifest.root) ∧
          env.auditFault = none ∧ env.persistFault = none := by
  rw [← commit_allOrNothing_iff env audit fun _ => (), map_unit]

/-- A failed operation leaves the manifest as it was exactly when the paths, the flags and the
tree refuse it at once. Otherwise every step has to succeed, the two writes included. -/
theorem call_allOrNothing_iff (operation : Operation) :
    AllOrNothing nas (call env audit nas operation) ↔
      Refused env nas.manifest.root operation ∨
        Accepted env nas.manifest.root operation ∧
          env.auditFault = none ∧ env.persistFault = none := by
  cases operation with
  | put path hash size =>
    simp only [call, put, Refused, Accepted]
    cases env.checkWrite size with
    | error error => simp [allOrNothing_of_unchanged]
    | ok value =>
      simp only [true_and]
      rw [commit_unit_iff]
      exact verdict_iff_of_refuses (create_succeeds _) (create_refuses _)
  | delete path =>
    simp only [call, delete]
    rw [commit_allOrNothing_iff]
    exact verdict_iff_of_refuses delete_succeeds (delete_refuses nas.manifest.ordered)
  | mkcol path =>
    simp only [call, mkcol]
    rw [commit_unit_iff]
    exact verdict_iff_of_refuses mkcol_succeeds mkcol_refuses
  | rename source target overwrite =>
    simp only [call, rename]
    rw [commit_unit_iff]
    exact verdict_iff rename_succeeds rename_refuses rename_tears
  | copy source target overwrite =>
    simp only [call, copy]
    split
    · next missing =>
      have absent : pathExists nas.manifest.root source = false := by
        rw [pathExists, missing]
        rfl
      simp [allOrNothing_of_unchanged, Refused, absent]
    · next entry found =>
      have there : pathExists nas.manifest.root source = true := by
        rw [pathExists, found]
        rfl
      rw [commit_unit_iff]
      exact verdict_iff (copy_succeeds nas.manifest.ordered) (copy_refuses there)
        (copy_tears nas.manifest.ordered there)

/-- Both writes succeed and there is room for every file. -/
def sampleSurroundings : Surroundings where
  unixMs := 0
  checkWrite := fun _ => .ok ()

def sampleRoot : Entry := .directory [("report", .file ⟨sampleHash, 5⟩)]

theorem sampleRoot_ordered : sampleRoot.Ordered :=
  Tree.Ordered.insert .empty "report" (.file _)

/-- The namespace has one file. -/
def sampleNas : Nas where
  manifest :=
    { schema := auditSchemaVersion, root := sampleRoot, generation := 1
      ordered := sampleRoot_ordered }

theorem sampleRoot_rename : renameBody ["draft"] ["report"] true sampleRoot =
    (.directory [], .error (.notFound "draft")) := by
  simp [renameBody, clearDestination, pathExists, sampleRoot, Tree.lookup, OrderedMap.get,
    splitWalk, walkMut, removeEntry, OrderedMap.remove, takeEntry, display, join]

/-- The file is lost when a missing one is renamed over it. -/
theorem rename_missing_over_file :
    ¬ ∀ (env : Surroundings) (audit : AuditContext) (nas : Nas) (operation : Operation),
      AllOrNothing nas (call env audit nas operation) := by
  intro promise
  have torn := promise sampleSurroundings {} sampleNas (.rename ["draft"] ["report"] true)
    (.notFound "draft") (by
      simp [call, rename, commit, mutateWith, renameChange, sampleNas, sampleRoot_rename])
  rw [call, rename, commit_manifest] at torn
  simp only [mutateWith, renameChange, sampleNas, sampleRoot_rename] at torn
  cases torn.1

variable {source target : PathSegments} {overwrite : Bool}

theorem moved_of_renameBody (env : Surroundings) {root after : Entry}
    (renamed : renameBody source target overwrite root = (after, .ok ())) :
    Moved root source target after := by
  by_cases accepted : Accepted env root (.rename source target overwrite)
  · obtain ⟨_, done, moved⟩ := rename_moves accepted
    cases done.symm.trans renamed
    exact moved
  · by_cases refused : Refused env root (.rename source target overwrite)
    · obtain ⟨_, failed⟩ := rename_refuses refused
      cases failed.symm.trans renamed
    · obtain ⟨_, _, failed, _⟩ := rename_tears accepted refused
      cases failed.symm.trans renamed

/-- A rename that succeeds moves one subtree, leaves all other paths as they are and counts the
generation up by one machine number. -/
theorem moved_of_rename (env : Surroundings) (audit : AuditContext) {nas after : Nas}
    (renamed : rename env audit source target overwrite nas = (after, .ok ())) :
    Moved nas.manifest.root source target after.manifest.root ∧
      after.manifest.generation = nas.manifest.generation + 1 := by
  have manifestOf := congrArg (fun outcome => outcome.1.manifest) renamed
  rw [rename] at manifestOf renamed
  rw [commit_manifest] at manifestOf
  obtain ⟨⟨⟨⟩, ok⟩, _⟩ := (commit_succeeds_iff ..).mp ⟨(), congrArg Prod.snd renamed⟩
  rw [← manifestOf]
  refine ⟨moved_of_renameBody env (Prod.ext rfl ok), ?_⟩
  simp [mutateWith, ok, Except.isOk, Except.toBool]

/-- The generation grows exactly while it is not the last machine number. -/
theorem rename_moves_subtree (env : Surroundings) (audit : AuditContext) {nas after : Nas}
    (renamed : rename env audit source target overwrite nas = (after, .ok ())) :
    Moved nas.manifest.root source target after.manifest.root ∧
        after.manifest.generation.toNat = nas.manifest.generation.toNat + 1 ↔
      nas.manifest.generation.toNat < 2 ^ 64 - 1 := by
  obtain ⟨moved, counted⟩ := moved_of_rename env audit renamed
  rw [and_iff_right moved, counted, UInt64.toNat_add, UInt64.toNat_one]
  have bound := nas.manifest.generation.toNat_lt
  omega

theorem rename_moves_subtree_report :
    ∃ after, rename sampleSurroundings {} ["report"] ["draft"] false sampleNas = (after, .ok ()) ∧
      Moved sampleRoot ["report"] ["draft"] after.manifest.root ∧
        after.manifest.generation.toNat = 2 := by
  obtain ⟨after, renamed⟩ : ∃ after, rename sampleSurroundings {} ["report"] ["draft"] false
    sampleNas = (after, .ok ()) := ⟨_, rfl⟩
  exact ⟨after, renamed, (rename_moves_subtree sampleSurroundings {} renamed).mpr (by decide)⟩

/-- The generation starts again at zero after the last machine number. -/
theorem rename_generation_wraps :
    ¬ ∀ (env : Surroundings) (audit : AuditContext) (source target : PathSegments)
      (overwrite : Bool) (nas after : Nas),
      rename env audit source target overwrite nas = (after, .ok ()) →
        Moved nas.manifest.root source target after.manifest.root ∧
          after.manifest.generation.toNat = nas.manifest.generation.toNat + 1 := by
  intro always
  have last := (always sampleSurroundings {} ["report"] ["draft"] false
    {sampleNas with manifest := {sampleNas.manifest with generation := -1}} _ rfl).2
  revert last
  decide

end A3Net.Blobstore.Namespace
