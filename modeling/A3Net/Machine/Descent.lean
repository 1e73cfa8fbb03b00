/-
This file says that directories and files below a directory can be made and read when nothing is in
the way.
-/

import Mathlib.Data.List.Induction
import A3Net.Machine.SoundDisk

namespace A3Net.Machine

open List Disk World

variable {cur : Location} {rest : List Component} {links : Nat} {target : Path}

section Walks

variable {disk : Disk} {front : List Component} {base : Location}

/-- A walk to a directory goes on from there. -/
theorem walk_append (walked : disk.walk cur front = .done base)
    (dir : disk.node base = some .directory) (rest : List Component) :
    disk.walk cur (front ++ rest) = disk.walk base rest := by
  fun_induction walk disk cur front with
  | case1 =>
    cases walked
    rfl
  | case2 cur later ih => exact ih walked
  | case3 cur name later found ih =>
    rw [cons_append, walk, found]
    exact ih walked
  | case5 _ _ _ _ found | case7 _ _ _ found =>
    cases walked
    cases found.symm.trans dir
  | _ => cases walked

theorem walk_append_follow {later : List Component}
    (walked : disk.walk cur front = .follow base target later) :
    disk.walk cur (front ++ rest) = .follow base target (later ++ rest) := by
  fun_induction walk disk cur front with
  | case2 cur more ih => exact ih walked
  | case3 cur name more found ih =>
    rw [cons_append, walk, found]
    exact ih walked
  | case4 cur name more other found =>
    cases walked
    rw [cons_append, walk, found]
  | _ => cases walked

/-- A path to a directory and a path from there make one path. -/
theorem resolve_append (found : disk.resolve links cur front = .ok base)
    (dir : disk.node base = some .directory) :
    (∀ loc, disk.walk base rest = .done loc → disk.resolve links cur (front ++ rest) = .ok loc) ∧
    ∀ errno, disk.walk base rest = .failed errno →
      disk.resolve links cur (front ++ rest) = .error errno := by
  refine resolve_induct ?_ ?_ found
  · intro links cur front walked
    have joined := walk_append walked dir rest
    constructor
    · intro loc ends
      exact resolve_done (joined.trans ends) links
    · intro errno fails
      unfold resolve
      rw [joined, fails]
  · intro links cur front place target later walked ih
    rw [append_assoc] at ih
    unfold resolve
    rw [walk_append_follow walked]
    exact ih

end Walks
section Kept

variable {before after : Disk}

/-- What was on the first disk is on the second. -/
def Keeps (before after : Disk) : Prop :=
  ∀ loc node, before.node loc = some node → after.node loc = some node

variable {path : List Component} {base : Location}

theorem walk_kept (kept : Keeps before after) (walked : before.walk cur path = .done base)
    (there : before.node base ≠ none) : after.walk cur path = .done base := by
  fun_induction walk before cur path with
  | case1 => exact walked
  | case2 cur rest ih => exact ih walked
  | case3 cur name rest found ih =>
    rw [walk, kept _ _ found]
    exact ih walked
  | case5 cur name rest bytes found empty =>
    rw [walk, kept _ _ found]
    exact (if_pos empty).trans walked
  | case7 cur name rest found =>
    cases walked
    exact absurd found there
  | _ => cases walked

theorem walk_kept_follow (kept : Keeps before after)
    (walked : before.walk cur path = .follow base target rest) :
    after.walk cur path = .follow base target rest := by
  fun_induction walk before cur path with
  | case2 cur later ih => exact ih walked
  | case3 cur name later found ih =>
    rw [walk, kept _ _ found]
    exact ih walked
  | case4 cur name later other found =>
    rw [walk, kept _ _ found]
    exact walked
  | _ => cases walked

theorem resolve_kept (kept : Keeps before after) (found : before.resolve links cur path = .ok base)
    (there : before.node base ≠ none) : after.resolve links cur path = .ok base := by
  refine resolve_induct ?_ ?_ found
  · intro links cur path walked
    exact resolve_done (walk_kept kept walked there) links
  · intro links cur path place target rest walked later
    unfold resolve
    rw [walk_kept_follow kept walked]
    exact later

end Kept

variable {disk : Disk}

/-- The front of a walk that does not fail ends in a directory or comes to a link. -/
theorem walk_front (sound : disk.Sound) {front : List Component} (more : rest ≠ [])
    (dir : disk.node cur = some .directory)
    (unfailed : ∀ errno, disk.walk cur (front ++ rest) ≠ .failed errno) :
    (∃ place, disk.walk cur front = .done place ∧ disk.node place = some .directory) ∨
      ∃ base target later, disk.walk cur front = .follow base target later := by
  induction front generalizing cur with
  | nil => exact .inl ⟨cur, rfl, dir⟩
  | cons component later ih =>
    cases component with
    | parent => exact ih (sound.above dir) unfailed
    | normal name =>
      have busy : (later ++ rest).isEmpty = false := by
        cases later with
        | nil => exact isEmpty_eq_false_iff.mpr more
        | cons _ _ => rfl
      rw [cons_append, walk] at unfailed
      rw [walk]
      cases found : disk.node (cur ++ [name]) with
      | none => simp [found, busy] at unfailed
      | some node =>
        cases node with
        | directory =>
          simp only [found] at unfailed
          exact ih found unfailed
        | file bytes => simp [found, busy] at unfailed
        | link target => exact .inr ⟨cur, target, later, rfl⟩

theorem resolve_front (sound : disk.Sound) {base : Location} {front : List Component}
    (more : rest ≠ []) (home : disk.node cur = some .directory)
    (found : disk.resolve links cur (front ++ rest) = .ok base) :
    ∃ place, disk.resolve links cur front = .ok place ∧ disk.node place = some .directory := by
  induction links generalizing cur front with
  | zero =>
    rcases walk_front sound more home (resolve_unfailed found) with
      ⟨place, walked, dir⟩ | ⟨place, target, later, walked⟩
    · exact ⟨place, resolve_done walked 0, dir⟩
    · unfold resolve at found
      rw [walk_append_follow walked] at found
      cases found
  | succ links ih =>
    have unfailed := resolve_unfailed found
    rcases walk_front sound more home unfailed with
      ⟨place, walked, dir⟩ | ⟨place, target, later, walked⟩
    · exact ⟨place, resolve_done walked _, dir⟩
    · have housed := @walk_housed disk front cur sound home
      rw [walked] at housed
      unfold resolve at found ⊢
      rw [walk_append_follow walked] at found
      rw [walked]
      simp only [← append_assoc] at found
      refine ih ?_ found
      split_ifs
      · rfl
      · exact housed

/-- The path leads to a directory, and the environment refuses nothing. -/
structure Based (world : World) (home : Path) (base : Location) : Prop where
  sound : world.Sound
  calm : ∀ call, world.fault call = .none
  found : world.locate home = .ok base
  directory : world.disk.node base = some .directory

/-- The names follow the path. -/
def Path.below (home : Path) (names : Location) : Path :=
  {home with components := home.components ++ names.map .normal, slash := false}

/-- Only directories are in the way of the names. -/
def Clear (disk : Disk) (base names : Location) : Prop :=
  ∀ inner, inner <+: names →
    disk.node (base ++ inner) = none ∨ disk.node (base ++ inner) = some .directory

variable {world : World} {home : Path} {base : Location}

theorem Based.kept {after : World} (based : Based world home base) (sound : after.Sound)
    (fault : after.fault = world.fault) (cur : after.current = world.current)
    (kept : Keeps world.disk after.disk) : Based after home base where
  sound := sound
  calm call := by rw [fault, based.calm]
  found := by
    rw [locate, cur]
    exact resolve_kept kept based.found (by simp [based.directory])
  directory := kept base .directory based.directory

theorem Based.tick (based : Based world home base) : Based world.tick home base :=
  based.kept (based.sound.same rfl rfl) rfl rfl fun _ _ found => found

variable {name : String} {names : Location} {path : Path} {loc : Location}

theorem walk_directories (sound : disk.Sound)
    (dir : disk.node (base ++ names) = some .directory) (rest : List Component) :
    disk.walk base (names.map .normal ++ rest) = disk.walk (base ++ names) rest := by
  induction names using List.reverseRecOn generalizing rest with
  | nil => rw [append_nil]; rfl
  | append_singleton front name ih =>
    have above := sound.above dir
    rw [← append_assoc] at dir ⊢
    rw [← append_assoc, dropLast_concat] at above
    rw [map_append, append_assoc, ih above]
    change disk.walk (base ++ front) (.normal name :: rest) = _
    rw [walk, dir]

theorem walk_missing (dir : disk.node base = some .directory) (clear : Clear disk base names)
    (missing : disk.node (base ++ names) = none) :
    disk.walk base (names.map .normal) = .done (base ++ names) ∨
      disk.walk base (names.map .normal) = .failed .notFound := by
  induction names generalizing base with
  | nil =>
    rw [append_nil, dir] at missing
    cases missing
  | cons name rest ih =>
    rw [map_cons, walk]
    rcases clear [name] (cons_prefix_cons.mpr ⟨rfl, List.nil_prefix⟩) with absent | there
    · rw [absent]
      cases rest with
      | nil => exact .inl rfl
      | cons _ _ => exact .inr rfl
    · rw [there]
      have later : Clear disk (base ++ [name]) rest := by
        intro inner shorter
        rw [append_assoc]
        exact clear (name :: inner) (cons_prefix_cons.mpr ⟨rfl, shorter⟩)
      have gone : disk.node (base ++ [name] ++ rest) = none := by
        rw [append_assoc]
        exact missing
      have split : base ++ name :: rest = base ++ [name] ++ rest := by
        rw [append_assoc]
        rfl
      rw [split]
      exact ih there later gone

section

variable (based : Based world home base)
include based

theorem Based.locate_directory (dir : world.disk.node (base ++ names) = some .directory) :
    world.locate (home.below names) = .ok (base ++ names) := by
  have walked := walk_directories based.sound.disk dir []
  rw [append_nil] at walked
  exact (resolve_append based.found based.directory).1 _ walked

theorem Based.locate_entry {front : Location}
    (dir : world.disk.node (base ++ front) = some .directory)
    (unlinked : ∀ target, world.disk.node (base ++ front ++ [name]) ≠ some (.link target)) :
    world.locate (home.below (front ++ [name])) = .ok (base ++ front ++ [name]) := by
  apply (resolve_append based.found based.directory).1
  rw [map_append, walk_directories based.sound.disk dir]
  change world.disk.walk _ [.normal name] = _
  rw [walk]
  cases found : world.disk.node (base ++ front ++ [name]) with
  | none => rfl
  | some node =>
    cases node with
    | directory | file => rfl
    | link target => exact absurd found (unlinked target)

omit based in
theorem vacant_below (front : Location) (name : String) :
    world.vacant (home.below (front ++ [name])) =
      match world.locate (home.below front) with
      | .error errno => .error errno
      | .ok place =>
        match world.disk.node place with
        | some .directory =>
          if (world.disk.node (place ++ [name])).isSome then .error .other
          else .ok (place ++ [name])
        | some _ => .error .other
        | none => .error .notFound := by
  have split : (home.below (front ++ [name])).components =
      (home.below front).components ++ [.normal name] := by
    simp [Path.below]
  unfold vacant
  rw [split, getLast?_concat, dropLast_concat]
  rfl

/-- The directory itself is no vacant place. -/
theorem Based.vacant_home
    (absolute : path.absolute = home.absolute) (whole : path.components = home.components) :
    world.vacant path = .error .other := by
  have located : world.locate path = .ok base := by
    unfold locate
    rw [whole, absolute]
    exact based.found
  unfold vacant
  split
  · next name last =>
    obtain ⟨front, split⟩ := getLast?_eq_some_iff.mp last
    have start : world.disk.node (if path.absolute then [] else world.current) =
        some .directory := by
      split_ifs
      · rfl
      · exact based.sound.home
    have reached : world.disk.resolve maxLinks
        (if path.absolute then [] else world.current) (front ++ [.normal name]) = .ok base := by
      rw [← split]
      exact located
    obtain ⟨place, found, dir⟩ :=
      resolve_front based.sound.disk (by simp) start reached
    have parent : world.locate {path with components := path.components.dropLast} = .ok place := by
      rw [split, dropLast_concat]
      exact found
    have present := resolve_present reached based.directory
      (resolve_lands (Effect.refl world) found)
    rw [parent]
    simp only [dir, present, if_true]
  · rw [located]

theorem Based.mkdir_error {errno : Errno} (vacant : world.vacant path = .error errno) :
    world.mkdir path = (.error errno, world.tick) := by
  unfold mkdir
  rw [based.calm, vacant]

theorem Based.alreadyThere (located : world.locate path = .ok loc)
    (dir : world.disk.node loc = some .directory) (errno : Errno) :
    world.alreadyThere path errno = (.ok (), world.tick) := by
  unfold World.alreadyThere World.isDir
  rw [based.calm, located]
  simp [dir]

/-- In a directory a directory is made, or it is there. -/
theorem Based.mkdir_inside {front : Location}
    (parent : world.disk.node (base ++ front) = some .directory)
    (clear : world.disk.node (base ++ front ++ [name]) = none ∨
      world.disk.node (base ++ front ++ [name]) = some .directory) :
    (∃ after, world.mkdir (home.below (front ++ [name])) = (.ok (), after) ∧
        after.fault = world.fault ∧ after.disk.node (base ++ front ++ [name]) = some .directory) ∨
      world.mkdir (home.below (front ++ [name])) = (.error .other, world.tick) ∧
        world.disk.node (base ++ front ++ [name]) = some .directory := by
  have vacant := @vacant_below world home front name
  simp only [based.locate_directory parent, parent] at vacant
  rcases clear with missing | there
  · left
    rw [missing] at vacant
    refine ⟨{world.tick with disk := world.disk.insert (base ++ front ++ [name]) .directory},
      ?_, rfl, ?_⟩
    · unfold mkdir
      rw [based.calm, vacant]
      rfl
    · rw [node_insert world.disk (by simp), if_pos rfl]
  · right
    rw [there] at vacant
    exact ⟨based.mkdir_error vacant, there⟩

theorem Based.vacant_missing {front : Location}
    (clear : Clear world.disk base front) (missing : world.disk.node (base ++ front) = none) :
    world.vacant (home.below (front ++ [name])) = .error .notFound := by
  rw [vacant_below]
  rcases walk_missing based.directory clear missing with walked | walked
  · have located : world.locate (home.below front) = .ok (base ++ front) :=
      (resolve_append based.found based.directory).1 _ walked
    simp only [located, missing]
  · have failed : world.locate (home.below front) = .error .notFound :=
      (resolve_append based.found based.directory).2 _ walked
    simp only [failed]

omit based in
theorem Clear.front {front : Location} (clear : Clear disk base (front ++ [name])) :
    Clear disk base front :=
  fun inner shorter => clear inner (shorter.trans (prefix_append _ _))

omit based in
theorem Clear.last {front : Location} (clear : Clear disk base (front ++ [name])) :
    disk.node (base ++ front ++ [name]) = none ∨
      disk.node (base ++ front ++ [name]) = some .directory := by
  rw [append_assoc]
  exact clear _ (prefix_refl _)

/-- A directory that is there needs nothing. -/
theorem Based.createDirs_home (path : Path)
    (absolute : path.absolute = home.absolute) (whole : path.components = home.components)
    (depth : Nat) :
    ∃ after, world.createDirs path depth = (.ok (), after) ∧ after.fault = world.fault ∧
      after.current = world.current ∧ after.disk = world.disk := by
  have located : world.tick.locate path = .ok base := by
    unfold locate
    rw [whole, absolute]
    exact based.tick.found
  have made := based.mkdir_error (based.vacant_home absolute whole)
  have there := based.tick.alreadyThere located based.directory .other
  cases depth with
  | zero =>
    unfold createDirs
    split_ifs
    · rw [made, there]
      exact ⟨_, rfl, rfl, rfl, rfl⟩
    · exact ⟨_, rfl, rfl, rfl, rfl⟩
  | succ depth =>
    unfold createDirs
    rw [made]
    exact ⟨_, there, rfl, rfl, rfl⟩

/-- All directories are made when nothing is in the way. -/
theorem Based.createDirAll (clear : Clear world.disk base names) :
    ∃ after, world.createDirAll (home.below names) = (.ok (), after) ∧
      after.fault = world.fault ∧ after.disk.node (base ++ names) = some .directory := by
  unfold World.createDirAll
  induction names using List.reverseRecOn generalizing world with
  | nil =>
    have whole : (home.below []).components = home.components := by simp [Path.below]
    obtain ⟨after, made, fault, _, disk⟩ := based.createDirs_home (home.below []) rfl whole _
    refine ⟨after, made, fault, ?_⟩
    rw [disk, append_nil]
    exact based.directory
  | append_singleton front name ih =>
    have depth : (home.below (front ++ [name])).components.length =
        (home.below front).components.length + 1 := by
      simp [Path.below]
      omega
    rw [depth, World.createDirs, ← append_assoc]
    rcases clear.front front (prefix_refl _) with missing | parent
    · have absent := based.sound.disk.missing_below missing name
      rw [based.mkdir_error (based.vacant_missing clear.front missing)]
      have above : (home.below (front ++ [name])).parent = some (home.below front) := by
        simp [Path.parent, Path.below, ← append_assoc]
      simp only [above]
      obtain ⟨middle, made, fault, dir⟩ := ih based.tick clear.front
      have effect := createDirs_effect world.tick (home.below front)
        (home.below front).components.length
      have sound := createDirs_sound based.tick.sound (home.below front)
        (home.below front).components.length
      rw [made] at effect sound ⊢
      have kept : Based middle home base := based.kept sound fault effect.current
        fun loc node found => effect.kept loc node not_mem_nil found
      rcases kept.mkdir_inside dir (effect.free_or_directory absent) with
        ⟨after, remade, same, there⟩ | ⟨remade, there⟩
      · simp only [remade]
        exact ⟨after, rfl, same.trans fault, there⟩
      · simp only [remade]
        rw [append_assoc] at there
        rw [kept.tick.alreadyThere (kept.tick.locate_directory there) there, append_assoc]
        exact ⟨_, rfl, fault, there⟩
    · rcases based.mkdir_inside parent clear.last with
        ⟨after, made, fault, dir⟩ | ⟨made, dir⟩
      · rw [made]
        exact ⟨after, rfl, fault, dir⟩
      · rw [made]
        rw [append_assoc] at dir ⊢
        simp only
        rw [based.tick.alreadyThere (based.tick.locate_directory dir) dir]
        exact ⟨_, rfl, rfl, dir⟩

/-- A file is written in a directory when its name is free. -/
theorem Based.write {front : Location} (parent : world.disk.node (base ++ front) = some .directory)
    (missing : world.disk.node (base ++ front ++ [name]) = none) (bytes : Bytes) :
    world.write (home.below (front ++ [name])) bytes =
      (.ok (), world.store (base ++ front ++ [name]) bytes) := by
  have located := based.locate_entry parent fun target linked => by
    rw [missing] at linked
    cases linked
  have plain : (home.below (front ++ [name])).slash = false := rfl
  unfold World.write World.target
  rw [based.calm, located, plain]
  simp only [missing]
  rfl

variable {bytes : Bytes}

omit based in
theorem file_some_iff : disk.file loc = some bytes ↔ disk.node loc = some (.file bytes) := by
  unfold file
  cases disk.node loc with
  | none => simp
  | some node => cases node <;> simp

theorem Based.read (found : world.disk.node (base ++ names) = some (.file bytes)) :
    world.read (home.below names) = (.ok bytes, world.tick) := by
  rcases eq_nil_or_concat names with rfl | ⟨front, name, rfl⟩
  · rw [append_nil, based.directory] at found
    cases found
  · rw [concat_eq_append, ← append_assoc] at found
    have parent := based.sound.disk _ _ (by simp) found
    rw [dropLast_concat] at parent
    have located := based.locate_entry parent fun target linked => by
      rw [found] at linked
      cases linked
    rw [concat_eq_append]
    unfold World.read
    rw [based.calm, located]
    simp only [found]
    rfl

end

end A3Net.Machine
