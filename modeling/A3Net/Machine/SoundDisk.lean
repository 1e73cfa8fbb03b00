/-
This file keeps a disk sound, which means that every node lies in a directory, and says when
directories are made and files are written and read back.
-/

import A3Net.Machine.Landing

namespace A3Net.Machine

section Sound

/-- Every node lies in a directory. -/
def Disk.Sound (disk : Disk) : Prop :=
  ∀ loc node, loc ≠ [] → disk.node loc = some node → disk.node loc.dropLast = some .directory

/-- The program works in a directory. -/
structure World.Sound (world : World) : Prop where
  disk : world.disk.Sound
  home : world.disk.node world.current = some .directory

/-- A file can be at a location that lies in a directory and is no link. -/
def Housed (disk : Disk) (loc : Location) : Prop :=
  disk.node loc = some .directory ∨ loc ≠ [] ∧
    disk.node loc.dropLast = some .directory ∧ ∀ target, disk.node loc ≠ some (.link target)

variable {disk : Disk} {loc : Location}

theorem Disk.Sound.above (sound : disk.Sound) (dir : disk.node loc = some .directory) :
    disk.node loc.dropLast = some .directory := by
  by_cases root : loc = []
  · rw [root]
    rfl
  · exact sound loc _ root dir

theorem Disk.Sound.missing_below (sound : disk.Sound) (missing : disk.node loc = none)
    (name : String) : disk.node (loc ++ [name]) = none := by
  by_contra present
  obtain ⟨node, found⟩ := Option.ne_none_iff_exists'.mp present
  have above := sound _ node (by simp) found
  rw [List.dropLast_concat, missing] at above
  cases above

/-- A walk ends at a housed location or at a link in a directory. -/
def WalkHoused (disk : Disk) : Disk.Walk → Prop
  | .done loc => Housed disk loc
  | .follow base _ _ => disk.node base = some .directory
  | .failed _ => True

variable {path : List Component} {cur : Location}

theorem walk_housed (sound : disk.Sound) (dir : disk.node cur = some .directory) :
    WalkHoused disk (disk.walk cur path) := by
  fun_induction Disk.walk disk cur path with
  | case1 => exact .inl dir
  | case2 cur rest ih => exact ih (sound.above dir)
  | case3 cur name rest found ih => exact ih found
  | case4 => exact dir
  | case5 _ _ _ _ found | case7 _ _ _ found =>
    exact .inr ⟨by simp, by simpa using dir, by simp [found]⟩
  | case6 | case8 => trivial

theorem resolve_housed (sound : disk.Sound) {links : Nat}
    (dir : disk.node cur = some .directory)
    (found : disk.resolve links cur path = .ok loc) : Housed disk loc := by
  revert dir
  refine resolve_induct ?_ ?_ found
  · intro links cur path walked dir
    have housed := @walk_housed disk path cur sound dir
    rw [walked] at housed
    exact housed
  · intro links cur path base target rest walked ih dir
    have housed := @walk_housed disk path cur sound dir
    rw [walked] at housed
    apply ih
    split_ifs
    · rfl
    · exact housed

theorem locate_housed {world : World} (sound : world.Sound) {path : Path}
    (found : world.locate path = .ok loc) : Housed world.disk loc := by
  refine resolve_housed sound.disk ?_ found
  split_ifs
  · rfl
  · exact sound.home

/-- A new node in a directory keeps the disk sound, unless it takes the place of a directory. -/
theorem insert_sound (sound : disk.Sound) (below : loc ≠ [])
    (parent : disk.node loc.dropLast = some .directory)
    (plain : disk.node loc ≠ some .directory) {node : Node} :
    Disk.Sound (disk.insert loc node) := by
  intro other there inside found
  have shorter : loc.dropLast ≠ loc := by
    intro same
    have lengths := congrArg List.length same
    rw [List.length_dropLast] at lengths
    have positive := List.length_pos_iff.mpr below
    omega
  rw [node_insert disk below] at found ⊢
  split_ifs at found with equal
  · rw [equal, if_neg shorter]
    exact parent
  · have above := sound other there inside found
    have apart : other.dropLast ≠ loc := fun same => plain (same ▸ above)
    rw [if_neg apart]
    exact above

end Sound

variable {world : World} {path : Path}

theorem vacant_parent {loc : Location} (vacant : world.vacant path = .ok loc) :
    world.disk.node loc.dropLast = some .directory := by
  obtain ⟨name, base, -, -, dir, -, rfl⟩ := vacant_spec vacant
  rw [List.dropLast_concat]
  exact dir

variable {after : World} {bytes : Bytes}

section

variable (sound : world.Sound)
include sound

variable {loc : Location}

theorem World.Sound.insert (below : loc ≠ [])
    (parent : world.disk.node loc.dropLast = some .directory)
    (plain : world.disk.node loc ≠ some .directory) (node : Node)
    (disk : after.disk = world.disk.insert loc node) (cur : after.current = world.current) :
    after.Sound where
  disk := disk ▸ insert_sound sound.disk below parent plain
  home := by
    have apart : world.current ≠ loc := fun same => plain (same ▸ sound.home)
    rw [disk, cur, node_insert world.disk below, if_neg apart]
    exact sound.home

theorem World.Sound.same (disk : after.disk = world.disk) (cur : after.current = world.current) :
    after.Sound where
  disk := disk ▸ sound.disk
  home := by
    rw [disk, cur]
    exact sound.home

theorem mkdir_sound : (world.mkdir path).2.Sound := by
  fun_cases World.mkdir world path with
  | case1 loc vacant calm =>
    obtain ⟨below, missing⟩ := vacant_ok vacant
    exact sound.insert below (vacant_parent vacant) (by simp [missing]) .directory rfl rfl
  | case2 | case3 => exact sound.same rfl rfl

theorem createDirs_sound (path : Path) (depth : Nat) : (world.createDirs path depth).2.Sound := by
  refine @createDirs_induct (fun _ before after => before.Sound → after.Sound) ?_ ?_ ?_ ?_ ?_
    path world depth sound
  · exact fun _ _ kept => kept
  · exact fun one other kept => other (one kept)
  · exact fun _ kept => kept
  · exact fun path _ kept => mkdir_sound kept
  · intro path _ errno kept
    rw [alreadyThere_tick]
    exact kept.same rfl rfl

theorem target_housed (target : world.target path = .ok loc) :
    loc ≠ [] ∧ world.disk.node loc.dropLast = some .directory ∧
      world.disk.node loc ≠ some .directory ∧
        ∀ other, world.disk.node loc ≠ some (.link other) := by
  obtain ⟨located, below⟩ := target_ok target
  have plain : world.disk.node loc ≠ some .directory := by
    intro dir
    unfold World.target at target
    simp only [located, dir] at target
    split_ifs at target
  rcases locate_housed sound located with dir | ⟨_, parent, unlinked⟩
  · exact absurd dir plain
  · exact ⟨below, parent, plain, unlinked⟩

theorem written_sound (target : world.target path = .ok loc) :
    (world.store loc bytes).Sound ∧ SameLinks (world.store loc bytes).disk world.disk := by
  obtain ⟨below, parent, plain, unlinked⟩ := target_housed sound target
  refine ⟨sound.insert below parent plain (.file bytes) rfl rfl, ?_⟩
  intro other link
  rw [World.store, node_insert world.disk below]
  split_ifs with same
  · constructor
    · intro linked
      cases linked
    · intro linked
      exact absurd (same ▸ linked) (unlinked link)
  · exact Iff.rfl

/-- A write that succeeds stores the bytes where its path leads. -/
theorem write_ok (written : world.write path bytes = (.ok (), after)) :
    ∃ loc, world.lands path = some loc ∧ loc ≠ [] ∧
      after = world.store loc bytes ∧ after.Sound ∧ SameLinks after.disk world.disk := by
  revert written
  fun_cases World.write world path bytes with
  | case1 loc target calm =>
    rintro ⟨⟩
    obtain ⟨kept, links⟩ := written_sound sound target
    exact ⟨loc, locate_lands (Effect.refl world) (target_ok target).1, (target_ok target).2,
      rfl, kept, links⟩
  | _ => rintro ⟨⟩

end

theorem file_store {loc : Location} (below : loc ≠ []) (bytes : Bytes) (other : Location) :
    (world.store loc bytes).disk.file other =
      if other = loc then some bytes else world.disk.file other := by
  unfold Disk.file World.store
  rw [node_insert world.disk below]
  split_ifs <;> rfl

/-- A read that succeeds gives the bytes of the file where its path leads. -/
theorem read_ok (done : world.read path = (.ok bytes, after)) :
    after = world.tick ∧ ∃ loc, world.lands path = some loc ∧ world.disk.file loc = some bytes := by
  revert done
  fun_cases World.read world path with
  | case1 loc located calm content found =>
    split_ifs
    · rintro ⟨⟩
    · rintro ⟨⟩
      refine ⟨rfl, loc, locate_lands (Effect.refl world) located, ?_⟩
      rw [Disk.file, found]
  | _ => rintro ⟨⟩

end A3Net.Machine
