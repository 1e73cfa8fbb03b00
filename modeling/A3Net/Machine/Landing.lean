import A3Net.Machine.FileSystem

namespace A3Net.Machine

open List Disk

section Follow

variable {disk : Disk} {loc : Location} {motive : Nat → Location → List Component → Prop}
  {cur : Location} {path : List Component} {links : Nat}

/-- A path that is found ends without a link or follows its first link. -/
@[elab_as_elim]
theorem resolve_induct (ended : ∀ links cur path, disk.walk cur path = .done loc →
      motive links cur path) (linked : ∀ links cur path base target rest,
      disk.walk cur path = .follow base target rest →
        motive links (if target.absolute then [] else base) (target.components ++ rest) →
          motive (links + 1) cur path) (found : disk.resolve links cur path = .ok loc) :
    motive links cur path := by
  fun_induction resolve disk links cur path with
  | case1 links cur path place walked =>
    cases found
    exact ended links cur path walked
  | case2 | case3 => cases found
  | case4 cur path base target rest links walked ih =>
    exact linked links cur path base target rest walked (ih found)

/-- A path that leads somewhere ends without a link or follows its first link. -/
@[elab_as_elim]
theorem lands_induct (ended : ∀ links cur path, disk.walkOver cur path = .done loc →
      motive links cur path) (linked : ∀ links cur path base target rest,
      disk.walkOver cur path = .follow base target rest →
        motive links (if target.absolute then [] else base) (target.components ++ rest) →
          motive (links + 1) cur path) (found : disk.lands links cur path = some loc) :
    motive links cur path := by
  fun_induction lands disk links cur path with
  | case1 links cur path place walked =>
    cases found
    exact ended links cur path walked
  | case2 cur path base target rest links walked ih =>
    exact linked links cur path base target rest walked (ih found)
  | case3 => cases found

theorem resolve_done (walked : disk.walk cur path = .done loc) (links : Nat) :
    disk.resolve links cur path = .ok loc := by
  unfold resolve
  rw [walked]

end Follow

variable {first second : Disk}

/-- Two disks have the same symbolic links. -/
def SameLinks (first second : Disk) : Prop :=
  ∀ loc target, first.node loc = some (.link target) ↔ second.node loc = some (.link target)

theorem SameLinks.refl (disk : Disk) : SameLinks disk disk := fun _ _ => Iff.rfl

theorem SameLinks.trans {third : Disk} (one : SameLinks first second)
    (other : SameLinks second third) : SameLinks first third :=
  fun loc target => (one loc target).trans (other loc target)

theorem walkOver_congr (same : SameLinks first second) (cur : Location)
    (path : List Component) : first.walkOver cur path = second.walkOver cur path := by
  fun_induction walkOver first cur path with
  | case1 => rfl
  | case2 cur rest ih => exact ih
  | case3 cur name rest target found => rw [walkOver, (same _ target).mp found]
  | case4 cur name rest unlinked ih =>
    rw [walkOver_unlinked fun target found => unlinked target ((same _ target).mpr found)]
    exact ih

theorem lands_congr (same : SameLinks first second) (links : Nat) (cur : Location)
    (path : List Component) : first.lands links cur path = second.lands links cur path := by
  induction links generalizing cur path with
  | zero =>
    unfold lands
    rw [walkOver_congr same]
    cases second.walkOver cur path <;> rfl
  | succ links ih =>
    unfold lands
    rw [walkOver_congr same]
    cases second.walkOver cur path with
    | done | failed => rfl
    | follow base target rest => exact ih _ _

theorem Effect.sameLinks {before after : World} (effect : Effect before after []) :
    SameLinks after.disk before.disk :=
  fun loc target => ⟨effect.link loc target, effect.kept _ _ not_mem_nil⟩

theorem Effect.lands {before after : World} (effect : Effect before after []) (path : Path) :
    after.lands path = before.lands path := by
  rw [World.lands, effect.current]
  exact lands_congr effect.sameLinks _ _ _

variable {disk : Disk}

theorem walkOver_append (cur : Location) (first second : List Component) :
    disk.walkOver cur (first ++ second) =
      match disk.walkOver cur first with
      | .done loc => disk.walkOver loc second
      | .follow base target rest => .follow base target (rest ++ second)
      | .failed errno => .failed errno := by
  fun_induction walkOver disk cur first with
  | case1 => rfl
  | case2 cur rest ih => exact ih
  | case3 cur name rest target found => rw [cons_append, walkOver, found]
  | case4 cur name rest unlinked ih =>
    rw [cons_append, walkOver_unlinked unlinked]
    exact ih

/-- Nothing at the location or below it is a symbolic link. -/
def Unlinked (disk : Disk) (base : Location) : Prop :=
  ∀ loc target, base <+: loc → disk.node loc ≠ some (.link target)

theorem walkOver_names {base : Location} (unlinked : Unlinked disk base) (names done : Location) :
    disk.walkOver (base ++ done) (names.map .normal) = .done (base ++ done ++ names) := by
  induction names generalizing done with
  | nil => rw [append_nil]; rfl
  | cons name rest ih =>
    have below : base <+: base ++ done ++ [name] := by
      rw [append_assoc]
      exact prefix_append base _
    rw [map_cons, walkOver_unlinked fun target => unlinked _ target below,
      append_assoc base, ih, append_assoc, append_assoc, append_assoc]
    rfl

/-- Names that follow a path lead below the place that the path leads to. -/
theorem lands_extend {links : Nat} {cur base : Location} {path : List Component}
    (found : disk.lands links cur path = some base) (unlinked : Unlinked disk base)
    {names : Location} :
    disk.lands links cur (path ++ names.map .normal) = some (base ++ names) := by
  have below : disk.walkOver base (names.map .normal) = .done (base ++ names) := by
    simpa using walkOver_names unlinked names []
  refine lands_induct ?_ ?_ found
  · intro links cur path walked
    unfold lands
    simp only [walkOver_append, walked, below]
  · intro links cur path place target rest walked later
    rw [append_assoc] at later
    unfold lands
    rw [walkOver_append, walked]
    exact later

variable {rest front : List Component}

/-- The front of a path that leads somewhere leads somewhere. -/
theorem lands_front {links : Nat} {cur loc : Location}
    (found : disk.lands links cur (front ++ rest) = some loc) :
    ∃ base, disk.lands links cur front = some base := by
  induction links generalizing cur front with
  | zero =>
    unfold lands at found ⊢
    rw [walkOver_append] at found
    cases walked : disk.walkOver cur front with
    | done base => exact ⟨base, rfl⟩
    | failed | follow => rw [walked] at found; cases found
  | succ links ih =>
    unfold lands at found ⊢
    rw [walkOver_append] at found
    cases walked : disk.walkOver cur front with
    | done base => exact ⟨base, rfl⟩
    | failed errno => rw [walked] at found; cases found
    | follow base target later =>
      rw [walked] at found
      simp only [← append_assoc] at found
      exact ih found

/-- A write leaves the disk alone, or it stores a file where its path leads. -/
theorem write_cases {world : World} {path : Path} {bytes : Bytes} :
    (world.write path bytes).2 = world.tick ∨
      ∃ loc kept, world.lands path = some loc ∧ loc ≠ [] ∧
        (world.write path bytes).2 = world.store loc kept := by
  have leads : ∀ {loc}, world.target path = .ok loc →
      world.lands path = some loc ∧ loc ≠ [] := fun target =>
    ⟨locate_lands (Effect.refl world) (target_ok target).1, (target_ok target).2⟩
  unfold World.write
  cases fault : world.fault world.calls <;> cases target : world.target path <;>
    first
      | exact .inl rfl
      | exact .inr ⟨_, _, (leads target).1, (leads target).2, rfl⟩

/-- The location is a name on the path, in the directory that the path before it leads to. -/
def OnTheWay (world : World) (path : Path) (loc : Location) : Prop :=
  ∃ front name base, front ++ [.normal name] <+: path.components ∧
    world.lands {path with components := front} = some base ∧ loc = base ++ [name]

/-- Only directories on the way of the path are new. -/
structure Makes (before after : World) (path : Path) : Prop where
  effect : Effect before after []
  onTheWay : ∀ loc, before.disk.node loc = none → after.disk.node loc ≠ none →
    OnTheWay before path loc

variable {world before middle after : World} {path : Path}

theorem Makes.of_same (effect : Effect before after []) (same : after.disk = before.disk) :
    Makes before after path :=
  ⟨effect, fun loc missing there => absurd (by rw [same, missing]) there⟩

theorem Makes.trans (one : Makes before middle path) (other : Makes middle after path) :
    Makes before after path := by
  refine ⟨by simpa using one.effect.trans other.effect, fun loc missing there => ?_⟩
  by_cases absent : middle.disk.node loc = none
  · obtain ⟨front, name, base, inside, leads, same⟩ := other.onTheWay loc absent there
    exact ⟨front, name, base, inside, (one.effect.lands _).symm.trans leads, same⟩
  · exact one.onTheWay loc missing absent

theorem Makes.of_parent {parent : Path} (above : path.parent = some parent)
    (makes : Makes before after parent) : Makes before after path := by
  refine ⟨makes.effect, fun loc missing there => ?_⟩
  obtain ⟨front, name, base, inside, leads, same⟩ := makes.onTheWay loc missing there
  unfold Path.parent at above
  split_ifs at above
  obtain rfl := Option.some_inj.mp above
  exact ⟨front, name, base, inside.trans (List.dropLast_prefix _), leads, same⟩

theorem vacant_onTheWay {loc : Location} (vacant : world.vacant path = .ok loc) :
    OnTheWay world path loc := by
  obtain ⟨name, base, last, located, -, -, rfl⟩ := vacant_spec vacant
  have whole : path.components.dropLast ++ [.normal name] = path.components := by
    obtain ⟨front, split⟩ := getLast?_eq_some_iff.mp last
    rw [split, dropLast_concat]
  exact ⟨path.components.dropLast, name, base, ⟨[], by rw [append_nil, whole]⟩,
    locate_lands (Effect.refl world) located, rfl⟩

theorem mkdir_makes {world : World} {path : Path} : Makes world (world.mkdir path).2 path := by
  refine ⟨mkdir_effect world path, fun loc missing => ?_⟩
  fun_cases World.mkdir world path with
  | case1 made vacant calm =>
    rw [node_insert world.disk (vacant_ok vacant).1]
    split_ifs with same
    · exact fun _ => same ▸ vacant_onTheWay vacant
    · exact fun there => absurd missing there
  | _ => exact fun there => absurd missing there

theorem createDirs_makes {world : World} {path : Path} {depth : Nat} :
    Makes world (world.createDirs path depth).2 path := by
  apply @createDirs_induct fun path before after => Makes before after path
  · exact fun _ world => Makes.of_same (Effect.refl world) rfl
  · exact fun one other => one.trans other
  · exact fun found makes => Makes.of_parent found makes
  · exact fun path world => mkdir_makes
  · intro path world errno
    rw [alreadyThere_tick]
    exact Makes.of_same (Effect.tick world) rfl

theorem createDirAll_makes (world : World) (path : Path) :
    Makes world (world.createDirAll path).2 path :=
  createDirs_makes

section Below

variable {start : World} {home : Path}
  (unlinked : ∀ base ∈ start.lands home, Unlinked start.disk base)
include unlinked

/-- Names that follow a path lead below the place that it leads to. -/
theorem lands_names {path : Path} {names loc : Location} (absolute : path.absolute = home.absolute)
    (components : path.components = home.components ++ names.map .normal)
    (leads : start.lands path = some loc) :
    ∃ base ∈ start.lands home, loc = base ++ names := by
  rw [World.lands, absolute, components] at leads
  obtain ⟨base, found⟩ := lands_front leads
  refine ⟨base, found, ?_⟩
  rw [lands_extend found (unlinked base found)] at leads
  exact (Option.some_inj.mp leads).symm

/-- A name on the way of such names is on the way of the path, or it is one of the names. -/
theorem onTheWay_names {path : Path} {names loc : Location}
    (absolute : path.absolute = home.absolute)
    (components : path.components <+: home.components ++ names.map .normal)
    (onTheWay : OnTheWay start path loc) :
    OnTheWay start home loc ∨ ∃ base inner, base ∈ start.lands home ∧ inner ≠ [] ∧
      inner <+: names ∧ loc = base ++ inner := by
  obtain ⟨front, name, base, inside, leads, rfl⟩ := onTheWay
  have outer : front ++ [.normal name] <+: home.components →
      OnTheWay start home (base ++ [name]) := by
    intro above
    refine ⟨front, name, base, above, ?_, rfl⟩
    rw [World.lands, absolute] at leads
    exact leads
  have whole := inside.trans components
  rcases List.prefix_or_prefix_of_prefix whole (prefix_append _ _) with above | ⟨more, below⟩
  · exact .inl (outer above)
  · rw [← below, prefix_append_right_inj] at whole
    obtain ⟨inner, shorter, rfl⟩ := prefix_map_iff.mp whole
    rcases eq_nil_or_concat inner with rfl | ⟨last, piece, rfl⟩
    · rw [map_nil, append_nil] at below
      exact .inl (outer (below ▸ prefix_refl _))
    · rw [concat_eq_append] at below shorter
      rw [map_append, ← append_assoc] at below
      obtain ⟨same, final⟩ := append_inj' below rfl
      obtain ⟨place, found, rfl⟩ := @lands_names start home unlinked
        {path with components := front} last base absolute same.symm leads
      obtain rfl : piece = name := by simpa using final
      refine .inr ⟨place, last ++ [piece], found, by simp, shorter, ?_⟩
      rw [append_assoc]

end Below

variable {name : String} {links : Nat} {loc cur base : Location}

theorem walk_through (across : disk.walkOver cur front = .done loc)
    (unfailed : ∀ errno, disk.walk cur (front ++ .normal name :: rest) ≠ .failed errno) :
    disk.walk cur (front ++ .normal name :: rest) = disk.walk loc (.normal name :: rest) := by
  fun_induction walkOver disk cur front with
  | case1 =>
    cases across
    rfl
  | case2 cur later ih => exact ih across unfailed
  | case3 => cases across
  | case4 cur next later unlinked ih =>
    have busy : (later ++ .normal name :: rest).isEmpty = false := by
      cases later <;> rfl
    rw [cons_append, walk] at unfailed ⊢
    cases found : disk.node (cur ++ [next]) with
    | none => simp [found, busy] at unfailed
    | some node =>
      cases node with
      | directory =>
        simp only [found] at unfailed ⊢
        exact ih across unfailed
      | file bytes => simp [found, busy] at unfailed
      | link target => exact absurd found (unlinked target)

/-- A walk that comes to a link in its front goes on with the rest. -/
theorem walk_follow {target : Path} {later : List Component}
    (across : disk.walkOver cur front = .follow base target later)
    (unfailed : ∀ errno, disk.walk cur (front ++ rest) ≠ .failed errno) :
    disk.walk cur (front ++ rest) = .follow base target (later ++ rest) := by
  rcases walk_walkOver (Effect.refl ⟨disk, [], fun _ => .none, 0, []⟩) cur (front ++ rest) with
    ⟨errno, failed⟩ | same
  · exact absurd failed (unfailed errno)
  · rw [← same, walkOver_append]
    simp only [across]

theorem resolve_unfailed {path : List Component}
    (found : disk.resolve links cur path = .ok loc) (errno : Errno) :
    disk.walk cur path ≠ .failed errno := by
  intro failed
  unfold resolve at found
  rw [failed] at found
  cases links <;> cases found

section

variable (found : disk.resolve links cur (front ++ .normal name :: rest) = .ok base)
  (dir : disk.node base = some .directory)
include found dir

theorem present_direct (across : disk.walkOver cur front = .done loc) :
    (disk.node (loc ++ [name])).isSome := by
  have walked := walk_through across (resolve_unfailed found)
  cases there : disk.node (loc ++ [name]) with
  | some node => rfl
  | none =>
    rw [walk, there] at walked
    cases rest with
    | cons _ _ => exact absurd walked (resolve_unfailed found _)
    | nil =>
      have done : disk.walk cur (front ++ [.normal name]) = .done (loc ++ [name]) :=
        walked
      unfold resolve at found
      rw [done] at found
      obtain rfl : loc ++ [name] = base := by cases links <;> exact Except.ok.inj found
      rw [there] at dir
      cases dir

/-- Every name on the way of a path to a directory is there. -/
theorem resolve_present (leads : disk.lands links cur front = some loc) :
    (disk.node (loc ++ [name])).isSome := by
  revert found
  refine lands_induct ?_ ?_ leads
  · intro links cur front across found
    exact present_direct found dir across
  · intro links cur front place target later across ih found
    have follow := walk_follow across (resolve_unfailed found)
    unfold resolve at found
    rw [follow] at found
    simp only [← append_assoc] at found
    exact ih found

end

theorem OnTheWay.present {world : World} {path : Path} (onTheWay : OnTheWay world path loc)
    (found : world.locate path = .ok base) (dir : world.disk.node base = some .directory) :
    (world.disk.node loc).isSome := by
  obtain ⟨front, name, place, ⟨rest, whole⟩, leads, rfl⟩ := onTheWay
  rw [World.locate, ← whole, append_assoc] at found
  exact resolve_present found dir leads

end A3Net.Machine
