import A3Net.Cryptography.Bytes
import A3Net.Machine.Table

namespace A3Net.Machine

open List

/-- A location names the directories from the root down. -/
abbrev Location := List String

inductive Component where
  | parent
  | normal (name : String)
deriving DecidableEq

/-- A text that ends with a slash or a dot can only name a directory. -/
structure Path where
  absolute : Bool
  components : List Component
  slash : Bool := false
deriving DecidableEq

namespace Path

def component (piece : List Char) : Option Component :=
  if piece = [] ∨ piece = ['.'] then none
  else if piece = ['.', '.'] then some .parent
  else some (.normal (String.ofList piece))

def parse (text : List Char) : Path :=
  let pieces := text.splitOn '/'
  let last := pieces.getLastD []
  ⟨text.head? = some '/', pieces.filterMap component, last = [] ∨ last = ['.']⟩

/-- An absolute path replaces the base. -/
def join (base path : Path) : Path :=
  if path.absolute then path
  else {base with components := base.components ++ path.components, slash := path.slash}

def parent (path : Path) : Option Path :=
  if path.components.isEmpty then none
  else some {path with components := path.components.dropLast, slash := false}

end Path

inductive Errno where
  | notFound
  | other
deriving DecidableEq

inductive Node where
  | directory
  | file (bytes : Bytes)
  | link (target : Path)
deriving DecidableEq

abbrev Disk := Table Location Node

namespace Disk

/-- The root is always a directory. -/
def node (disk : Disk) (loc : Location) : Option Node :=
  if loc = [] then some .directory else disk.lookup loc

def file (disk : Disk) (loc : Location) : Option Bytes :=
  match disk.node loc with
  | some (.file bytes) => some bytes
  | _ => none

/-- A walk ends at a location, comes to a symbolic link, or fails. -/
inductive Walk where
  | done (loc : Location)
  | follow (base : Location) (target : Path) (rest : List Component)
  | failed (errno : Errno)

/-- Only the last component of a path may be missing. -/
def walk (disk : Disk) (cur : Location) : List Component → Walk
  | [] => .done cur
  | .parent :: rest => disk.walk cur.dropLast rest
  | .normal name :: rest =>
    match disk.node (cur ++ [name]) with
    | some .directory => disk.walk (cur ++ [name]) rest
    | some (.link target) => .follow cur target rest
    | some (.file _) => if rest.isEmpty then .done (cur ++ [name]) else .failed .other
    | none => if rest.isEmpty then .done (cur ++ [name]) else .failed .notFound

/-- At most a fixed number of symbolic links is followed. -/
def resolve (disk : Disk) (links : Nat) (cur : Location) (path : List Component) :
    Except Errno Location :=
  match disk.walk cur path, links with
  | .done loc, _ => .ok loc
  | .failed errno, _ => .error errno
  | .follow _ _ _, 0 => .error .other
  | .follow base target rest, links + 1 =>
    disk.resolve links (if target.absolute then [] else base) (target.components ++ rest)
termination_by structural links

/-- This walk takes a missing name for a directory that will be made. -/
def walkOver (disk : Disk) (cur : Location) : List Component → Walk
  | [] => .done cur
  | .parent :: rest => disk.walkOver cur.dropLast rest
  | .normal name :: rest =>
    match disk.node (cur ++ [name]) with
    | some (.link target) => .follow cur target rest
    | _ => disk.walkOver (cur ++ [name]) rest

/-- A path leads here once its missing directories are made. -/
def lands (disk : Disk) (links : Nat) (cur : Location) (path : List Component) :
    Option Location :=
  match disk.walkOver cur path, links with
  | .done loc, _ => some loc
  | .follow base target rest, links + 1 =>
    disk.lands links (if target.absolute then [] else base) (target.components ++ rest)
  | _, _ => none
termination_by structural links

end Disk

/-- The environment lets a call happen, refuses it, or stops it after some bytes. -/
inductive Fault where
  | none
  | refused
  | short (count : Nat)

/-- The numbered calls meet the faults of the environment. The written locations are history. -/
structure World where
  disk : Disk
  current : Location
  fault : Nat → Fault
  calls : Nat := 0
  written : List Location := []

namespace World

def maxLinks : Nat := 40

variable (world : World)

def tick : World := {world with calls := world.calls + 1}

variable (path : Path)

def locate : Except Errno Location :=
  world.disk.resolve maxLinks (if path.absolute then [] else world.current) path.components

def lands (world : World) (path : Path) : Option Location :=
  world.disk.lands maxLinks (if path.absolute then [] else world.current) path.components

/-- A new directory has a missing name in a directory that exists. A link is no missing name. -/
def vacant : Except Errno Location :=
  match path.components.getLast? with
  | some (.normal name) =>
    match world.locate {path with components := path.components.dropLast} with
    | .error errno => .error errno
    | .ok base =>
      match world.disk.node base with
      | some .directory =>
        if (world.disk.node (base ++ [name])).isSome then .error .other
        else .ok (base ++ [name])
      | some _ => .error .other
      | none => .error .notFound
  | _ =>
    match world.locate path with
    | .error errno => .error errno
    | .ok _ => .error .other

def mkdir : Except Errno Unit × World :=
  match world.fault world.calls, world.vacant path with
  | .none, .ok loc =>
    (.ok (), {world.tick with disk := world.disk.insert loc .directory})
  | .none, .error errno => (.error errno, world.tick)
  | _, _ => (.error .other, world.tick)

def isDir : Bool × World :=
  match world.fault world.calls, world.locate path with
  | .none, .ok loc => (world.disk.node loc = some .directory, world.tick)
  | _, _ => (false, world.tick)

/-- A path that ends with a slash needs a directory at its end. -/
def isThere : Bool × World :=
  match world.fault world.calls, world.locate path with
  | .none, .ok loc =>
    ((world.disk.node loc).isSome &&
      (!path.slash || world.disk.node loc = some .directory), world.tick)
  | _, _ => (false, world.tick)

/-- A file is opened for writing, whether it is there or not. -/
def target : Except Errno Location :=
  if path.slash then .error .other
  else
    match world.locate path with
    | .error errno => .error errno
    | .ok loc =>
      if world.disk.node loc = some .directory then .error .other else .ok loc

/-- The opened file is empty until its bytes arrive. -/
def store (loc : Location) (bytes : Bytes) : World :=
  {world.tick with
    disk := world.disk.insert loc (.file bytes), written := world.written ++ [loc]}

def write (bytes : Bytes) : Except Errno Unit × World :=
  match world.fault world.calls, world.target path with
  | .none, .ok loc => (.ok (), world.store loc bytes)
  | .short count, .ok loc => (.error .other, world.store loc (bytes.take count))
  | .none, .error errno => (.error errno, world.tick)
  | _, _ => (.error .other, world.tick)

def read : Except Errno Bytes × World :=
  match world.fault world.calls, world.locate path with
  | .none, .ok loc =>
    match world.disk.node loc with
    | some (.file bytes) => (if path.slash then .error .other else .ok bytes, world.tick)
    | some _ => (.error .other, world.tick)
    | none => (.error .notFound, world.tick)
  | .none, .error errno => (.error errno, world.tick)
  | _, _ => (.error .other, world.tick)

/-- A directory that could not be made may be there already. -/
def alreadyThere (errno : Errno) : Except Errno Unit × World :=
  let (there, world) := world.isDir path
  (if there then .ok () else .error errno, world)

/-- Missing parents are made first. The depth counts the components that are left, and the empty
path needs nothing. -/
def createDirs (world : World) (path : Path) : Nat → Except Errno Unit × World
  | 0 => if path.absolute then (world.mkdir path).2.alreadyThere path .other else (.ok (), world)
  | depth + 1 =>
    match world.mkdir path with
    | (.ok (), world) => (.ok (), world)
    | (.error .other, world) => world.alreadyThere path .other
    | (.error .notFound, world) =>
      match path.parent with
      | none => (.error .other, world)
      | some parent =>
        match world.createDirs parent depth with
        | (.error errno, world) => (.error errno, world)
        | (.ok (), world) =>
          match world.mkdir path with
          | (.ok (), world) => (.ok (), world)
          | (.error errno, world) => world.alreadyThere path errno

def createDirAll : Except Errno Unit × World :=
  world.createDirs path path.components.length

/-- The environment and the disk let a write open this file. -/
def opened : Option Location :=
  match world.fault world.calls, world.target path with
  | .refused, _ => none
  | _, .ok loc => some loc
  | _, .error _ => none

end World

variable (world : World) {loc : Location} (path : Path)

theorem node_insert (disk : Disk) (below : loc ≠ []) (node : Node) (other : Location) :
    Disk.node (disk.insert loc node) other =
      if other = loc then some node else disk.node other := by
  unfold Disk.node
  rw [Table.lookup_insert_eq]
  by_cases root : other = []
  · subst root
    simp [below.symm]
  · simp [root]

/-- A free place is a missing name in the directory that the path before it leads to. -/
theorem vacant_spec {world : World} {path : Path} (vacant : world.vacant path = .ok loc) :
    ∃ name base, path.components.getLast? = some (.normal name) ∧
      world.locate {path with components := path.components.dropLast} = .ok base ∧
        world.disk.node base = some .directory ∧ world.disk.node (base ++ [name]) = none ∧
          loc = base ++ [name] := by
  revert vacant
  fun_cases World.vacant world path with
  | case3 name last base located dir there =>
    rintro ⟨⟩
    exact ⟨name, base, last, located, dir, by simpa using there, rfl⟩
  | _ => rintro ⟨⟩

theorem vacant_ok {world : World} {path : Path} (vacant : world.vacant path = .ok loc) :
    loc ≠ [] ∧ world.disk.node loc = none := by
  obtain ⟨name, base, -, -, -, missing, rfl⟩ := vacant_spec vacant
  exact ⟨by simp, missing⟩

theorem target_ok {world : World} {path : Path} (target : world.target path = .ok loc) :
    world.locate path = .ok loc ∧ loc ≠ [] := by
  revert target
  fun_cases World.target world path with
  | case4 slash place located there =>
    rintro ⟨⟩
    exact ⟨located, fun root => there (by rw [root]; rfl)⟩
  | _ => rintro ⟨⟩

/-- A call opens some files for writing. All other nodes stay, and only directories are new. -/
structure Effect (before after : World) (opened : List Location) : Prop where
  current : after.current = before.current
  written : after.written = before.written ++ opened
  kept : ∀ loc node, loc ∉ opened →
    before.disk.node loc = some node → after.disk.node loc = some node
  fresh : ∀ loc node, loc ∉ opened → after.disk.node loc = some node →
    before.disk.node loc = some node ∨ node = .directory
  link : ∀ loc target, after.disk.node loc = some (.link target) →
    before.disk.node loc = some (.link target)

variable {opened : List Location}

/-- A file that is not opened keeps its bytes. -/
theorem Effect.file {before after : World} (effect : Effect before after opened)
    (outside : loc ∉ opened) : after.disk.file loc = before.disk.file loc := by
  unfold Disk.file
  cases old : before.disk.node loc with
  | some node => rw [effect.kept loc node outside old]
  | none =>
    cases new : after.disk.node loc with
    | none => rfl
    | some node =>
      rcases effect.fresh loc node outside new with same | rfl
      · rw [old] at same
        cases same
      · rfl

theorem Effect.unchanged {before after : World} (cur : after.current = before.current)
    (written : after.written = before.written) (disk : after.disk = before.disk) :
    Effect before after [] where
  current := cur
  written := by rw [written, append_nil]
  kept _ _ _ found := by rw [disk, found]
  fresh _ _ _ found := Or.inl (by rw [← disk, found])
  link _ _ found := by rw [← disk, found]

theorem Effect.refl : Effect world world [] := Effect.unchanged rfl rfl rfl

theorem Effect.tick : Effect world world.tick [] := Effect.unchanged rfl rfl rfl

theorem Effect.trans {before middle after : World} {first second : List Location}
    (one : Effect before middle first) (other : Effect middle after second) :
    Effect before after (first ++ second) where
  current := other.current.trans one.current
  written := by rw [other.written, one.written, append_assoc]
  kept loc node outside found := by
    rw [mem_append, not_or] at outside
    exact other.kept loc node outside.2 (one.kept loc node outside.1 found)
  fresh loc node outside found := by
    rw [mem_append, not_or] at outside
    rcases other.fresh loc node outside.2 found with middle | new
    · exact one.fresh loc node outside.1 middle
    · exact Or.inr new
  link loc target found := one.link loc target (other.link loc target found)

theorem Effect.directory {world : World} (below : loc ≠ []) (missing : world.disk.node loc = none) :
    Effect world {world.tick with disk := world.disk.insert loc .directory} [] where
  current := rfl
  written := (append_nil _).symm
  kept other node _ found := by
    have ne : other ≠ loc := by
      rintro rfl
      rw [missing] at found
      cases found
    rw [node_insert world.disk below, if_neg ne, found]
  fresh other node _ found := by
    rw [node_insert world.disk below] at found
    split_ifs at found
    · exact Or.inr (Option.some.inj found).symm
    · exact Or.inl found
  link other target found := by
    rw [node_insert world.disk below] at found
    split_ifs at found
    · cases found
    · exact found

theorem Effect.store {world : World} (below : loc ≠ []) (bytes : Bytes) :
    Effect world (world.store loc bytes) [loc] where
  current := rfl
  written := rfl
  kept other node outside found := by
    rw [World.store, node_insert world.disk below, if_neg (by simpa using outside), found]
  fresh other node outside found := by
    rw [World.store, node_insert world.disk below, if_neg (by simpa using outside)] at found
    exact Or.inl found
  link other target found := by
    rw [World.store, node_insert world.disk below] at found
    split_ifs at found
    · cases found
    · exact found

/-- Where no file is written and nothing was, only a directory can be made. -/
theorem Effect.free_or_directory {before after : World} (effect : Effect before after [])
    (missing : before.disk.node loc = none) :
    after.disk.node loc = none ∨ after.disk.node loc = some .directory := by
  cases found : after.disk.node loc with
  | none => exact .inl rfl
  | some node =>
    rcases effect.fresh _ node not_mem_nil found with old | rfl
    · rw [missing] at old
      cases old
    · exact .inr rfl

theorem mkdir_effect : Effect world (world.mkdir path).2 [] := by
  fun_cases World.mkdir world path with
  | case1 loc vacant calm =>
    obtain ⟨below, missing⟩ := vacant_ok vacant
    exact Effect.directory below missing
  | case2 | case3 => exact Effect.tick world

theorem alreadyThere_tick (errno : Errno) : (world.alreadyThere path errno).2 = world.tick := by
  change (world.isDir path).2 = world.tick
  unfold World.isDir
  split <;> rfl

theorem read_effect : Effect world (world.read path).2 [] := by
  unfold World.read
  split
  · split <;> exact Effect.tick world
  · exact Effect.tick world
  · exact Effect.tick world

/-- A write opens at most one file, whether it succeeds or not. -/
theorem write_effect {bytes : Bytes} :
    Effect world (world.write path bytes).2 (world.opened path).toList := by
  unfold World.write World.opened
  cases fault : world.fault world.calls <;> cases target : world.target path <;>
    first
      | exact Effect.tick world
      | exact Effect.store (target_ok target).2 _

/-- What each call does for its path, the loop that makes the parents first does as well. -/
theorem createDirs_induct {relation : Path → World → World → Prop}
    (refl : ∀ path world, relation path world world)
    (trans : ∀ {path first second third}, relation path first second →
      relation path second third → relation path first third)
    (above : ∀ {path parent first second}, path.parent = some parent →
      relation parent first second → relation path first second)
    (make : ∀ path (world : World), relation path world (world.mkdir path).2)
    (look : ∀ path (world : World) errno, relation path world (world.alreadyThere path errno).2)
    (path : Path) (world : World) (depth : Nat) :
    relation path world (world.createDirs path depth).2 := by
  have made : ∀ {path : Path} {world after result}, world.mkdir path = (result, after) →
      relation path world after := by
    intro path world after result called
    have first := make path world
    rwa [called] at first
  fun_induction World.createDirs world path depth with
  | case1 world path => exact trans (make path world) (look path _ .other)
  | case2 world path => exact refl path world
  | case3 world path depth after done => exact made done
  | case4 world path depth after failed => exact trans (made failed) (look path _ .other)
  | case5 world path depth after missing => exact made missing
  | case6 world path depth middle missing parent found errno after failed ih =>
    rw [failed] at ih
    exact trans (made missing) (above found ih)
  | case7 world path depth middle missing parent found ready parents after done ih =>
    rw [parents] at ih
    exact trans (made missing) (trans (above found ih) (made done))
  | case8 world path depth middle missing parent found ready parents errno after failed ih =>
    rw [parents] at ih
    exact trans (made missing)
      (trans (above found ih) (trans (made failed) (look path after errno)))

theorem createDirs_effect (depth : Nat) : Effect world (world.createDirs path depth).2 [] := by
  apply @createDirs_induct fun _ before after => Effect before after []
  · exact fun _ world => Effect.refl world
  · exact fun one other => one.trans other
  · exact fun _ effect => effect
  · exact fun path world => mkdir_effect world path
  · intro path world errno
    rw [alreadyThere_tick]
    exact Effect.tick world

theorem createDirAll_effect : Effect world (world.createDirAll path).2 [] :=
  createDirs_effect world path path.components.length

section Landing

variable {cur : Location}

theorem walkOver_unlinked {disk : Disk} {name : String}
    (unlinked : ∀ target, disk.node (cur ++ [name]) ≠ some (.link target)) (rest : List Component) :
    disk.walkOver cur (.normal name :: rest) = disk.walkOver (cur ++ [name]) rest := by
  rw [Disk.walkOver]
  split
  · next target found => exact absurd found (unlinked target)
  · rfl

variable {before after : World} (effect : Effect before after [])
include effect

/-- The directories that a call made were missing names before. -/
theorem walk_walkOver (cur : Location) (path : List Component) :
    (∃ errno, after.disk.walk cur path = .failed errno) ∨
      before.disk.walkOver cur path = after.disk.walk cur path := by
  induction path generalizing cur with
  | nil => exact Or.inr rfl
  | cons component rest ih =>
    cases component with
    | parent => exact ih _
    | normal name =>
      have old : ∀ target, before.disk.node (cur ++ [name]) = some (.link target) →
          after.disk.node (cur ++ [name]) = some (.link target) :=
        fun target => effect.kept _ _ not_mem_nil
      unfold Disk.walk
      split
      · next found =>
        rw [walkOver_unlinked fun target linked => by simp [old target linked] at found]
        exact ih _
      · next target found =>
        right
        rw [Disk.walkOver, effect.link _ target found]
      all_goals
        next found =>
          rw [walkOver_unlinked fun target linked => by simp [old target linked] at found]
          cases rest with
          | nil => exact Or.inr rfl
          | cons _ _ => exact Or.inl ⟨_, rfl⟩

theorem resolve_lands {links : Nat} {path : List Component}
    (found : after.disk.resolve links cur path = .ok loc) :
    before.disk.lands links cur path = some loc := by
  fun_induction Disk.resolve after.disk links cur path with
  | case1 links cur path place walked =>
    have same := (walk_walkOver effect cur path).resolve_left (by simp [walked])
    unfold Disk.lands
    rw [same, walked]
    exact congrArg some (Except.ok.inj found)
  | case2 | case3 => cases found
  | case4 cur path base target rest links walked ih =>
    have same := (walk_walkOver effect cur path).resolve_left (by simp [walked])
    unfold Disk.lands
    rw [same, walked]
    exact ih found

/-- After the directories are made a path is found where it was to lead. -/
theorem locate_lands {path : Path} (found : after.locate path = .ok loc) :
    before.lands path = some loc := by
  unfold World.locate at found
  rw [effect.current] at found
  exact resolve_lands effect found

end Landing

/-- A disk without symbolic links. -/
def Linkless (disk : Disk) : Prop := ∀ loc target, disk.node loc ≠ some (.link target)

theorem Effect.linkless {before after : World} (effect : Effect before after opened)
    (linkless : Linkless before.disk) : Linkless after.disk :=
  fun loc target found => linkless loc target (effect.link loc target found)

/-- The components are taken one after the other without a look at the disk. -/
def normalise (cur : Location) : List Component → Location
  | [] => cur
  | .parent :: rest => normalise cur.dropLast rest
  | .normal name :: rest => normalise (cur ++ [name]) rest

variable (cur : Location)

theorem normalise_append (first second : List Component) :
    normalise cur (first ++ second) = normalise (normalise cur first) second := by
  induction first generalizing cur with
  | nil => rfl
  | cons component rest ih =>
    cases component with
    | parent | normal => exact ih _

/-- Components that do not climb stay below the current location. -/
theorem prefix_normalise (path : List Component) (plain : .parent ∉ path) :
    cur <+: normalise cur path := by
  induction path generalizing cur with
  | nil => exact prefix_refl cur
  | cons component rest ih =>
    have later : .parent ∉ rest := fun climbs => plain (mem_cons_of_mem _ climbs)
    cases component with
    | parent => exact absurd (mem_cons_self) plain
    | normal name => exact (prefix_append cur [name]).trans (ih _ later)

/-- Without symbolic links a path leads where its text says. -/
theorem lands_normalise {world : World} (linkless : Linkless world.disk) {path : Path} :
    world.lands path =
      some (normalise (if path.absolute then [] else world.current) path.components) := by
  have walks : ∀ (components : List Component) (cur : Location),
      world.disk.walkOver cur components = .done (normalise cur components) := by
    intro components
    induction components with
    | nil => exact fun _ => rfl
    | cons component rest ih =>
      intro cur
      cases component with
      | parent => exact ih _
      | normal name =>
        rw [walkOver_unlinked (linkless _)]
        exact ih _
  unfold World.lands Disk.lands
  rw [walks]

end A3Net.Machine
