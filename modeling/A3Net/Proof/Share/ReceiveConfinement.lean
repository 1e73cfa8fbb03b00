import A3Net.Construction.Share.Receive
import A3Net.Machine.Fallible
import A3Net.Machine.Landing

namespace A3Net.Share

open Cryptography Machine List

/-- The location is the place that the output directory leads to, or it is below. -/
def Inside (world : World) (outDir : Path) (loc : Location) : Prop :=
  ∃ base ∈ world.lands outDir, base <+: loc

/-- A collection is decoded and then received. -/
def receiveDecoded (services : Services) (decode : Bytes → Except String (List CollectionEntry))
    (options : ReceiveOptions) (bytes : Bytes) (world : World) :
    Except ShareError ReceiveStats × World :=
  match Collection.fromBytes decode bytes with
  | .error error => (.error error, world)
  | .ok manifest => receive services options manifest world

/-- The files that were written lie inside, and so does every change, apart from the missing
directories on the way. -/
structure Kept (start world : World) (outDir : Path) : Prop where
  written : ∀ loc ∈ world.written, loc ∈ start.written ∨ Inside start outDir loc
  changed : ∀ loc, world.disk.node loc ≠ start.disk.node loc →
    Inside start outDir loc ∨
      start.disk.node loc = none ∧ world.disk.node loc = some .directory ∧ OnTheWay start outDir loc

variable {name : List Char} {debug : List Char → String}

theorem pushParts_ok {root dest : Path} {parts : List NamePart}
    (joined : parts.foldlM (pushPart debug name) root = .ok dest) :
    ∃ names : Location, dest.absolute = root.absolute ∧
      dest.components = root.components ++ names.map .normal := by
  induction parts generalizing root with
  | nil =>
    cases joined
    exact ⟨[], rfl, (append_nil _).symm⟩
  | cons part rest ih =>
    rw [foldlM_cons, bind_ok_iff] at joined
    obtain ⟨middle, pushed, later⟩ := joined
    cases part with
    | normal piece =>
      cases pushed
      obtain ⟨names, absolute, components⟩ := ih later
      refine ⟨piece :: names, absolute, ?_⟩
      rw [components, pushName, append_assoc]
      rfl
    | rootDir | curDir | parentDir => cases pushed

section Steps

/-- What is known about the disk between two steps. -/
structure Held (start world : World) (outDir : Path) : Prop extends Kept start world outDir where
  current : world.current = start.current
  links : SameLinks world.disk start.disk

variable {start world after : World} {outDir : Path}

theorem Held.refl (start : World) (outDir : Path) : Held start start outDir where
  written _ member := .inl member
  changed _ ne := absurd rfl ne
  current := rfl
  links := SameLinks.refl start.disk

theorem Held.lands (held : Held start world outDir) (path : Path) :
    world.lands path = start.lands path := by
  rw [World.lands, held.current]
  exact lands_congr held.links _ _ _

/-- A step that changes neither the disk nor the history keeps what is known. -/
theorem Held.of_same (held : Held start world outDir) (cur : after.current = world.current)
    (disk : after.disk = world.disk) (written : after.written = world.written) :
    Held start after outDir where
  written := by rw [written]; exact held.written
  changed := by rw [disk]; exact held.changed
  current := cur.trans held.current
  links := by rw [disk]; exact held.links

variable (unlinked : ∀ base ∈ start.lands outDir, Unlinked start.disk base)
include unlinked

/-- Directories that are made for a destination keep what is known. -/
theorem Held.makes (held : Held start world outDir) {path : Path} {names : Location}
    (absolute : path.absolute = outDir.absolute)
    (components : path.components <+: outDir.components ++ names.map .normal)
    (makes : Makes world after path) : Held start after outDir where
  written := by
    rw [makes.effect.written, append_nil]
    exact held.written
  changed loc ne := by
    by_cases same : after.disk.node loc = world.disk.node loc
    · rw [same] at ne ⊢
      exact held.changed loc ne
    have missing : world.disk.node loc = none := by
      cases found : world.disk.node loc with
      | none => rfl
      | some node =>
        exact absurd (makes.effect.kept loc node not_mem_nil found)
          (fun kept => same (kept.trans found.symm))
    have there : after.disk.node loc ≠ none := fun absent =>
      same (absent.trans missing.symm)
    have dir : after.disk.node loc = some .directory := by
      obtain ⟨node, found⟩ := Option.ne_none_iff_exists'.mp there
      rcases makes.effect.fresh loc node not_mem_nil found with old | new
      · rw [missing] at old
        cases old
      · rw [found, new]
    have origin : Inside start outDir loc ∨ start.disk.node loc = none := by
      by_cases old : world.disk.node loc = start.disk.node loc
      · exact .inr (old.symm.trans missing)
      · exact (held.changed loc old).imp_right And.left
    obtain ⟨front, name, base, inside, leads, equal⟩ := makes.onTheWay loc missing there
    rw [held.lands] at leads
    have onTheWay : OnTheWay start path loc := ⟨front, name, base, inside, leads, equal⟩
    rcases onTheWay_names unlinked absolute components onTheWay with above | ⟨base, inner, below⟩
    · exact origin.imp_right fun absent => ⟨absent, dir, above⟩
    · obtain ⟨found, _, _, rfl⟩ := below
      exact .inl ⟨base, found, prefix_append _ _⟩
  current := makes.effect.current.trans held.current
  links := makes.effect.sameLinks.trans held.links

section

variable (held : Held start world outDir) {dest : Path} {names : Location}
  (absolute : dest.absolute = outDir.absolute)
  (components : dest.components = outDir.components ++ names.map .normal) (bytes : Bytes)
include held absolute components

/-- A write to a destination keeps what is known. -/
theorem Held.write : Held start (world.write dest bytes).2 outDir := by
  rcases write_cases with same | ⟨loc, stored, leads, below, same⟩
  · rw [same]
    exact held.of_same rfl rfl rfl
  rw [held.lands] at leads
  obtain ⟨base, found, rfl⟩ := lands_names unlinked absolute components leads
  have inside : Inside start outDir (base ++ names) := ⟨base, found, prefix_append _ _⟩
  have node := node_insert world.disk below (.file stored)
  rw [same]
  refine ⟨⟨?_, ?_⟩, held.current, ?_⟩
  · exact forall_mem_append.mpr ⟨held.written, forall_mem_singleton.mpr (.inr inside)⟩
  · intro other ne
    rw [World.store, node] at ne ⊢
    split_ifs at ne ⊢ with equal
    · exact .inl (equal ▸ inside)
    · exact held.changed other ne
  · intro other target
    rw [World.store, node]
    split_ifs with equal
    · constructor
      · intro linked
        cases linked
      · intro linked
        exact absurd linked (unlinked base found other target (equal ▸ prefix_append _ _))
    · exact held.links other target

theorem Held.writeFile : Held start (writeFile world dest bytes).2 outDir := by
  unfold Share.writeFile
  cases above : dest.parent with
  | none => exact held.write unlinked absolute components bytes
  | some parent =>
    have front : parent.absolute = outDir.absolute ∧
        parent.components <+: outDir.components ++ names.map .normal := by
      unfold Path.parent at above
      split_ifs at above
      obtain rfl := Option.some_inj.mp above
      exact ⟨absolute, components ▸ List.dropLast_prefix _⟩
    have made := held.makes unlinked front.1 front.2 (createDirAll_makes world parent)
    dsimp only
    cases created : world.createDirAll parent with
    | mk result after =>
      rw [created] at made
      cases result with
      | error errno => exact made
      | ok _ => exact made.write unlinked absolute components bytes

end

variable (services : Services) (overwrite : Bool)

/-- One entry keeps what is known, whether it succeeds or not. -/
theorem Held.receiveEntry (held : Held start world outDir) (entry : CollectionEntry) :
    Held start (receiveEntry services overwrite outDir entry world).2 outDir := by
  unfold Share.receiveEntry
  cases services.readAll entry.hash with
  | error text => exact held
  | ok bytes =>
    cases joined : joinUnder services.debug outDir entry.name with
    | error error => exact held
    | ok dest =>
      obtain ⟨names, absolute, components⟩ := pushParts_ok joined
      have looked : Held start (world.isThere dest).2 outDir := by
        unfold World.isThere
        split <;> exact held.of_same rfl rfl rfl
      dsimp only
      split_ifs
      · exact looked
      · exact looked.writeFile unlinked absolute components bytes

theorem Held.receiveAll (held : Held start world outDir) (entries : List CollectionEntry)
    (stats : ReceiveStats) :
    Held start (receiveAll services overwrite outDir entries stats world).2 outDir := by
  induction entries generalizing stats world with
  | nil => exact held
  | cons entry rest ih =>
    have next := held.receiveEntry unlinked services overwrite entry
    unfold Share.receiveAll
    split
    · next ended =>
      rw [ended] at next
      exact next
    · next ended =>
      rw [ended] at next
      exact ih next _

end Steps

theorem receive_held {services : Services} {options : ReceiveOptions} {manifest : Collection}
    {world : World}
    (unlinked : ∀ base ∈ world.lands (outDirOf options world).1, Unlinked world.disk base) :
    Held world (receive services options manifest world).2 (outDirOf options world).1 := by
  have opened : Held world (outDirOf options world).2 (outDirOf options world).1 := by
    have same : (outDirOf options world).2 = world ∨ (outDirOf options world).2 = world.tick := by
      unfold outDirOf currentDir
      split
      · exact .inl rfl
      · split <;> exact .inr rfl
    rcases same with same | same
    · rw [same]
      exact Held.refl world _
    · rw [same]
      exact (Held.refl world _).of_same rfl rfl rfl
  exact opened.receiveAll unlinked services options.overwrite manifest.entries {}

/-- Whatever names were decoded, the files lie in the output directory, and only missing directories
on the way to it are made outside. When the directory is there, nothing outside changes. -/
theorem receive_confined (services : Services)
    (decode : Bytes → Except String (List CollectionEntry)) (options : ReceiveOptions)
    (bytes : Bytes) (world : World)
    (unlinked : ∀ base ∈ world.lands (outDirOf options world).1, Unlinked world.disk base) :
    Kept world (receiveDecoded services decode options bytes world).2
        (outDirOf options world).1 ∧
      ∀ base, world.locate (outDirOf options world).1 = .ok base →
        world.disk.node base = some .directory → ∀ loc,
          (receiveDecoded services decode options bytes world).2.disk.node loc ≠
            world.disk.node loc → base <+: loc := by
  have kept : Kept world (receiveDecoded services decode options bytes world).2
      (outDirOf options world).1 := by
    unfold receiveDecoded
    cases Collection.fromBytes decode bytes with
    | error error => exact (Held.refl world _).toKept
    | ok manifest => exact (receive_held unlinked).toKept
  refine ⟨kept, fun base located dir loc ne => ?_⟩
  rcases kept.changed loc ne with ⟨home, found, inside⟩ | ⟨missing, _, onTheWay⟩
  · have leads := locate_lands (Effect.refl world) located
    rw [leads] at found
    obtain rfl := Option.some_inj.mp found
    exact inside
  · have present := onTheWay.present located dir
    rw [missing] at present
    cases present

def sampleServices : Services where
  readAll _ := .ok [0x61]
  debug := String.ofList
  display _ := "target"

/-- The collection has one entry in a directory of its own. -/
def sampleDecode (_ : Bytes) : Except String (List CollectionEntry) :=
  .ok [⟨"photos/one".toList, sampleHash⟩]

def emptyWorld : World := {disk := ∅, current := [], fault := fun _ => .none}

def missingDir : ReceiveOptions := {outDir := some (Path.parse "new/inbox".toList)}

theorem emptyWorld_unlinked {base : Location} : Unlinked emptyWorld.disk base := by
  intro loc target _ linked
  unfold Disk.node at linked
  split_ifs at linked
  · cases linked
  · rw [show emptyWorld.disk = ∅ from rfl, AList.lookup_empty] at linked
    cases linked

theorem receive_confined_missing :
    Kept emptyWorld (receiveDecoded sampleServices sampleDecode missingDir [] emptyWorld).2
        (outDirOf missingDir emptyWorld).1 ∧
      (receiveDecoded sampleServices sampleDecode missingDir [] emptyWorld).2.written =
        [["new", "inbox", "photos", "one"]] :=
  ⟨(receive_confined sampleServices sampleDecode missingDir [] emptyWorld
    fun base _ => emptyWorld_unlinked).1, by decide +kernel⟩

/-- A missing output directory is made with its missing parents, which lie outside. -/
theorem receive_makes_parents :
    ¬ ∀ (services : Services) (decode : Bytes → Except String (List CollectionEntry))
      (options : ReceiveOptions) (bytes : Bytes) (world : World),
        (∀ base ∈ world.lands (outDirOf options world).1, Unlinked world.disk base) →
          ∀ loc, (receiveDecoded services decode options bytes world).2.disk.node loc ≠
            world.disk.node loc → Inside world (outDirOf options world).1 loc := by
  intro confined
  have made : (receiveDecoded sampleServices sampleDecode missingDir [] emptyWorld).2.disk.node
      ["new"] = some .directory := by
    decide +kernel
  have inside := confined sampleServices sampleDecode missingDir [] emptyWorld
    (fun base _ => emptyWorld_unlinked) ["new"] (by rw [made]; decide)
  have home : emptyWorld.lands (outDirOf missingDir emptyWorld).1 = some ["new", "inbox"] := by
    decide +kernel
  obtain ⟨base, found, below⟩ := inside
  rw [home] at found
  obtain rfl := Option.some_inj.mp found
  exact absurd below (by decide)

end A3Net.Share
