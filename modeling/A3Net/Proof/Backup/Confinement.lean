import A3Net.Construction.Backup.Restore

namespace A3Net.Backup

open Cryptography Machine Effect List

variable (parseManifest : ParseManifest) (destDir : Path) (home : Option Location)

def Inside (loc : Location) : Prop :=
  ∃ base ∈ home, base <+: loc

variable (world : World) (archive : Archive)

/-- No file outside the destination directory is opened for writing, and all of them stay as they
are, whatever the restore returns. -/
def Confined : Prop :=
  let after := (restore parseManifest destDir world archive).2
  ∀ loc, ¬ Inside (world.lands destDir) loc →
    loc ∉ after.written ∧ after.disk.file loc = world.disk.file loc

/-- The parent directories are made before the file is opened. -/
def entryOpens (path : Path) : Option Location :=
  match createParent world path with
  | (.error _, _) => none
  | (.ok (), world) => world.opened path

variable (state : Unpacking)

/-- The loop opens this file for an entry. -/
def opens (entry : TarEntry) : Option Location :=
  match state.failed, entry with
  | none, .ok (rel, _) =>
    if rel = manifestName then none else entryOpens state.world (destPath destDir rel)
  | _, _ => none

/-- The path of an entry leads here on the disk that the loop finds. -/
def leads (entry : TarEntry) : Option Location :=
  match entry with
  | .ok (rel, _) => state.world.lands (destPath destDir rel)
  | .error _ => none

/-- The path of an entry that the loop opens leads into the destination directory. -/
def EntryInside (entry : TarEntry) : Prop :=
  opens destDir state entry = none ∨ ∃ loc ∈ leads destDir state entry, Inside home loc

/-- Each entry that the loop reaches leads into the destination directory. -/
def EntriesInside : Prop :=
  ∀ created entries, world.createDirAll destDir = (.ok (), created) →
    archive.open = .ok entries →
      Guarded (unpackEntry parseManifest destDir) (EntryInside destDir (world.lands destDir))
        {world := created} entries

section Effect

variable (state : Unpacking) (path : Path)

theorem createParent_effect : Effect world (createParent world path).2 [] := by
  unfold createParent
  split
  · exact createDirAll_effect world _
  · exact refl world

theorem writeEntry_effect (bytes : Bytes) :
    Effect world (writeEntry world path bytes).2 (entryOpens world path).toList := by
  have parents := createParent_effect world path
  unfold writeEntry entryOpens
  cases made : createParent world path with
  | mk result middle =>
    rw [made] at parents
    cases result with
    | error errno => exact parents
    | ok _ => exact parents.trans (write_effect middle path)

/-- One round of the loop opens at most the file of its entry. -/
theorem unpackEntry_effect (entry : TarEntry) :
    Effect state.world (unpackEntry parseManifest destDir state entry).world
      (opens destDir state entry).toList := by
  unfold unpackEntry opens
  cases state.failed with
  | some error => exact refl state.world
  | none =>
    cases entry with
    | error errno => exact refl state.world
    | ok pair =>
      obtain ⟨rel, bytes⟩ := pair
      dsimp only
      split_ifs
      · split <;> exact refl state.world
      · have effect := writeEntry_effect state.world (destPath destDir rel) bytes
        split
        · next written =>
          rw [written] at effect
          exact effect
        · next written =>
          rw [written] at effect
          exact effect

theorem run_effect {entries : List TarEntry} :
    ∃ opened, Effect state.world (run (unpackEntry parseManifest destDir) state entries).world
      opened := by
  induction entries generalizing state with
  | nil => exact ⟨[], refl state.world⟩
  | cons entry rest ih =>
    obtain ⟨opened, later⟩ := ih (unpackEntry parseManifest destDir state entry)
    exact ⟨_, (unpackEntry_effect parseManifest destDir state entry).trans later⟩

theorem checkEntries_effect (seenPaths : List (List Char)) (world : World)
    (entries : List ManifestEntry) :
    Effect world (checkEntries destDir seenPaths world entries).2 [] := by
  have reading {world after : World} {path : Path} {result : Except Errno Bytes}
      (found : world.read path = (result, after)) : Effect world after [] := by
    have effect := read_effect world path
    rw [found] at effect
    exact effect
  fun_induction checkEntries destDir seenPaths world entries with
  | case1 | case2 => exact refl _
  | case3 _ _ _ _ _ _ found | case4 _ _ _ _ _ _ found => exact reading found
  | case5 _ _ _ _ _ _ found _ _ ih => exact (reading found).trans ih

/-- The checks after the loop write nothing. -/
theorem finish_effect : Effect state.world (finish destDir state).2 [] := by
  unfold finish
  split
  · exact refl state.world
  · exact refl state.world
  · next manifest _ _ =>
    have checks := checkEntries_effect destDir state.seenPaths state.world manifest.entries
    split
    · next checked =>
      rw [checked] at checks
      exact checks
    · next checked =>
      rw [checked] at checks
      exact checks

theorem restore_effect {archive : Archive} :
    ∃ opened, Effect world (restore parseManifest destDir world archive).2 opened := by
  have making := createDirAll_effect world destDir
  unfold restore
  split
  · next made =>
    rw [made] at making
    exact ⟨[], making⟩
  · next created made =>
    rw [made] at making
    split
    · exact ⟨[], making⟩
    · next entries _ =>
      obtain ⟨opened, effect⟩ := run_effect parseManifest destDir {world := created}
      exact ⟨_, (making.trans effect).trans (finish_effect destDir _)⟩

end Effect

variable {loc : Location}

theorem opened_locate {world : World} {path : Path} (opened : world.opened path = some loc) :
    world.locate path = .ok loc := by
  unfold World.opened at opened
  split at opened
  · cases opened
  · next target _ =>
    cases opened
    exact (target_ok target).1
  · cases opened

/-- The loop opens the file where the path of the entry leads. -/
theorem opens_leads {state : Unpacking} {entry : TarEntry}
    (opened : opens destDir state entry = some loc) :
    leads destDir state entry = some loc := by
  unfold opens at opened
  split at opened
  · next rel bytes _ =>
    split_ifs at opened
    have parents := createParent_effect state.world (destPath destDir rel)
    unfold entryOpens at opened
    split at opened
    · cases opened
    · next made =>
      rw [made] at parents
      exact locate_lands parents (opened_locate opened)
  · cases opened

variable (home : Option Location) {world} (state : Unpacking) (entry : TarEntry)

theorem entryInside_iff :
    EntryInside destDir home state entry ↔ ∀ loc ∈ opens destDir state entry, Inside home loc := by
  unfold EntryInside
  cases opened : opens destDir state entry with
  | none => simp
  | some loc => simp [opens_leads destDir opened]

/-- All written files lie in the destination directory. -/
def WrittenInside (state : Unpacking) : Prop :=
  ∀ loc ∈ state.world.written, Inside home loc

/-- One round of the loop keeps to the directory exactly when its entry does. -/
theorem writtenInside_unpackEntry_iff (inside : WrittenInside home state) :
    WrittenInside home (unpackEntry parseManifest destDir state entry) ↔
      EntryInside destDir home state entry := by
  have written := (unpackEntry_effect parseManifest destDir state entry).written
  rw [entryInside_iff]
  unfold WrittenInside
  rw [written]
  constructor
  · intro all loc opened
    exact all loc (mem_append_right _ (Option.mem_toList.mpr opened))
  · intro new loc member
    rcases mem_append.mp member with old | opened
    · exact inside loc old
    · exact new loc (Option.mem_toList.mp opened)

/-- What is written stays written, so the last state of the loop tells about all of them. -/
theorem writtenInside_always_iff (entries : List TarEntry) :
    Always (unpackEntry parseManifest destDir) (WrittenInside home) state entries ↔
      WrittenInside home (run (unpackEntry parseManifest destDir) state entries) := by
  constructor
  · exact Always.final _
  · rintro last past ⟨later, rfl⟩ loc member
    rw [run_append] at last
    obtain ⟨opened, effect⟩ := run_effect parseManifest destDir
      (run (unpackEntry parseManifest destDir) state past)
    apply last
    rw [effect.written]
    exact mem_append_left _ member

theorem run_inside_iff (fresh : world.written = []) (entries : List TarEntry) :
    WrittenInside home (run (unpackEntry parseManifest destDir) {world} entries) ↔
      Guarded (unpackEntry parseManifest destDir) (EntryInside destDir home) {world} entries := by
  rw [← writtenInside_always_iff]
  apply always_iff_guarded
  · exact writtenInside_unpackEntry_iff parseManifest destDir home
  · intro loc member
    rw [show (Unpacking.mk world none [] none).world.written = [] from fresh] at member
    cases member

/-- The written files tell whether a restore is confined. -/
theorem confined_iff_written (fresh : world.written = []) (archive : Archive) :
    Confined parseManifest destDir world archive ↔
      ∀ loc ∈ (restore parseManifest destDir world archive).2.written,
        Inside (world.lands destDir) loc := by
  obtain ⟨opened, effect⟩ := restore_effect parseManifest destDir world
  have written := effect.written
  rw [fresh, nil_append] at written
  constructor
  · intro confined loc member
    by_contra outside
    exact (confined loc outside).1 member
  · intro inside loc outside
    have untouched : loc ∉ (restore parseManifest destDir world archive).2.written :=
      fun member => outside (inside loc member)
    exact ⟨untouched, effect.file (written ▸ untouched)⟩

/-- A plain name is relative and does not climb. -/
def PlainName (rel : List Char) : Prop :=
  (Path.parse rel).absolute = false ∧ .parent ∉ (Path.parse rel).components

/-- Without symbolic links the path of a plain name leads into the directory. -/
theorem lands_plain {later : World} {rel : List Char} (linkless : Linkless world.disk)
    (unlinked : Linkless later.disk) (current : later.current = world.current)
    (plain : PlainName rel) :
    ∃ loc ∈ later.lands (destPath destDir rel), Inside (world.lands destDir) loc := by
  have joined : destPath destDir rel = {destDir with
      components := destDir.components ++ (Path.parse rel).components,
      slash := (Path.parse rel).slash} := by
    rw [destPath, Path.join, plain.1]
    rfl
  refine ⟨_, lands_normalise unlinked, _, lands_normalise linkless, ?_⟩
  rw [joined, normalise_append, current]
  exact prefix_normalise _ _ plain.2

/-- The restore writes nothing but what its loop writes. -/
theorem restore_inside_iff {archive : Archive} (fresh : world.written = []) :
    (∀ loc ∈ (restore parseManifest destDir world archive).2.written,
      Inside (world.lands destDir) loc) ↔ EntriesInside parseManifest destDir world archive := by
  have making := createDirAll_effect world destDir
  unfold restore EntriesInside
  cases made : world.createDirAll destDir with
  | mk result created =>
    rw [made] at making
    have clean : created.written = [] := by rw [making.written, fresh, append_nil]
    cases result with
    | error errno => simp [clean]
    | ok _ =>
      cases opening : archive.open with
      | error error => simp [clean]
      | ok entries =>
        have finishing := finish_effect destDir
          (run (unpackEntry parseManifest destDir) {world := created} entries)
        have loop := run_inside_iff parseManifest destDir (world.lands destDir) clean entries
        simp only [Prod.mk.injEq, true_and, Except.ok.injEq, finishing.written, append_nil]
        constructor
        · rintro inside _ _ rfl rfl
          exact loop.mp inside
        · exact fun guarded => loop.mpr (guarded _ _ rfl rfl)

/-- A restore of plain names onto a disk without symbolic links is confined. -/
theorem restore_plain (archive : Archive) (fresh : world.written = [])
    (linkless : Linkless world.disk) (plain : ∀ entries, archive.open = .ok entries →
      ∀ rel bytes, .ok (rel, bytes) ∈ entries → PlainName rel) :
    Confined parseManifest destDir world archive := by
  rw [confined_iff_written parseManifest destDir fresh,
    restore_inside_iff parseManifest destDir fresh]
  intro created entries made opening
  have making := createDirAll_effect world destDir
  rw [made] at making
  apply guarded_of_invariant (unpackEntry parseManifest destDir)
    (fun state => Linkless state.world.disk ∧ state.world.current = world.current)
  · rintro state entry member ⟨unlinked, current⟩
    cases entry with
    | error errno =>
      left
      unfold opens
      cases state.failed <;> rfl
    | ok pair =>
      right
      exact lands_plain destDir linkless unlinked current (plain entries opening _ _ member)
  · rintro state entry ⟨unlinked, current⟩
    have effect := unpackEntry_effect parseManifest destDir state entry
    exact ⟨effect.linkless unlinked, effect.current.trans current⟩
  · exact ⟨making.linkless linkless, making.current⟩

/-- A restore is confined exactly when each entry that it reaches leads into the destination
directory, with parent components, absolute names and symbolic links taken into account. -/
theorem restore_confined_iff (archive : Archive) (disk : Disk) (current : Location)
    (fault : Nat → Fault) :
    Confined parseManifest destDir {disk, current, fault} archive ↔
      EntriesInside parseManifest destDir {disk, current, fault} archive := by
  rw [confined_iff_written parseManifest destDir rfl, restore_inside_iff parseManifest destDir rfl]

/-- The only entry of the archive climbs out of the destination directory. -/
def sampleArchive : Archive :=
  ⟨.ok snapshotMagic, .ok [.ok ("../evil".toList, [])]⟩

def sampleDest : Path := Path.parse "dest".toList

def emptyWorld : World := {disk := ∅, current := [], fault := fun _ => .none}

def noManifest : ParseManifest := fun _ => .error "no manifest"

theorem restore_plain_file :
    Confined noManifest sampleDest emptyWorld ⟨.ok snapshotMagic, .ok [.ok (['a'], [])]⟩ := by
  refine restore_plain _ _ _ rfl (fun loc target linked => ?_) ?_
  · unfold Disk.node at linked
    split_ifs at linked <;> cases linked
  · intro entries opened rel bytes member
    cases opened
    cases mem_singleton.mp member
    exact ⟨by decide, by decide⟩

/-- A restore into `dest` writes the file `evil` beside it. -/
theorem restore_escapes :
    ¬ ∀ (parseManifest : ParseManifest) (destDir : Path) (archive : Archive) (disk : Disk)
      (current : Location) (fault : Nat → Fault),
        Confined parseManifest destDir {disk, current, fault} archive := by
  intro confined
  have outside : ¬ Inside (emptyWorld.lands sampleDest) ["evil"] := by
    rintro ⟨base, equal, inside⟩
    cases equal
    exact absurd inside (by decide)
  have untouched := (confined noManifest sampleDest sampleArchive ∅ [] (fun _ => .none) ["evil"]
    outside).1
  apply untouched
  change ["evil"] ∈ (restore noManifest sampleDest emptyWorld sampleArchive).2.written
  exact mem_singleton_self _

end A3Net.Backup
