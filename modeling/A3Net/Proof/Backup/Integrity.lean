/-
Neither looks for entries that the manifest does not list, a restore checks the files and not the
entries, and a verification checks nothing but the manifest itself.
-/

import A3Net.Construction.Backup.Restore
import A3Net.Machine.Fallible
import A3Net.Machine.SoundDisk

namespace A3Net.Backup

open Cryptography Machine List Option

variable (parseManifest : ParseManifest) (destDir : Path)

def checksum (bytes : Bytes) : String := toHex (Cryptography.blake3 bytes).bytes

/-- An archive that cannot be opened has no entries. -/
def Archive.tar (archive : Archive) : List TarEntry :=
  match archive.open with
  | .ok entries => entries
  | .error _ => []

def contents (entries : List TarEntry) : List (List Char × Bytes) :=
  entries.filterMap Except.toOption

def isManifest (entry : List Char × Bytes) : Bool := entry.1 = manifestName

/-- The manifest is the last entry with its name. -/
def lastManifest (entries : List TarEntry) : Option (List Char × Bytes) :=
  (contents entries).reverse.find? isManifest

/-- These are the entries other than the manifest. A second entry with its name is one of them. -/
def payload (entries : List TarEntry) : List (List Char × Bytes) :=
  ((contents entries).reverse.eraseP isManifest).reverse

/-- A restore writes these entries. -/
def files (entries : List TarEntry) : List (List Char × Bytes) :=
  (contents entries).filter (!isManifest ·)

variable (entries : List (List Char × Bytes))

def Once : Prop := (entries.map Prod.fst).Nodup

variable (manifest : SnapshotManifest)

def Listed : Prop :=
  ∀ entry ∈ entries, ∃ row ∈ manifest.entries, row.path = entry.1

def Matching : Prop :=
  ∀ row ∈ manifest.entries, ∃ bytes, (row.path, bytes) ∈ entries ∧ checksum bytes = row.blake3

/-- The paths and the checksums of the entries are those of the rows. -/
def Recorded : Prop :=
  ∀ path sum, (∃ bytes, (path, bytes) ∈ entries ∧ checksum bytes = sum) ↔
    ∃ row ∈ manifest.entries, row.path = path ∧ row.blake3 = sum

/-- The entries are exactly those of the manifest, each once and with the bytes of its checksum. -/
structure Exact (entries : List (List Char × Bytes)) (manifest : SnapshotManifest) : Prop where
  once : Once entries
  listed : Listed entries manifest
  matching : Matching entries manifest

/-- Entries whose paths lead to one file have one checksum. -/
def Unaliased (world : World) (entries : List (List Char × Bytes)) : Prop :=
  ∀ first ∈ entries, ∀ second ∈ entries,
    world.lands (destPath destDir first.1) = world.lands (destPath destDir second.1) →
      checksum first.2 = checksum second.2

/-- All entries can be read, every manifest can be parsed, and this is the last one. -/
@[mk_iff]
structure Announces (entries : List TarEntry) (manifest : SnapshotManifest) : Prop where
  readable : ∀ entry ∈ entries, entry.isOk
  parsed : ∀ entry ∈ contents entries, isManifest entry → (parseManifest entry.2).isOk
  last : ∃ entry, lastManifest entries = some entry ∧ parseManifest entry.2 = .ok manifest

variable {parseManifest} {destDir} {start : World}

/-- Each entry that was unpacked leads to a file with the bytes of some entry that leads there, and
no other file is new. -/
structure Unpacked (destDir : Path) (start : World) (entries : List (List Char × Bytes))
    (state : Unpacking) : Prop where
  sound : state.world.Sound
  current : state.world.current = start.current
  links : SameLinks state.world.disk start.disk
  seen : ∀ path, path ∈ state.seenPaths ↔ path ∈ entries.map Prod.fst
  placed : ∀ entry ∈ entries, ∃ loc last,
    start.lands (destPath destDir entry.1) = some loc ∧ last ∈ entries ∧
      start.lands (destPath destDir last.1) = some loc ∧ state.world.disk.file loc = some last.2
  origin : ∀ loc bytes, state.world.disk.file loc = some bytes →
    start.disk.file loc = some bytes ∨
      ∃ entry ∈ entries, start.lands (destPath destDir entry.1) = some loc ∧ entry.2 = bytes

variable {state : Unpacking} {entries}

theorem Unpacked.lands (unpacked : Unpacked destDir start entries state) (path : Path) :
    state.world.lands path = start.lands path := by
  rw [World.lands, unpacked.current]
  exact lands_congr unpacked.links _ _ _

theorem createParent_sound {world : World} (sound : world.Sound) {path : Path} :
    (createParent world path).2.Sound ∧ Effect world (createParent world path).2 [] := by
  unfold createParent
  split
  · exact ⟨createDirs_sound sound _ _, createDirAll_effect world _⟩
  · exact ⟨sound, Effect.refl world⟩

/-- An entry that is written puts its bytes where its path leads. -/
theorem writeEntry_ok {world after : World} (sound : world.Sound) {path : Path} {bytes : Bytes}
    (written : writeEntry world path bytes = (.ok (), after)) :
    ∃ loc, world.lands path = some loc ∧ after.Sound ∧
      after.current = world.current ∧ SameLinks after.disk world.disk ∧
        ∀ other, after.disk.file other =
          if other = loc then some bytes else world.disk.file other := by
  obtain ⟨madeSound, effect⟩ := createParent_sound sound
  unfold writeEntry at written
  split at written
  · cases written
  · next middle made =>
    rw [made] at madeSound effect
    obtain ⟨loc, leads, below, rfl, kept, links⟩ := write_ok madeSound written
    refine ⟨loc, (effect.lands path).symm.trans leads, kept, effect.current,
      links.trans effect.sameLinks, fun other => ?_⟩
    rw [file_store below, effect.file not_mem_nil]

theorem Unpacked.write (unpacked : Unpacked destDir start entries state) {rel : List Char}
    {bytes : Bytes} {after : World}
    (written : writeEntry state.world (destPath destDir rel) bytes = (.ok (), after)) :
    Unpacked destDir start (entries ++ [(rel, bytes)])
      {state with seenPaths := rel :: state.seenPaths, world := after} := by
  obtain ⟨loc, leads, sound, current, links, files⟩ := writeEntry_ok unpacked.sound written
  rw [unpacked.lands] at leads
  have fresh : (rel, bytes) ∈ entries ++ [(rel, bytes)] :=
    mem_append_right _ (mem_singleton_self _)
  refine ⟨sound, current.trans unpacked.current, links.trans unpacked.links, ?_, ?_, ?_⟩
  · intro path
    rw [mem_cons, map_append, mem_append, unpacked.seen, or_comm]
    simp
  · intro entry member
    rcases mem_append.mp member with old | new
    · obtain ⟨place, last, reaches, inside, lastReaches, found⟩ := unpacked.placed entry old
      by_cases same : place = loc
      · refine ⟨place, (rel, bytes), reaches, fresh, same ▸ leads, ?_⟩
        rw [files, if_pos same]
      · refine ⟨place, last, reaches, mem_append_left _ inside, lastReaches, ?_⟩
        rw [files, if_neg same, found]
    · rw [mem_singleton.mp new]
      exact ⟨loc, (rel, bytes), leads, fresh, leads, by rw [files, if_pos rfl]⟩
  · intro place content found
    rw [files] at found
    split_ifs at found with same
    · exact .inr ⟨(rel, bytes), fresh, same ▸ leads, some_inj.mp found⟩
    · rcases unpacked.origin place content found with old | ⟨entry, inside, reaches, right⟩
      · exact .inl old
      · exact .inr ⟨entry, mem_append_left _ inside, reaches, right⟩

theorem run_failed {error : BackupError} (failed : state.failed = some error)
    (entries : List TarEntry) :
    (run (unpackEntry parseManifest destDir) state entries).failed = some error := by
  induction entries with
  | nil => exact failed
  | cons entry rest ih =>
    have same : unpackEntry parseManifest destDir state entry = state := by
      unfold unpackEntry
      simp only [failed]
    rw [run_cons, same]
    exact ih

/-- A round without an error reads a manifest or writes an entry. -/
theorem unpackEntry_cases {entry : TarEntry} (running : state.failed = none)
    (ended : (unpackEntry parseManifest destDir state entry).failed = none) :
    (∃ bytes manifest, entry = .ok (manifestName, bytes) ∧
        unpackEntry parseManifest destDir state entry = {state with manifest := some manifest}) ∨
      ∃ rel bytes after, entry = .ok (rel, bytes) ∧ rel ≠ manifestName ∧
        writeEntry state.world (destPath destDir rel) bytes = (.ok (), after) ∧
        unpackEntry parseManifest destDir state entry =
          {state with seenPaths := rel :: state.seenPaths, world := after} := by
  rcases entry with errno | ⟨rel, bytes⟩
  · simp [unpackEntry, running] at ended
  · by_cases manifest : rel = manifestName
    · subst manifest
      cases parsed : parseManifest bytes with
      | error text => simp [unpackEntry, running, parsed] at ended
      | ok found =>
        exact .inl ⟨bytes, found, rfl, by simp [unpackEntry, running, parsed]⟩
    · cases written : writeEntry state.world (destPath destDir rel) bytes with
      | mk result after =>
        cases result with
        | error errno => simp [unpackEntry, running, manifest, written] at ended
        | ok _ =>
          exact .inr ⟨rel, bytes, after, rfl, manifest, written,
            by simp [unpackEntry, running, manifest, written]⟩

/-- A loop without an error unpacks all entries other than the manifest. -/
theorem run_unpacked {done : List (List Char × Bytes)}
    (unpacked : Unpacked destDir start done state) (running : state.failed = none)
    {entries : List TarEntry}
    (ended : (run (unpackEntry parseManifest destDir) state entries).failed = none) :
    Unpacked destDir start (done ++ files entries)
      (run (unpackEntry parseManifest destDir) state entries) := by
  induction entries generalizing done state with
  | nil =>
    rw [show files [] = [] from rfl, append_nil]
    exact unpacked
  | cons entry rest ih =>
    have step : (unpackEntry parseManifest destDir state entry).failed = none := by
      by_contra failed
      obtain ⟨error, stuck⟩ := ne_none_iff_exists'.mp failed
      rw [run_cons, run_failed stuck] at ended
      cases ended
    rw [run_cons] at ended ⊢
    rcases unpackEntry_cases running step with
      ⟨bytes, manifest, rfl, same⟩ | ⟨rel, bytes, after, rfl, other, written, same⟩
    · rw [same] at ended ⊢
      exact ih ⟨unpacked.sound, unpacked.current, unpacked.links, unpacked.seen,
        unpacked.placed, unpacked.origin⟩ running ended
    · have one : files (.ok (rel, bytes) :: rest) = [(rel, bytes)] ++ files rest := by
        simp [files, contents, isManifest, Except.toOption, other]
      rw [same] at ended ⊢
      rw [one, ← append_assoc]
      exact ih (unpacked.write written) running ended

theorem checkEntries_ok {seenPaths : List (List Char)} {world after : World}
    {rows : List ManifestEntry}
    (checked : checkEntries destDir seenPaths world rows = (.ok (), after)) :
    ∀ row ∈ rows, row.path ∈ seenPaths ∧ ∃ loc bytes,
      world.lands (destPath destDir row.path) = some loc ∧
        world.disk.file loc = some bytes ∧ checksum bytes = row.blake3 := by
  induction rows generalizing world with
  | nil => exact forall_mem_nil _
  | cons first rest ih =>
    unfold checkEntries at checked
    by_cases unseen : first.path ∉ seenPaths
    · rw [if_pos unseen] at checked
      cases checked
    rw [if_neg unseen] at checked
    split at checked
    · cases checked
    · next bytes middle reading =>
      obtain ⟨rfl, loc, leads, found⟩ := read_ok reading
      by_cases wrong : toHex (Cryptography.blake3 bytes).bytes ≠ first.blake3
      · rw [if_pos wrong] at checked
        cases checked
      rw [if_neg wrong] at checked
      have later := ih checked
      exact forall_mem_cons.mpr
        ⟨⟨not_not.mp unseen, loc, bytes, leads, found, not_not.mp wrong⟩, later⟩

variable {world after : World} {archive : Archive} {manifest : SnapshotManifest}

/-- A restore that succeeds has unpacked all entries and checked all rows of the manifest. -/
theorem restore_ok (sound : world.Sound)
    (restored : restore parseManifest destDir world archive = (.ok manifest, after)) :
    ∃ state, Unpacked destDir world (files archive.tar) state ∧
      checkEntries destDir state.seenPaths state.world manifest.entries = (.ok (), after) := by
  revert restored
  fun_cases restore parseManifest destDir world archive with
  | case3 created made entries opened =>
    have making := createDirAll_effect world destDir
    have kept := createDirs_sound sound destDir destDir.components.length
    change (world.createDirAll destDir).2.Sound at kept
    rw [made] at making kept
    have tar : archive.tar = entries := by rw [Archive.tar, opened]
    have start : Unpacked destDir world [] {world := created} :=
      ⟨kept, making.current, making.sameLinks, fun path => Iff.rfl,
        forall_mem_nil _,
        fun loc bytes found => .inl (making.file not_mem_nil ▸ found)⟩
    fun_cases finish destDir
        (run (unpackEntry parseManifest destDir) {world := created} entries) with
    | case4 _ _ ended _ checked =>
      rintro ⟨⟩
      have unpacked := run_unpacked start rfl ended
      exact ⟨_, tar ▸ unpacked, checked⟩
    | _ => rintro ⟨⟩
  | _ => rintro ⟨⟩

/-- In an exact archive each entry has the checksum of its row. -/
theorem Exact.row {entries : List (List Char × Bytes)} (exactly : Exact entries manifest)
    {entry : List Char × Bytes} (inside : entry ∈ entries) :
    ∃ row ∈ manifest.entries, row.path = entry.1 ∧ checksum entry.2 = row.blake3 := by
  obtain ⟨row, member, same⟩ := exactly.listed entry inside
  obtain ⟨bytes, there, right⟩ := exactly.matching row member
  have equal := inj_on_of_nodup_map exactly.once there inside same
  obtain rfl : bytes = entry.2 := congrArg Prod.snd equal
  exact ⟨row, member, same, right⟩

theorem exact_iff_recorded {entries : List (List Char × Bytes)} :
    Exact entries manifest ↔ Once entries ∧ Recorded entries manifest := by
  constructor
  · refine fun exactly => ⟨exactly.once, fun path sum => ⟨?_, ?_⟩⟩
    · rintro ⟨bytes, inside, rfl⟩
      obtain ⟨row, member, same, right⟩ := exactly.row inside
      exact ⟨row, member, same, right.symm⟩
    · rintro ⟨row, member, rfl, rfl⟩
      exact exactly.matching row member
  · rintro ⟨once, recorded⟩
    refine ⟨once, fun entry inside => ?_, fun row member => ?_⟩
    · obtain ⟨row, member, same, _⟩ := (recorded _ _).mp ⟨entry.2, inside, rfl⟩
      exact ⟨row, member, same⟩
    · exact (recorded _ _).mpr ⟨row, member, rfl, rfl⟩

/-- What a restore has written is exact when it is listed, stands once and is not overwritten with
other bytes. -/
theorem files_exact_iff (sound : world.Sound)
    (restored : restore parseManifest destDir world archive = (.ok manifest, after)) :
    Exact (files archive.tar) manifest ↔ Once (files archive.tar) ∧
      Listed (files archive.tar) manifest ∧ Unaliased destDir world (files archive.tar) := by
  obtain ⟨state, unpacked, checked⟩ := restore_ok sound restored
  have rows : ∀ row ∈ manifest.entries, row.path ∈ (files archive.tar).map Prod.fst ∧
      ∃ loc bytes, world.lands (destPath destDir row.path) = some loc ∧
        state.world.disk.file loc = some bytes ∧ checksum bytes = row.blake3 := by
    intro row member
    obtain ⟨seen, loc, bytes, leads, read⟩ := checkEntries_ok checked row member
    rw [unpacked.lands] at leads
    exact ⟨(unpacked.seen _).mp seen, loc, bytes, leads, read⟩
  constructor
  · intro exactly
    refine ⟨exactly.once, exactly.listed, fun first inside second other same => ?_⟩
    obtain ⟨row, member, path, right⟩ := exactly.row inside
    obtain ⟨otherRow, otherMember, otherPath, otherRight⟩ := exactly.row other
    obtain ⟨_, loc, bytes, leads, found, checked⟩ := rows row member
    obtain ⟨_, place, otherBytes, otherLeads, otherFound, otherChecked⟩ :=
      rows otherRow otherMember
    rw [path] at leads
    rw [otherPath, ← same, leads] at otherLeads
    cases otherLeads
    cases found.symm.trans otherFound
    rw [right, otherRight, ← checked, otherChecked]
  · rintro ⟨once, listed, unaliased⟩
    refine ⟨once, listed, fun row member => ?_⟩
    obtain ⟨seen, loc, bytes, leads, found, right⟩ := rows row member
    obtain ⟨⟨path, content⟩, inside, here⟩ := mem_map.mp seen
    obtain rfl : path = row.path := here
    -- The file at the end has the bytes of the last entry that leads there.
    obtain ⟨place, last, reaches, lastInside, lastReaches, file⟩ := unpacked.placed _ inside
    cases leads.symm.trans reaches
    cases found.symm.trans file
    have same := unaliased _ inside last lastInside (reaches.trans lastReaches.symm)
    exact ⟨content, inside, same.trans right⟩

theorem eraseP_eq_filter {Item : Type} {test : Item → Bool} {items : List Item}
    (rest : ∀ item ∈ items.eraseP test, test item = false) :
    items.eraseP test = items.filter (!test ·) := by
  induction items with
  | nil => rfl
  | cons item items ih =>
    cases found : test item with
    | true =>
      rw [eraseP_cons_of_pos found] at rest ⊢
      rw [filter_cons_of_neg (by simp [found]), filter_eq_self.mpr (by simpa using rest)]
    | false =>
      rw [eraseP_cons_of_neg (by simp [found])] at rest ⊢
      rw [filter_cons_of_pos (by simp [found]), ih (forall_mem_cons.mp rest).2]

/-- Without a second manifest, the entries other than the manifest are those that are written. -/
theorem payload_eq_files {entries : List TarEntry}
    (single : ∀ entry ∈ payload entries, isManifest entry = false) :
    payload entries = files entries := by
  rw [payload, eraseP_eq_filter fun entry member => single entry (mem_reverse.mpr member),
    filter_reverse, reverse_reverse, files]

/-- An accepted archive is exact when its entries are listed, stand once and do not overwrite each
other with other bytes. -/
theorem restore_exact_iff (sound : world.Sound)
    (restored : restore parseManifest destDir world archive = (.ok manifest, after)) :
    Exact (payload archive.tar) manifest ↔ Once (payload archive.tar) ∧
      Listed (payload archive.tar) manifest ∧ Unaliased destDir world (payload archive.tar) := by
  -- A restore does not find a second manifest among the files, so it refuses a row for one.
  have written : Listed (payload archive.tar) manifest →
      payload archive.tar = files archive.tar := by
    obtain ⟨state, unpacked, checked⟩ := restore_ok sound restored
    refine fun listed => payload_eq_files fun entry member => ?_
    obtain ⟨row, inside, same⟩ := listed entry member
    have seen := (unpacked.seen row.path).mp (checkEntries_ok checked row inside).1
    obtain ⟨file, stored, path⟩ := mem_map.mp seen
    have other := (mem_filter.mp stored).2
    rw [isManifest, path, same] at other
    exact (Bool.not_eq_true' _).mp other
  have exactly := files_exact_iff sound restored
  constructor
  · intro whole
    have same := written whole.listed
    rw [same] at whole ⊢
    exact exactly.mp whole
  · intro whole
    have same := written whole.2.1
    rw [same] at whole ⊢
    exact exactly.mpr whole

theorem contents_concat (entries : List TarEntry) (entry : List Char × Bytes) :
    contents (entries ++ [.ok entry]) = contents entries ++ [entry] := by
  simp [contents, Except.toOption]

theorem lastManifest_concat (entries : List TarEntry) (entry : List Char × Bytes) :
    lastManifest (entries ++ [.ok entry]) =
      if isManifest entry then some entry else lastManifest entries := by
  rw [lastManifest, contents_concat, reverse_append, reverse_singleton, singleton_append,
    find?_cons]
  cases isManifest entry <;> rfl

theorem foldlM_verifyEntry_iff (parseManifest : ParseManifest) (entries : List TarEntry)
    {found : Option SnapshotManifest} :
    entries.foldlM (verifyEntry parseManifest) none = .ok found ↔
      (∀ entry ∈ entries, entry.isOk) ∧
        (∀ entry ∈ contents entries, isManifest entry → (parseManifest entry.2).isOk) ∧
        ((lastManifest entries).bind fun entry => (parseManifest entry.2).toOption) = found := by
  -- The last entry decides about the manifest, so the induction takes it off.
  induction entries using reverseRecOn generalizing found with
  | nil => simp [contents, lastManifest, pure, Except.pure]
  | append_singleton entries entry ih =>
    rw [foldlM_append, bind_ok_iff]
    simp only [foldlM_cons, foldlM_nil, bind_pure, ih, forall_mem_append, forall_mem_singleton]
    rcases entry with errno | ⟨rel, bytes⟩
    · simp [verifyEntry, Except.isOk, Except.toBool]
    · rw [lastManifest_concat, contents_concat, forall_mem_append, forall_mem_singleton]
      by_cases own : rel = manifestName
      · cases parsed : parseManifest bytes <;>
          simp [verifyEntry, isManifest, own, parsed, Except.isOk, Except.toBool, Except.toOption,
            and_assoc]
      · simp [verifyEntry, isManifest, own, Except.isOk, Except.toBool, and_assoc]

theorem verify_ok_iff (parseManifest : ParseManifest) (archive : Archive)
    (manifest : SnapshotManifest) :
    verify parseManifest archive = .ok manifest ↔ Announces parseManifest archive.tar manifest := by
  have folded : verify parseManifest archive = .ok manifest ↔
      archive.tar.foldlM (verifyEntry parseManifest) none = .ok (some manifest) := by
    unfold verify Archive.tar
    cases archive.open with
    | error error => simp [pure, Except.pure]
    | ok entries =>
      dsimp only
      cases entries.foldlM (verifyEntry parseManifest) none with
      | error error => simp
      | ok found => cases found <;> simp
  rw [folded, foldlM_verifyEntry_iff, announces_iff]
  refine and_congr_right fun _ => and_congr_right fun _ => ?_
  rw [bind_eq_some_iff]
  refine exists_congr fun entry => and_congr_right fun _ => ?_
  cases parseManifest entry.2 <;> simp [Except.toOption]

/-- An archive that a restore accepts is exact when its entries are listed, stand once and have one
checksum where they lead to one file. A verification accepts only exact archives when the last
manifest records the entries. -/
theorem backup_integrity_iff (parseManifest : ParseManifest) (destDir : Path)
    (archive : Archive) {world : World} (sound : world.Sound) :
    (∀ manifest after, restore parseManifest destDir world archive = (.ok manifest, after) →
      (Exact (payload archive.tar) manifest ↔
        Once (payload archive.tar) ∧ Listed (payload archive.tar) manifest ∧
          Unaliased destDir world (payload archive.tar))) ∧
    ((∀ manifest, verify parseManifest archive = .ok manifest →
        Exact (payload archive.tar) manifest) ↔
      ∀ manifest, Announces parseManifest archive.tar manifest →
        Once (payload archive.tar) ∧ Recorded (payload archive.tar) manifest) := by
  refine ⟨fun manifest after restored => restore_exact_iff sound restored, ?_⟩
  simp only [verify_ok_iff, exact_iff_recorded]

/-- The disk is empty. -/
def bareWorld : World := {disk := ∅, current := [], fault := fun _ => .none}

theorem bareWorld_sound : bareWorld.Sound where
  disk loc node below found := by
    unfold Disk.node at found
    rw [if_neg below, show bareWorld.disk = ∅ from rfl, AList.lookup_empty] at found
    cases found
  home := rfl

def targetDir : Path := Path.parse "dest".toList

variable (entries : List ManifestEntry)

def manifestOf : SnapshotManifest := ⟨1, 0, [], entries⟩

/-- The manifest is the empty text here, and the parser knows what it stands for. -/
def parsesTo : ParseManifest := fun _ => .ok (manifestOf entries)

def oneFile : Archive :=
  ⟨.ok snapshotMagic, .ok [.ok ("file".toList, [0x61]), .ok (manifestName, [])]⟩

def fileRow : ManifestEntry := ⟨"file".toList, 1, checksum [0x61]⟩

theorem oneFile_restored :
    (restore (parsesTo [fileRow]) targetDir bareWorld oneFile).1 = .ok (manifestOf [fileRow]) := by
  decide +kernel

/-- The file is listed, so the archive that is restored is exact. -/
theorem backup_integrity_listed :
    (restore (parsesTo [fileRow]) targetDir bareWorld oneFile).1 = .ok (manifestOf [fileRow]) ∧
      Exact (payload oneFile.tar) (manifestOf [fileRow]) := by
  have whole : ∀ manifest after,
      restore (parsesTo [fileRow]) targetDir bareWorld oneFile = (.ok manifest, after) → _ :=
    (backup_integrity_iff (parsesTo [fileRow]) targetDir oneFile bareWorld_sound).1
  have accepted := oneFile_restored
  generalize restore (parsesTo [fileRow]) targetDir bareWorld oneFile = result at whole accepted
  refine ⟨accepted, (whole _ result.2 (Prod.ext accepted rfl)).mpr ?_⟩
  refine ⟨nodup_singleton _, ?_, ?_⟩
  · intro entry member
    obtain rfl : entry = ("file".toList, [0x61]) := mem_singleton.mp member
    exact ⟨fileRow, mem_singleton_self _, rfl⟩
  · intro first inside second other _
    rw [mem_singleton.mp inside, mem_singleton.mp other]

/-- The file is not listed, and both calls accept the archive. -/
theorem backup_accepts_unlisted :
    ¬ ∀ (parseManifest : ParseManifest) (destDir : Path) (archive : Archive) (world : World),
      world.Sound →
        (∀ manifest after, restore parseManifest destDir world archive = (.ok manifest, after) →
          Exact (payload archive.tar) manifest) ∧
        ∀ manifest, verify parseManifest archive = .ok manifest →
          Exact (payload archive.tar) manifest := by
  intro exactly
  have unlisted : ¬ Exact (payload oneFile.tar) (manifestOf []) := by
    intro whole
    obtain ⟨row, member, _⟩ := whole.listed ("file".toList, [0x61]) (by decide)
    cases member
  have accepted : (restore (parsesTo []) targetDir bareWorld oneFile).1 = .ok (manifestOf []) := by
    decide +kernel
  exact unlisted ((exactly (parsesTo []) targetDir oneFile bareWorld bareWorld_sound).1 _
    (restore (parsesTo []) targetDir bareWorld oneFile).2 (Prod.ext accepted rfl))

end A3Net.Backup
