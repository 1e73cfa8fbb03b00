import Mathlib.Logic.Equiv.List
import A3Net.Construction.Backup.Snapshot
import A3Net.Machine.Descent
import A3Net.Proof.Backup.Integrity

namespace A3Net.Backup

open Cryptography Machine List Path

section Tree

/-- A file has such a name on the systems of the source. -/
structure ValidName (name : Bytes) : Prop where
  visible : name ≠ []
  self : name ≠ utf8Chars ['.']
  parent : name ≠ utf8Chars ['.', '.']
  separator : 0x2f ∉ name
  terminator : 0 ∉ name

/-- Neither file lies on the way to the other. -/
def Apart {Item : Type} (first second : List Item) : Prop :=
  ¬ first <+: second ∧ ¬ second <+: first

theorem apart_of_ne {above first second : List Bytes} {name other : Bytes} (ne : name ≠ other) :
    Apart (above ++ name :: first) (above ++ other :: second) := by
  unfold Apart
  rw [prefix_append_right_inj, prefix_append_right_inj, cons_prefix_cons, cons_prefix_cons]
  exact ⟨fun same => ne same.1, fun same => ne same.1.symm⟩

namespace Listing

def names : Listing → List Bytes
  | .done => []
  | .file name _ rest => name :: rest.names
  | .directory name _ rest => name :: rest.names

/-- The names of a directory are different, and the sizes of files are machine words. -/
def Valid : Listing → Prop
  | .done => True
  | .file name bytes rest =>
    ValidName name ∧ bytes.length < 2 ^ 64 ∧ name ∉ rest.names ∧ rest.Valid
  | .directory name inside rest =>
    ValidName name ∧ name ∉ rest.names ∧ inside.Valid ∧ rest.Valid

variable {tree : Listing} {above : List Bytes} {file : WalkedFile}

theorem walk_names (member : file ∈ tree.walk above) :
    ∃ name later, file.1 = above ++ name :: later ∧ name ∈ tree.names := by
  induction tree generalizing above with
  | done => cases member
  | file name bytes rest ih =>
    rcases mem_cons.mp member with rfl | later
    · exact ⟨name, [], rfl, mem_cons_self⟩
    · obtain ⟨other, further, same, inside⟩ := ih later
      exact ⟨other, further, same, mem_cons_of_mem _ inside⟩
  | directory name inside rest insideIh restIh =>
    rcases mem_append.mp member with below | later
    · obtain ⟨other, further, same, _⟩ := insideIh below
      refine ⟨name, other :: further, ?_, mem_cons_self⟩
      rw [same, append_assoc]
      rfl
    · obtain ⟨other, further, same, inside⟩ := restIh later
      exact ⟨other, further, same, mem_cons_of_mem _ inside⟩

theorem walk_valid (valid : tree.Valid) (outer : ∀ name ∈ above, ValidName name)
    (member : file ∈ tree.walk above) :
    (∀ name ∈ file.1, ValidName name) ∧ file.2.length < 2 ^ 64 := by
  induction tree generalizing above with
  | done => cases member
  | file name bytes rest ih =>
    obtain ⟨plain, size, _, restValid⟩ := valid
    rcases mem_cons.mp member with rfl | later
    · exact ⟨forall_mem_append.mpr ⟨outer, forall_mem_singleton.mpr plain⟩, size⟩
    · exact ih restValid outer later
  | directory name inside rest insideIh restIh =>
    obtain ⟨plain, _, insideValid, restValid⟩ := valid
    rcases mem_append.mp member with below | later
    · exact insideIh insideValid
        (forall_mem_append.mpr ⟨outer, forall_mem_singleton.mpr plain⟩) below
    · exact restIh restValid outer later

theorem walk_apart (valid : tree.Valid) (above : List Bytes) :
    (tree.walk above).Pairwise fun first second => Apart first.1 second.1 := by
  induction tree generalizing above with
  | done => exact List.Pairwise.nil
  | file name bytes rest ih =>
    obtain ⟨_, _, fresh, restValid⟩ := valid
    refine pairwise_cons.mpr ⟨fun file member => ?_, ih restValid above⟩
    obtain ⟨other, later, same, inside⟩ := walk_names member
    rw [same]
    exact apart_of_ne fun equal => fresh (equal ▸ inside)
  | directory name inside rest insideIh restIh =>
    obtain ⟨_, fresh, insideValid, restValid⟩ := valid
    refine pairwise_append.mpr
      ⟨insideIh insideValid _, restIh restValid above, fun first below second member => ?_⟩
    obtain ⟨_, early, first, _⟩ := walk_names below
    obtain ⟨other, late, second, there⟩ := walk_names member
    rw [first, second, append_assoc]
    exact apart_of_ne fun equal => fresh (equal ▸ there)

end Listing
end Tree

variable {text : List Char}

section Texts

/-- These are the names on the way to the file of a plain path. -/
def namesOf (text : List Char) : Location := (text.splitOn '/').map String.ofList

theorem parse_plain (plain : PlainPath text) :
    parse text = ⟨false, (namesOf text).map .normal, false⟩ := by
  have pieces : (text.splitOn '/').filterMap component = (namesOf text).map .normal := by
    unfold namesOf
    rw [map_map, ← filterMap_eq_map]
    apply filterMap_congr
    intro piece member
    obtain ⟨visible, self, parent, _⟩ := plain piece member
    simp [component, visible, self, parent]
  have relative : text.head? ≠ some '/' := by
    intro head
    obtain ⟨rest, rfl⟩ := head?_eq_some_iff.mp head
    have first : [] ∈ ('/' :: rest).splitOn '/' := by
      exact mem_cons_self
    exact (plain [] first).1 rfl
  obtain ⟨front, last, split⟩ :=
    (eq_nil_or_concat (text.splitOn '/')).resolve_left (splitOnP_ne_nil _ _)
  have ends : (text.splitOn '/').getLastD [] = last := by simp [split]
  obtain ⟨visible, self, _⟩ := plain last (by simp [split])
  unfold parse
  dsimp only
  rw [pieces, ends]
  simp [relative, visible, self]

theorem destPath_plain {destDir : Path} (plain : PlainPath text) :
    destPath destDir text = destDir.below (namesOf text) := by
  rw [destPath, parse_plain plain]
  rfl

theorem utf8Chars_append (first second : List Char) :
    utf8Chars (first ++ second) = utf8Chars first ++ utf8Chars second :=
  flatMap_append

theorem utf8Chars_intercalate {texts : List (List Char)} :
    utf8Chars (['/'].intercalate texts) = [0x2f].intercalate (texts.map utf8Chars) := by
  induction texts with
  | nil => rfl
  | cons text rest ih =>
    cases rest with
    | nil => simp
    | cons next others =>
      rw [intercalate_cons_cons, utf8Chars_append, utf8Chars_append, ih,
        map_cons (l := next :: others), map_cons, intercalate_cons_cons]
      rfl

variable {texts : List (List Char)}

/-- The text of a path is read back when its names are texts without backslashes. -/
theorem relativePath_texts (plain : ∀ text ∈ texts, '\\' ∉ text) :
    relativePath (texts.map utf8Chars) = ['/'].intercalate texts := by
  have kept : ∀ char ∈ ['/'].intercalate texts, char ≠ '\\' := by
    rintro char member rfl
    rcases mem_intercalate member with same | ⟨text, inside, there⟩
    · exact absurd same (by decide)
    · exact plain text inside there
  rw [relativePath, ← utf8Chars_intercalate, fromUtf8Lossy_utf8Chars]
  calc (['/'].intercalate texts).map (fun char => if char = '\\' then '/' else char)
      = (['/'].intercalate texts).map id :=
        map_congr_left fun char member => if_neg (kept char member)
    _ = ['/'].intercalate texts := map_id _

section

variable (some : texts ≠ []) (valid : ∀ text ∈ texts, ValidName (utf8Chars text))
include some valid

theorem splitOn_texts : (['/'].intercalate texts).splitOn '/' = texts := by
  refine splitOn_intercalate '/' (fun text member slash => ?_) some
  exact (valid text member).separator (mem_flatMap.mpr ⟨'/', slash, by decide⟩)

theorem plainPath_texts : PlainPath (['/'].intercalate texts) := by
  unfold PlainPath
  rw [splitOn_texts some valid]
  intro piece member
  have plain := valid piece member
  refine ⟨?_, ?_, ?_, fun terminator => ?_⟩
  · rintro rfl
    exact plain.visible rfl
  · rintro rfl
    exact plain.self rfl
  · rintro rfl
    exact plain.parent rfl
  · exact plain.terminator (mem_flatMap.mpr ⟨'\x00', terminator, by decide⟩)

end

/-- A file name that is text without backslashes. -/
def Readable (name : Bytes) : Prop := ∃ text, fromUtf8 name = some text ∧ '\\' ∉ text

/-- A path of such names is plain and is read back from its text. -/
theorem relativePath_readable {path : List Bytes} (some : path ≠ [])
    (valid : ∀ name ∈ path, ValidName name) (readable : ∀ name ∈ path, Readable name) :
    PlainPath (relativePath path) ∧ utf8Chars (relativePath path) = [0x2f].intercalate path ∧
      (namesOf (relativePath path)).map utf8 = path := by
  obtain ⟨texts, rfl, plain⟩ : ∃ texts : List (List Char), path = texts.map utf8Chars ∧
      ∀ text ∈ texts, '\\' ∉ text := by
    refine ⟨path.map fun name => (fromUtf8 name).getD [], ?_, ?_⟩
    · rw [map_map]
      conv_lhs => rw [← map_id path]
      apply map_congr_left
      intro name member
      obtain ⟨text, decoded, _⟩ := readable name member
      simp only [Function.comp_apply, decoded, Option.getD_some, id_eq]
      exact (utf8Chars_of_fromUtf8 decoded).symm
    · intro text member
      obtain ⟨name, inside, rfl⟩ := mem_map.mp member
      obtain ⟨text, decoded, clean⟩ := readable name inside
      rw [decoded]
      exact clean
  have named : texts ≠ [] := fun empty => some (by rw [empty]; rfl)
  have names : ∀ text ∈ texts, ValidName (utf8Chars text) := fun text member =>
    valid _ (mem_map.mpr ⟨text, member, rfl⟩)
  rw [relativePath_texts plain]
  refine ⟨plainPath_texts named names, utf8Chars_intercalate, ?_⟩
  rw [namesOf, splitOn_texts named names, map_map]
  apply map_congr_left
  intro text _
  simp [utf8]

end Texts

variable {manifest : SnapshotManifest} {name : String}

section Fill

/-- The files below the directory are those that were written, the directories lead to them, and
there is nothing else. -/
structure Holding (world : World) (destDir : Path) (base : Location)
    (done : List (Location × Bytes)) : Prop where
  based : Based world destDir base
  files : ∀ names bytes,
    world.disk.node (base ++ names) = some (.file bytes) ↔ (names, bytes) ∈ done
  directories : ∀ names, names ≠ [] → world.disk.node (base ++ names) = some .directory →
    ∃ entry ∈ done, names <+: entry.1
  unlinked : Unlinked world.disk base

variable {world : World} {destDir : Path} {base : Location} {done : List (Location × Bytes)}
  {names : Location}

section

variable (holding : Holding world destDir base done)
include holding

theorem Holding.cases (names : Location) :
    world.disk.node (base ++ names) = none ∨ world.disk.node (base ++ names) = some .directory ∨
      ∃ bytes, (names, bytes) ∈ done := by
  cases found : world.disk.node (base ++ names) with
  | none => exact .inl rfl
  | some node =>
    cases node with
    | directory => exact .inr (.inl rfl)
    | file bytes => exact .inr (.inr ⟨bytes, (holding.files names bytes).mp found⟩)
    | link target => exact absurd found (holding.unlinked _ target (prefix_append base names))

theorem Holding.missing (below : names ≠ []) (apart : ∀ entry ∈ done, ¬ names <+: entry.1) :
    world.disk.node (base ++ names) = none := by
  rcases holding.cases names with missing | directory | ⟨bytes, member⟩
  · exact missing
  · obtain ⟨entry, member, inside⟩ := holding.directories names below directory
    exact absurd inside (apart entry member)
  · exact absurd (prefix_refl names) (apart _ member)

theorem Holding.clear (apart : ∀ entry ∈ done, ¬ entry.1 <+: names) :
    Clear world.disk base names := by
  intro inner shorter
  exact (holding.cases inner).imp_right fun there =>
    there.resolve_right fun ⟨_, member⟩ => apart _ member shorter

theorem Holding.home :
    world.lands destDir = some base ∧ ∀ place ∈ world.lands destDir, Unlinked world.disk place := by
  have home : world.lands destDir = some base :=
    locate_lands (Effect.refl world) holding.based.found
  refine ⟨home, fun place leads => ?_⟩
  obtain rfl := Option.some_inj.mp (home.symm.trans leads)
  exact holding.unlinked

/-- The directories of a file are made, and only they are new. -/
theorem Holding.createParent {front : Location} (clear : Clear world.disk base front) :
    ∃ after, createParent world (destDir.below (front ++ [name])) = (.ok (), after) ∧
      Based after destDir base ∧ after.disk.node (base ++ front) = some .directory ∧
        Effect world after [] ∧ ∀ names, world.disk.node (base ++ names) = none →
          after.disk.node (base ++ names) ≠ none → names <+: front := by
  have above : (destDir.below (front ++ [name])).parent = some (destDir.below front) := by
    simp [parent, below, ← append_assoc]
  obtain ⟨after, made, fault, directory⟩ := holding.based.createDirAll clear
  have makes := createDirAll_makes world (destDir.below front)
  have sound := createDirs_sound holding.based.sound (destDir.below front)
    (destDir.below front).components.length
  change (world.createDirAll (destDir.below front)).2.Sound at sound
  rw [made] at makes sound
  refine ⟨after, ?_, ?_, directory, makes.effect, ?_⟩
  · rw [Backup.createParent, above]
    exact made
  · exact holding.based.kept sound fault makes.effect.current
      fun loc node found => makes.effect.kept loc node not_mem_nil found
  · intro names missing there
    obtain ⟨home, unlinked⟩ := holding.home
    rcases @onTheWay_names world destDir unlinked (destDir.below front) front _ rfl
      (prefix_refl _) (makes.onTheWay (base ++ names) missing there) with
      outer | ⟨place, inner, leads, _, inside, same⟩
    · have present := outer.present holding.based.found holding.based.directory
      rw [missing] at present
      cases present
    · obtain rfl := Option.some_inj.mp (home.symm.trans leads)
      rw [append_cancel_left same]
      exact inside

/-- After new directories on its way a file is stored at a free place. -/
theorem Holding.store {middle : World} (below : names ≠ []) (based : Based middle destDir base)
    (effect : Effect world middle []) (fresh : ∀ other, world.disk.node (base ++ other) = none →
      middle.disk.node (base ++ other) ≠ none → other <+: names)
    (parent : middle.disk.node (base ++ names).dropLast = some .directory)
    (missing : middle.disk.node (base ++ names) = none) (bytes : Bytes) :
    Holding (middle.store (base ++ names) bytes) destDir base (done ++ [(names, bytes)]) := by
  have place : base ++ names ≠ [] := append_ne_nil_of_right_ne_nil base below
  have node : ∀ loc, (middle.store (base ++ names) bytes).disk.node loc =
      if loc = base ++ names then some (.file bytes) else middle.disk.node loc :=
    node_insert middle.disk place (.file bytes)
  have free : ∀ content, (names, content) ∉ done := by
    intro content member
    have old := effect.kept _ _ not_mem_nil ((holding.files names content).mpr member)
    rw [missing] at old
    cases old
  refine ⟨based.kept ?_ rfl rfl ?_, ?_, ?_, ?_⟩
  · exact based.sound.insert place parent (by rw [missing]; simp) (.file bytes) rfl rfl
  · intro loc old found
    rw [node, if_neg, found]
    rintro rfl
    rw [missing] at found
    cases found
  · intro other content
    rw [node, mem_append, mem_singleton, Prod.mk.injEq]
    by_cases same : other = names
    · subst same
      simp [free content, eq_comm]
    · rw [if_neg fun equal => same (append_cancel_left equal), ← holding.files]
      have kept := effect.kept (base ++ other) (.file content) not_mem_nil
      have old : middle.disk.node (base ++ other) = some (.file content) →
          world.disk.node (base ++ other) = some (.file content) := by
        intro found
        exact (effect.fresh _ _ not_mem_nil found).resolve_right (by simp)
      simp only [same, false_and, or_false]
      exact ⟨old, kept⟩
  · intro other inner found
    have found : middle.disk.node (base ++ other) = some .directory := by
      rw [node] at found
      split_ifs at found
      · cases found
      · exact found
    by_cases before : world.disk.node (base ++ other) = none
    · refine ⟨(names, bytes), mem_append_right _ (mem_singleton_self _), ?_⟩
      exact fresh other before (by rw [found]; simp)
    · obtain ⟨old, there⟩ := Option.ne_none_iff_exists'.mp before
      have kept := effect.kept _ old not_mem_nil there
      obtain rfl : old = .directory := Option.some_inj.mp (kept.symm.trans found)
      obtain ⟨entry, member, inside⟩ := holding.directories other inner there
      exact ⟨entry, mem_append_left _ member, inside⟩
  · intro loc target inside linked
    rw [node] at linked
    split_ifs at linked
    · cases linked
    exact holding.unlinked loc target inside (effect.link loc target linked)

/-- An entry apart from the others is written. -/
theorem Holding.writeEntry (below : names ≠ []) (apart : ∀ entry ∈ done, Apart names entry.1)
    (bytes : Bytes) :
    ∃ after, writeEntry world (destDir.below names) bytes = (.ok (), after) ∧
      Holding after destDir base (done ++ [(names, bytes)]) := by
  obtain ⟨front, name, rfl⟩ : ∃ front name, names = front ++ [name] := by
    obtain ⟨front, name, split⟩ := (eq_nil_or_concat names).resolve_left below
    exact ⟨front, name, by rw [split, concat_eq_append]⟩
  have clear : Clear world.disk base front := holding.clear fun entry member shorter =>
    (apart entry member).2 (shorter.trans (prefix_append _ _))
  obtain ⟨middle, made, based, parent, effect, fresh⟩ := holding.createParent clear
  have missing : middle.disk.node (base ++ (front ++ [name])) = none := by
    have before := holding.missing below fun entry member => (apart entry member).1
    by_contra there
    have short := (fresh _ before there).length_le
    rw [length_append, length_singleton] at short
    omega
  have above : middle.disk.node (base ++ (front ++ [name])).dropLast = some .directory := by
    rw [← append_assoc, dropLast_concat]
    exact parent
  refine ⟨_, ?_, holding.store below based effect ?_ above missing bytes⟩
  · unfold Backup.writeEntry
    rw [made, ← append_assoc]
    rw [← append_assoc] at missing
    exact based.write parent missing bytes
  · intro other before there
    exact (fresh other before there).trans (prefix_append _ _)

end

variable {entries : List (List Char × Bytes)} {parseManifest : ParseManifest}

variable (plain : ∀ entry ∈ entries, PlainPath entry.1 ∧ entry.1 ≠ manifestName)
  (apart : entries.Pairwise fun first second => Apart (namesOf first.1) (namesOf second.1))

include plain apart in
/-- Entries with plain paths that do not lie on the way of each other are all written. -/
theorem Holding.unpack {state : Unpacking} (holding : Holding state.world destDir base done)
    (running : state.failed = none)
    (outer : ∀ entry ∈ entries, ∀ old ∈ done, Apart (namesOf entry.1) old.1) :
    ∃ after, run (unpackEntry parseManifest destDir) state (entries.map .ok) =
        {state with
          seenPaths := (entries.map Prod.fst).reverse ++ state.seenPaths
          world := after} ∧
      Holding after destDir base (done ++ entries.map fun entry => (namesOf entry.1, entry.2)) := by
  induction entries generalizing state done with
  | nil => exact ⟨state.world, rfl, by simpa using holding⟩
  | cons entry rest ih =>
    obtain ⟨path, bytes⟩ := entry
    obtain ⟨simple, other⟩ := plain _ mem_cons_self
    obtain ⟨early, later⟩ := pairwise_cons.mp apart
    have below : namesOf path ≠ [] := by
      simp [namesOf]
    obtain ⟨after, written, held⟩ :=
      holding.writeEntry below (outer _ mem_cons_self) bytes
    rw [← destPath_plain simple] at written
    have step : unpackEntry parseManifest destDir state (.ok (path, bytes)) =
        {state with seenPaths := path :: state.seenPaths, world := after} := by
      simp [unpackEntry, running, other, written]
    have fresh : ∀ entry ∈ rest, ∀ old ∈ done ++ [(namesOf path, bytes)],
        Apart (namesOf entry.1) old.1 := fun entry member =>
      forall_mem_append.mpr ⟨outer entry (mem_cons_of_mem _ member),
        forall_mem_singleton.mpr (early entry member).symm⟩
    obtain ⟨final, ran, filled⟩ := @ih _
      (forall_mem_cons.mp plain).2 later
      {state with seenPaths := path :: state.seenPaths, world := after} held running fresh
    refine ⟨final, ?_, ?_⟩
    · rw [map_cons, run_cons, step, ran]
      simp
    · rw [append_assoc] at filled
      exact filled

theorem Holding.same {after : World} (holding : Holding world destDir base done)
    (fault : after.fault = world.fault) (current : after.current = world.current)
    (disk : after.disk = world.disk) : Holding after destDir base done where
  based := holding.based.kept (holding.based.sound.same disk current) fault current
    fun _ _ found => disk ▸ found
  files := disk ▸ holding.files
  directories := disk ▸ holding.directories
  unlinked := disk ▸ holding.unlinked

/-- All rows of files that were written are checked. -/
theorem Holding.checkEntries (holding : Holding world destDir base done)
    {seenPaths : List (List Char)} {rows : List ManifestEntry}
    (listed : ∀ row ∈ rows, PlainPath row.path ∧ row.path ∈ seenPaths ∧
      ∃ bytes, (namesOf row.path, bytes) ∈ done ∧ row.blake3 = checksum bytes) :
    ∃ after, checkEntries destDir seenPaths world rows = (.ok (), after) ∧
      after.disk = world.disk := by
  induction rows generalizing world with
  | nil => exact ⟨world, rfl, rfl⟩
  | cons row rest ih =>
    obtain ⟨plain, seen, bytes, member, right⟩ := listed row mem_cons_self
    have reading := holding.based.read ((holding.files _ bytes).mpr member)
    rw [← destPath_plain plain] at reading
    obtain ⟨after, checked, disk⟩ := @ih world.tick (holding.same rfl rfl rfl)
      (forall_mem_cons.mp listed).2
    refine ⟨after, ?_, disk⟩
    unfold Backup.checkEntries
    rw [if_neg (not_not.mpr seen), reading, right]
    simp only [checksum, ne_eq, not_true_eq_false, if_false]
    exact checked

/-- The directory is there and has nothing in it. -/
structure EmptyDirectory (world : World) (destDir : Path) (base : Location) : Prop where
  based : Based world destDir base
  empty : ∀ names, names ≠ [] → world.disk.node (base ++ names) = none

theorem EmptyDirectory.holding (fresh : EmptyDirectory world destDir base) :
    Holding world destDir base [] := by
  have only : ∀ names node, world.disk.node (base ++ names) = some node → node = .directory := by
    intro names node found
    by_cases inner : names = []
    · rw [inner, append_nil, fresh.based.directory] at found
      exact (Option.some_inj.mp found).symm
    · rw [fresh.empty names inner] at found
      cases found
  refine ⟨fresh.based, fun names bytes => ⟨fun found => ?_, fun member => ?_⟩,
    fun names inner found => ?_, ?_⟩
  · cases only names _ found
  · cases member
  · rw [fresh.empty names inner] at found
    cases found
  · rintro loc target ⟨names, rfl⟩ linked
    cases only names _ linked

include plain apart in
/-- A restore of plain entries that do not lie on the way of each other succeeds when the last entry
is a manifest of them, and the files are those of the entries. -/
theorem EmptyDirectory.restore (fresh : EmptyDirectory world destDir base) {last : Bytes}
    (parsed : parseManifest last = .ok manifest)
    (rows : ∀ row ∈ manifest.entries, ∃ bytes, (row.path, bytes) ∈ entries ∧
      row.blake3 = checksum bytes) :
    ∃ after, restore parseManifest destDir world
        ⟨.ok snapshotMagic, .ok ((entries ++ [(manifestName, last)]).map .ok)⟩ =
          (.ok manifest, after) ∧
      ∀ names bytes, after.disk.file (base ++ names) = some bytes ↔
        ∃ entry ∈ entries, namesOf entry.1 = names ∧ entry.2 = bytes := by
  obtain ⟨created, made, fault, current, disk⟩ :=
    fresh.based.createDirs_home destDir rfl rfl destDir.components.length
  have start := fresh.holding.same fault current disk
  obtain ⟨filled, ran, holding⟩ := @Holding.unpack destDir base [] entries parseManifest plain apart
    {world := created} start rfl fun _ _ _ old => absurd old not_mem_nil
  obtain ⟨after, checked, same⟩ := @Holding.checkEntries _ _ _ _ holding
    ((entries.map Prod.fst).reverse ++ []) manifest.entries fun row member => by
      obtain ⟨bytes, inside, right⟩ := rows row member
      refine ⟨(plain _ inside).1, ?_, bytes, ?_, right⟩
      · rw [append_nil, mem_reverse]
        exact mem_map.mpr ⟨_, inside, rfl⟩
      · exact mem_map.mpr ⟨_, inside, rfl⟩
  refine ⟨after, ?_, fun names bytes => ?_⟩
  · unfold Backup.restore
    rw [show world.createDirAll destDir = (.ok (), created) from made]
    have opened : Archive.open ⟨.ok snapshotMagic,
        .ok ((entries ++ [(manifestName, last)]).map .ok)⟩ =
          .ok ((entries ++ [(manifestName, last)]).map .ok) := by
      simp [Archive.open]
    have ended : run (unpackEntry parseManifest destDir) {world := created}
        ((entries ++ [(manifestName, last)]).map .ok) =
          {world := filled, manifest := some manifest,
            seenPaths := (entries.map Prod.fst).reverse ++ []} := by
      rw [map_append, run_append, ran]
      simp [run, unpackEntry, parsed]
    simp only [opened, ended, finish, checked]
  · rw [same, file_some_iff, holding.files, nil_append, mem_map]
    simp only [Prod.mk.injEq]

end Fill

variable {rows : List ManifestEntry}

section Snapshot

variable {tar : TarLibrary} {json : JsonLibrary} {outPath : Option (List Bytes)}

/-- The path is text without backslashes that fits in a name field, and neither the manifest nor
the output has it. -/
structure Portable (outPath : Option (List Bytes)) (path : List Bytes) : Prop where
  readable : ∀ name ∈ path, Readable name
  short : ([0x2f].intercalate path).length ≤ 100
  manifest : path ≠ [utf8Chars manifestName]
  output : outPath ≠ some path

def rowOf (file : WalkedFile) : ManifestEntry :=
  ⟨relativePath file.1, file.2.length, checksum file.2⟩

def treeManifest (tree : Listing) (sourceDir : List Char) (now : Int64) : SnapshotManifest :=
  ⟨snapshotVersion, now.toInt, sourceDir, (tree.walk []).map rowOf⟩

def treeEntries (tree : Listing) : List (List Char × Bytes) :=
  (tree.walk []).map fun file => (relativePath file.1, file.2)

theorem setPath_manifestName : tar.setPath manifestName = .ok manifestName :=
  tar.fits manifestName (by decide) (by decide)

variable {files : List WalkedFile}

theorem appendFiles_portable (named : ∀ file ∈ files, file.1 ≠ [] ∧ ∀ name ∈ file.1, ValidName name)
    (portable : ∀ file ∈ files, Portable outPath file.1) :
    appendFiles tar outPath files =
      .ok (files.map fun file => (relativePath file.1, file.2), files.map rowOf) := by
  induction files with
  | nil => rfl
  | cons file rest ih =>
    have fits := portable file mem_cons_self
    have valid := named file mem_cons_self
    obtain ⟨plain, text, _⟩ := relativePath_readable valid.1 valid.2 fits.readable
    have stored := tar.fits _ plain (by rw [text]; exact fits.short)
    have later := ih (forall_mem_cons.mp named).2 (forall_mem_cons.mp portable).2
    unfold appendFiles
    rw [if_neg fits.output, later]
    simp only [appendFile, stored]
    rfl

theorem appendFiles_ok {entries : List (List Char × Bytes)}
    (appended : appendFiles tar outPath files = .ok (entries, rows)) :
    ∀ entry ∈ entries, ∃ source ∈ files, outPath ≠ some source.1 ∧
      tar.setPath (relativePath source.1) = .ok entry.1 := by
  induction files generalizing entries rows with
  | nil =>
    cases appended
    exact forall_mem_nil _
  | cons file rest ih =>
    have later : ∀ {entries rows}, appendFiles tar outPath rest = .ok (entries, rows) →
        ∀ entry ∈ entries, ∃ source ∈ file :: rest, outPath ≠ some source.1 ∧
          tar.setPath (relativePath source.1) = .ok entry.1 := by
      intro entries rows done entry member
      obtain ⟨other, inside, kept⟩ := ih done entry member
      exact ⟨other, mem_cons_of_mem _ inside, kept⟩
    unfold appendFiles at appended
    by_cases skipped : outPath = some file.1
    · rw [if_pos skipped] at appended
      exact later appended
    rw [if_neg skipped] at appended
    unfold appendFile at appended
    cases stored : tar.setPath (relativePath file.1) with
    | error errno => simp [stored] at appended
    | ok path =>
      simp only [stored] at appended
      cases done : appendFiles tar outPath rest with
      | error error => simp [done] at appended
      | ok pair =>
        simp only [done, Except.ok.injEq, Prod.mk.injEq] at appended
        obtain ⟨rfl, _⟩ := appended
        exact forall_mem_cons.mpr ⟨⟨file, mem_cons_self, skipped, stored⟩, later done⟩

/-- A snapshot of a tree that succeeds has the entries of its files and the manifest. -/
theorem snapshot_ok {sourceDir : Bytes} {tree : Listing} {now : Int64} {archive : Archive}
    (taken : snapshot tar json sourceDir (some tree) (.ok outPath) now = .ok (manifest, archive)) :
    (fromUtf8 sourceDir).isSome ∧ ∃ entries rows,
      appendFiles tar outPath (tree.walk []) = .ok (entries, rows) ∧
        archive.tar = (entries ++ [(manifestName, json.encode manifest)]).map .ok := by
  unfold snapshot at taken
  cases appended : appendFiles tar outPath (tree.walk []) with
  | error error => simp [appended] at taken
  | ok pair =>
    obtain ⟨entries, rows⟩ := pair
    cases text : fromUtf8 sourceDir with
    | none => simp [appended, text] at taken
    | some characters =>
      simp only [appended, text, setPath_manifestName, Except.ok.injEq, Prod.mk.injEq] at taken
      obtain ⟨rfl, rfl⟩ := taken
      exact ⟨rfl, entries, rows, rfl, by simp [Archive.tar, Archive.open]⟩

end Snapshot

section Origin

variable {tar : TarLibrary} {world after : World} {destDir : Path} {base : Location}

theorem checkEntries_disk {seenPaths : List (List Char)}
    (checked : checkEntries destDir seenPaths world rows = (.ok (), after)) :
    after.disk = world.disk := by
  fun_induction checkEntries destDir seenPaths world rows with
  | case1 =>
    cases checked
    rfl
  | case5 _ _ _ _ _ _ reading _ _ ih =>
    obtain ⟨rfl, _⟩ := read_ok reading
    exact ih checked
  | _ => cases checked

theorem relativePath_clean {names : List Bytes} : '\\' ∉ relativePath names := by
  unfold relativePath
  rw [mem_map]
  rintro ⟨char, _, same⟩
  split_ifs at same with slash
  · cases same
  · exact slash same

theorem component_chars (member : .normal name ∈ (Path.parse text).components) :
    name.toList ⊆ text := by
  obtain ⟨piece, inside, component⟩ := mem_filterMap.mp member
  unfold Path.component at component
  split_ifs at component
  · cases component
  · cases component
    rw [String.toList_ofList]
    exact (mem_splitOn inside).2

theorem names_of_plain {components : List Component} (plain : .parent ∉ components) :
    ∃ names : Location, components = names.map .normal := by
  induction components with
  | nil => exact ⟨[], rfl⟩
  | cons component rest ih =>
    obtain ⟨names, rfl⟩ := ih fun member => plain (mem_cons_of_mem _ member)
    cases component with
    | parent => exact absurd mem_cons_self plain
    | normal name => exact ⟨name :: names, rfl⟩

/-- The names of a stored path are those of the file that is restored from it. -/
theorem stored_names (fresh : EmptyDirectory world destDir base) {path stored : List Char}
    {names : Location} (set : tar.setPath path = .ok stored)
    (leads : world.lands (destPath destDir stored) = some (base ++ names)) :
    (parse stored).components = names.map .normal := by
  obtain ⟨relative, plain⟩ := tar.relative path stored set
  obtain ⟨home, unlinked⟩ := fresh.holding.home
  obtain ⟨inner, components⟩ := names_of_plain plain
  have joined : (destPath destDir stored).absolute = destDir.absolute ∧
      (destPath destDir stored).components = destDir.components ++ inner.map .normal := by
    rw [destPath, join, relative, components]
    exact ⟨rfl, rfl⟩
  obtain ⟨place, reaches, same⟩ := lands_names unlinked joined.1 joined.2 leads
  obtain rfl := Option.some_inj.mp (home.symm.trans reaches)
  rw [components, append_cancel_left same]

end Origin

section RoundTrip

variable (tar : TarLibrary) (json : JsonLibrary) (sourceDir : Bytes) (tree : Listing)
  (outPath : Option (List Bytes)) (now : Int64)

/-- The snapshot of the tree is restored, and the directory then has the files of the tree with
their bytes and no other files. -/
def RoundTrip (world : World) (destDir : Path) (base : Location) : Prop :=
  ∃ manifest archive restored after,
    snapshot tar json sourceDir (some tree) (.ok outPath) now = .ok (manifest, archive) ∧
      restore json.decode destDir world archive = (.ok restored, after) ∧
        ∀ path bytes, (path, bytes) ∈ tree.walk [] ↔
          ∃ names : Location, names.map utf8 = path ∧ after.disk.file (base ++ names) = some bytes

variable {tar json sourceDir tree outPath now} {world : World} {destDir : Path} {base : Location}
  {file : WalkedFile}

section

variable (valid : tree.Valid)
include valid

theorem walk_named (member : file ∈ tree.walk []) :
    file.1 ≠ [] ∧ ∀ name ∈ file.1, ValidName name := by
  obtain ⟨name, later, same, _⟩ := Listing.walk_names member
  refine ⟨?_, (Listing.walk_valid valid (forall_mem_nil _) member).1⟩
  rw [same]
  simp

section

variable (portable : ∀ file ∈ tree.walk [], Portable outPath file.1)
include portable

theorem treeEntries_named (member : file ∈ tree.walk []) :
    PlainPath (relativePath file.1) ∧ relativePath file.1 ≠ manifestName ∧
      (namesOf (relativePath file.1)).map utf8 = file.1 := by
  obtain ⟨some, names⟩ := walk_named valid member
  obtain ⟨plain, _, back⟩ := relativePath_readable some names (portable file member).readable
  refine ⟨plain, fun same => (portable file member).manifest ?_, back⟩
  rw [← back, same]
  rfl

theorem treeEntries_apart :
    (treeEntries tree).Pairwise fun first second =>
      Apart (namesOf first.1) (namesOf second.1) := by
  have back : ∀ {first second : WalkedFile}, first ∈ tree.walk [] → second ∈ tree.walk [] →
      namesOf (relativePath first.1) <+: namesOf (relativePath second.1) →
        first.1 <+: second.1 := by
    intro first second one other shorter
    rw [← (treeEntries_named valid portable one).2.2,
      ← (treeEntries_named valid portable other).2.2]
    exact shorter.map utf8
  rw [treeEntries, pairwise_map]
  refine (Listing.walk_apart valid []).imp_of_mem fun one other apart => ?_
  exact ⟨fun shorter => apart.1 (back one other shorter),
    fun shorter => apart.2 (back other one shorter)⟩

omit portable in
theorem treeManifest_fits {now : Int64} : (treeManifest tree text now).Fits := by
  have version : snapshotVersion < 2 ^ 32 := by decide
  refine ⟨version, ⟨Int64.le_toInt now, Int64.toInt_lt now⟩, fun row member => ?_⟩
  obtain ⟨file, inside, rfl⟩ := mem_map.mp member
  exact (Listing.walk_valid valid (forall_mem_nil _) inside).2

/-- A tree of portable paths comes back. -/
theorem roundTrip_of_portable (fresh : EmptyDirectory world destDir base)
    (source : (fromUtf8 sourceDir).isSome) :
    RoundTrip tar json sourceDir tree outPath now world destDir base := by
  obtain ⟨text, decoded⟩ := Option.isSome_iff_exists.mp source
  have appended := @appendFiles_portable tar outPath _
    (fun file member => walk_named valid member) portable
  have taken : snapshot tar json sourceDir (some tree) (.ok outPath) now = .ok
      (treeManifest tree text now, ⟨.ok snapshotMagic, .ok ((treeEntries tree ++
        [(manifestName, json.encode (treeManifest tree text now))]).map .ok)⟩) := by
    unfold snapshot
    simp only [appended, decoded, setPath_manifestName]
    rfl
  have plain : ∀ entry ∈ treeEntries tree, PlainPath entry.1 ∧ entry.1 ≠ manifestName := by
    intro entry member
    obtain ⟨file, inside, rfl⟩ := mem_map.mp member
    obtain ⟨plain, other, _⟩ := treeEntries_named valid portable inside
    exact ⟨plain, other⟩
  have rows : ∀ row ∈ (treeManifest tree text now).entries, ∃ bytes,
      (row.path, bytes) ∈ treeEntries tree ∧ row.blake3 = checksum bytes := by
    intro row member
    obtain ⟨file, inside, rfl⟩ := mem_map.mp member
    exact ⟨file.2, mem_map.mpr ⟨file, inside, rfl⟩, rfl⟩
  obtain ⟨after, restored, files⟩ := fresh.restore plain (treeEntries_apart valid portable)
    (json.decode_encode _ (treeManifest_fits valid)) rows
  refine ⟨_, _, _, after, taken, restored, fun path bytes => ⟨fun member => ?_, ?_⟩⟩
  · refine ⟨namesOf (relativePath path), (treeEntries_named valid portable member).2.2, ?_⟩
    exact (files _ bytes).mpr ⟨_, mem_map.mpr ⟨(path, bytes), member, rfl⟩, rfl, rfl⟩
  · rintro ⟨names, rfl, found⟩
    obtain ⟨entry, inside, rfl, rfl⟩ := (files names bytes).mp found
    obtain ⟨file, member, rfl⟩ := mem_map.mp inside
    rw [(treeEntries_named valid portable member).2.2]
    exact member

end

end

section

variable (fresh : EmptyDirectory world destDir base)
  (trip : RoundTrip tar json sourceDir tree outPath now world destDir base)
  (member : file ∈ tree.walk [])
include fresh trip member

/-- Each file that comes back has the names of the stored path of a file of the tree. -/
theorem roundTrip_origin :
    ∃ names : Location, names.map utf8 = file.1 ∧ ∃ source ∈ tree.walk [], ∃ stored,
      outPath ≠ some source.1 ∧ stored ≠ manifestName ∧
        tar.setPath (relativePath source.1) = .ok stored ∧
          (parse stored).components = names.map .normal := by
  obtain ⟨manifest, archive, restored, after, taken, done, same⟩ := trip
  obtain ⟨names, path, found⟩ := (same file.1 file.2).mp member
  obtain ⟨state, unpacked, checked⟩ := restore_ok fresh.based.sound done
  obtain ⟨_, entries, rows, appended, tarred⟩ := snapshot_ok taken
  rw [checkEntries_disk checked] at found
  refine ⟨names, path, ?_⟩
  rcases unpacked.origin _ _ found with old | ⟨entry, member, leads, _⟩
  · rw [file_some_iff, fresh.holding.files] at old
    cases old
  · rw [tarred] at member
    obtain ⟨there, file⟩ := mem_filter.mp member
    have other : entry.1 ≠ manifestName := by simpa [isManifest] using file
    have whole : contents ((entries ++ [(manifestName, json.encode manifest)]).map .ok) =
        entries ++ [(manifestName, json.encode manifest)] := by
      simp [contents, Except.toOption, Function.comp_def]
    rw [whole] at there
    rcases mem_append.mp there with own | last
    · obtain ⟨source, walked, output, set⟩ := appendFiles_ok appended _ own
      exact ⟨source, walked, entry.1, output, other, set, stored_names fresh set leads⟩
    · exact absurd (congrArg Prod.fst (mem_singleton.mp last)) other

/-- All names of a tree that comes back are texts without backslashes. -/
theorem readable_of_roundTrip : ∀ name ∈ file.1, Readable name := by
  obtain ⟨names, path, source, _, stored, _, _, set, components⟩ :=
    roundTrip_origin fresh trip member
  intro name inside
  rw [← path] at inside
  obtain ⟨text, there, rfl⟩ := mem_map.mp inside
  refine ⟨text.toList, fromUtf8_utf8Chars, fun slash => ?_⟩
  have part : .normal text ∈ (parse stored).components := by
    rw [components]
    exact mem_map.mpr ⟨text, there, rfl⟩
  exact relativePath_clean (tar.shortens _ _ set (component_chars part slash))

/-- Only a tree of portable paths comes back. -/
theorem portable_of_roundTrip (valid : tree.Valid) : Portable outPath file.1 := by
  obtain ⟨names, path, source, walked, stored, output, other, set, components⟩ :=
    roundTrip_origin fresh trip member
  have readable := readable_of_roundTrip fresh trip walked
  obtain ⟨some, named⟩ := walk_named valid walked
  obtain ⟨plain, text, back⟩ := relativePath_readable some named readable
  have short : (utf8Chars (relativePath source.1)).length ≤ 100 := by
    by_contra long
    obtain ⟨errno, failed⟩ := tar.long _ plain (by omega)
    rw [failed] at set
    cases set
  obtain rfl : relativePath source.1 = stored :=
    Except.ok.inj ((tar.fits _ plain short).symm.trans set)
  -- The stored path has the names of the file, so the file is the source of its entry.
  have own : source.1 = file.1 := by
    rw [parse_plain plain] at components
    have equal : namesOf (relativePath source.1) = names :=
      map_injective_iff.mpr (fun _ _ normal => Component.normal.inj normal) components
    rw [← back, equal, path]
  rw [← own]
  refine ⟨readable, text ▸ short, fun manifest => other ?_, output⟩
  rw [manifest]
  exact @relativePath_texts [manifestName] (by decide)

end

/-- A tree comes back from its snapshot exactly when the source directory is text and the path of
each file is portable. -/
theorem backup_roundTrip_iff (tar : TarLibrary) (json : JsonLibrary) (sourceDir : Bytes)
    (outPath : Option (List Bytes)) (now : Int64) (valid : tree.Valid)
    (fresh : EmptyDirectory world destDir base) :
    RoundTrip tar json sourceDir tree outPath now world destDir base ↔
      (fromUtf8 sourceDir).isSome ∧ ∀ file ∈ tree.walk [], Portable outPath file.1 := by
  constructor
  · intro trip
    refine ⟨?_, fun file member => portable_of_roundTrip fresh trip member valid⟩
    obtain ⟨manifest, archive, _, _, taken, _⟩ := trip
    exact (snapshot_ok taken).1
  · rintro ⟨source, portable⟩
    exact roundTrip_of_portable valid portable fresh source

end RoundTrip

section Sample

/-- Paths that are not plain or too long are refused. -/
def strictTar : TarLibrary where
  setPath path :=
    if PlainPath path ∧ (utf8Chars path).length ≤ 100 then .ok path else .error .other
  fits path plain short := if_pos ⟨plain, short⟩
  long path _ long := ⟨.other, if_neg fun fits => by omega⟩
  shortens path stored set := by
    split_ifs at set
    cases set
    exact List.Subset.refl path
  relative path stored set := by
    split_ifs at set with fits
    cases set
    rw [parse_plain fits.1]
    exact ⟨rfl, by simp⟩

instance encodeCharacter : Encodable Char :=
  Encodable.ofLeftInjection Char.toNat (fun code => some (Char.ofNat code)) fun char => by
    rw [Char.ofNat_toNat]

instance encodeRow : Encodable ManifestEntry :=
  Encodable.ofLeftInjection (fun row => (row.path, row.size, row.blake3.toList))
    (fun fields => some ⟨fields.1, fields.2.1, String.ofList fields.2.2⟩) fun row => by
      rw [String.ofList_toList]

instance encodeManifest : Encodable SnapshotManifest :=
  Encodable.ofLeftInjection
    (fun manifest =>
      (manifest.version, manifest.createdAtUnix, manifest.sourceDir, manifest.entries))
    (fun fields => some ⟨fields.1, fields.2.1, fields.2.2.1, fields.2.2.2⟩) fun _ => rfl

def currentDir : Path := Path.parse ".".toList

theorem bareWorld_empty : EmptyDirectory bareWorld currentDir [] where
  based := ⟨bareWorld_sound, fun _ => rfl, rfl, rfl⟩
  empty names inner := by
    rw [nil_append, Disk.node, if_neg inner]
    exact AList.lookup_empty names

/-- A file lies in a directory beside another file. -/
def smallTree : Listing :=
  .directory (utf8 "logs") (.file (utf8 "today") [1, 2] .done) (.file (utf8 "key") [3] .done)

def smallManifest : SnapshotManifest := treeManifest smallTree "data".toList 0

/-- This is the manifest of the small tree as compact JSON. -/
def smallText : List Char :=
  let row (row : ManifestEntry) := jsonObject [("path", jsonString row.path),
    ("size", decimal row.size), ("blake3", jsonString row.blake3.toList)]
  jsonObject [("version", decimal 1), ("created_at_unix", decimal 0),
    ("source_dir", jsonString "data".toList),
    ("entries", '[' :: [','].intercalate (smallManifest.entries.map row) ++ [']'])]

/-- This library prints the manifest of the small tree, and it only counts other ones. -/
def smallJson : JsonLibrary where
  encode manifest :=
    if manifest = smallManifest then utf8Chars smallText
    else List.replicate (Encodable.encode manifest) 0
  decode bytes :=
    if bytes = utf8Chars smallText then .ok smallManifest
    else
      match Encodable.decode bytes.length with
      | some manifest => .ok manifest
      | none => .error "expected value at line 1 column 1"
  decode_encode manifest _ := by
    by_cases own : manifest = smallManifest
    · rw [if_pos own, if_pos rfl, own]
      rfl
    · have counted : List.replicate (Encodable.encode manifest) 0 ≠ utf8Chars smallText := by
        intro same
        have brace : 0x7b ∈ List.replicate (Encodable.encode manifest) (0 : UInt8) :=
          same ▸ mem_cons_self
        exact absurd (eq_of_mem_replicate brace) (by decide)
      rw [if_neg own, if_neg counted, length_replicate, Encodable.encodek]
      rfl

theorem smallTree_valid : smallTree.Valid := by
  refine ⟨?_, by decide, ⟨?_, by decide, by decide, trivial⟩, ?_, by decide, by decide, trivial⟩ <;>
    exact ⟨by decide, by decide, by decide, by decide, by decide⟩

/-- The small tree comes back. -/
theorem backup_roundTrip_small :
    RoundTrip strictTar smallJson (utf8 "data") smallTree none 0 bareWorld currentDir [] := by
  apply (backup_roundTrip_iff strictTar smallJson (utf8 "data") none 0 smallTree_valid
    bareWorld_empty).mpr
  have readable : ∀ name ∈ [utf8 "logs", utf8 "today", utf8 "key"], Readable name := by
    intro name member
    simp only [mem_cons, not_mem_nil, or_false] at member
    rcases member with rfl | rfl | rfl
    · exact ⟨"logs".toList, fromUtf8_utf8Chars, by decide⟩
    · exact ⟨"today".toList, fromUtf8_utf8Chars, by decide⟩
    · exact ⟨"key".toList, fromUtf8_utf8Chars, by decide⟩
  refine ⟨by simp [utf8], fun file member => ?_⟩
  obtain rfl | rfl : file = ([utf8 "logs", utf8 "today"], [1, 2]) ∨ file = ([utf8 "key"], [3]) := by
    simpa [smallTree, Listing.walk] using member
  · exact ⟨fun name inside => readable name (by aesop), by decide, by decide, by simp⟩
  · exact ⟨fun name inside => readable name (by aesop), by decide, by decide, by simp⟩

/-- A file has a backslash in its name. -/
def slashTree : Listing := .file (utf8 "a\\b") [1] .done

/-- The file with the backslash comes back under another path, whatever the libraries are. -/
theorem backup_not_roundTrip :
    ¬ ∃ (tar : TarLibrary) (json : JsonLibrary), ∀ (sourceDir : Bytes) (tree : Listing)
      (outPath : Option (List Bytes)) (now : Int64) (world : World) (destDir : Path)
      (base : Location), (fromUtf8 sourceDir).isSome → tree.Valid → outPath = none →
        EmptyDirectory world destDir base →
          RoundTrip tar json sourceDir tree outPath now world destDir base := by
  rintro ⟨tar, json, always⟩
  have valid : slashTree.Valid :=
    ⟨⟨by decide, by decide, by decide, by decide, by decide⟩, by decide, by decide, trivial⟩
  have trip := always (utf8 "data") slashTree none 0 bareWorld currentDir [] (by simp [utf8]) valid
    rfl bareWorld_empty
  obtain ⟨text, decoded, clean⟩ := readable_of_roundTrip bareWorld_empty trip
    mem_cons_self (utf8 "a\\b") (mem_singleton_self _)
  obtain rfl := Option.some_inj.mp decoded
  exact clean (by decide)

end Sample
end A3Net.Backup
