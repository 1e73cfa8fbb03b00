import A3Net.Proof.Blobstore.StoreStaging
import Mathlib.Data.List.Dedup

namespace A3Net.Blobstore.Store

open Cryptography Machine Program List ContentHash

/-- The first entry is listed before the second one. -/
def Precedes (first second : TopName) (names : List TopName) : Prop :=
  names.idxOf first < names.idxOf second
deriving Decidable

/-- The rename finds an empty place and is not refused. -/
def Renames (env : Surroundings) (disk : Disk) (hash : ContentHash) : Prop :=
  (∀ folder, disk (.blob hash) = some folder → folder.top = []) ∧ env.faults .rename 0 = none

/-- The copy leaves no old chunk and comes to the sentinel after the chunks. -/
def CopiesLast (env : Surroundings) (disk : Disk) (hash : ContentHash) (count : Nat) :
    Prop :=
  NoStale disk (.blob hash) count ∧
    Precedes .chunks .complete (arrange (env.listing .copy).top [.chunks, .metaJson, .complete])

variable {Name : Type} [DecidableEq Name]

theorem mem_arrange {order present : List Name} {name : Name} :
    name ∈ arrange order present ↔ name ∈ present := by
  unfold arrange
  rw [mem_append, mem_dedup, mem_filter, mem_filter, decide_eq_true_iff, decide_eq_true_iff]
  constructor
  · rintro (⟨_, there⟩ | ⟨there, _⟩)
    · exact there
    · exact there
  · intro there
    by_cases listed : name ∈ order
    · exact Or.inl ⟨listed, there⟩
    · exact Or.inr ⟨there, listed⟩

theorem nodup_arrange (order : List Name) {present : List Name} (nodup : present.Nodup) :
    (arrange order present).Nodup := by
  unfold arrange
  apply List.Nodup.append (nodup_dedup _) (nodup.filter _)
  intro name first second
  rw [mem_dedup, mem_filter] at first
  rw [mem_filter, decide_eq_true_iff] at second
  exact second.2 first.1

variable {env : Surroundings} {hash : ContentHash} {ready : Disk} {staged : Folder}
  {pieces : List Bytes} {folder : Folder} {name : FileName} {before : Folder → Prop}

/-- The staged directory is still there. -/
theorem At.importing (present : ready (.importing hash) = some staged) (disk : Disk)
    (held : At (.blob hash) ready before disk) : disk (.importing hash) = some staged :=
  (held.1 (.importing hash) (by simp)).trans present

/-- The copy works in the directory of the blob and reads the staged one. -/
theorem copyFile_safe {after : Folder → Prop} (present : ready (.importing hash) = some staged)
    (keeps : ∀ folder, before folder → Fine hash folder)
    (writes : ∀ folder, before folder → ∀ bytes, Fine hash (folder.put name bytes))
    (gives : ∀ bytes, staged.read name = some bytes → ∀ folder, before folder →
      after (folder.put name bytes)) :
    SafeWithin (.blob hash) ready (Fine hash)
      (At (.blob hash) ready before) (copyFile env hash name)
      fun _ => At (.blob hash) ready after := by
  have content : ∀ disk : Disk, At (.blob hash) ready before disk →
      (disk (.importing hash)).bind (·.read name) = staged.read name := by
    intro disk held
    rw [held.importing present]
    rfl
  apply Safe.look_known content
  cases same : staged.read name with
  | none => exact Safe.throw fun disk held => held.within keeps
  | some bytes => exact writeFile_safe keeps writes (gives bytes same)

/-- The chunks of these files are the staged ones. -/
def Copied (staged : Folder) (count : Nat) (names : List FileName) (folder : Folder) : Prop :=
  folder.complete = none ∧ Bounded count folder ∧
    ∀ index, .chunk index ∈ names →
      OrderedMap.get index folder.chunks = OrderedMap.get index staged.chunks

variable {names : List FileName} {count : Nat}

theorem Copied.put {bytes : Bytes} (copied : Copied staged count names folder)
    (bounded : Bounded count staged) (ne : name ≠ .complete)
    (content : staged.read name = some bytes) :
    Copied staged count (names ++ [name]) (folder.put name bytes) := by
  obtain ⟨incomplete, few, same⟩ := copied
  refine ⟨?_, ?_, ?_⟩
  · rw [put_complete folder name ne, incomplete]
  · intro index chunk found
    rw [put_get_chunk] at found
    split_ifs at found with here
    · subst here
      exact bounded index bytes content
    · exact few index chunk found
  · intro index member
    rw [put_get_chunk]
    split_ifs with here
    · subst here
      exact content.symm
    · apply same index
      rcases mem_append.mp member with before | last
      · exact before
      · exact absurd (mem_singleton.mp last).symm here

theorem copyFiles_safe (present : ready (.importing hash) = some staged)
    (bounded : Bounded count staged) (names done : List FileName)
    (ne : ∀ name ∈ names, name ≠ .complete) :
    SafeWithin (.blob hash) ready (Fine hash)
      (At (.blob hash) ready (Copied staged count done)) (copyFiles env hash names)
      fun _ => At (.blob hash) ready (Copied staged count (done ++ names)) := by
  induction names generalizing done with
  | nil =>
    rw [append_nil]
    exact Safe.pure fun _ held => held
  | cons name rest ih =>
    have here := ne name mem_cons_self
    have later := ih (done ++ [name]) fun other member =>
      ne other (mem_cons_of_mem _ member)
    rw [append_assoc, singleton_append] at later
    apply Safe.bind _ _ fun _ => later
    apply copyFile_safe present
    · exact fun _ copied => fine_of_incomplete copied.1
    · intro folder copied bytes
      apply fine_of_incomplete
      rw [put_complete folder name here, copied.1]
    · exact fun bytes content folder copied => copied.put bounded here content

/-- All staged chunks are there, and no others. -/
theorem Copied.chunks (copied : Copied staged pieces.length names folder)
    (written : Written pieces pieces.length staged)
    (all : ∀ name, name ∈ staged.nested → name ∈ names) : folder.chunks = staged.chunks := by
  apply folder.sorted.eq_of_get staged.sorted
  intro index
  cases found : OrderedMap.get index staged.chunks with
  | some bytes =>
    have listed : FileName.chunk index ∈ staged.nested := by
      unfold Folder.nested
      apply mem_append_left
      exact mem_map.mpr ⟨(index, bytes), OrderedMap.get_mem found, rfl⟩
    rw [copied.2.2 index (all _ listed), found]
  | none =>
    have outside : ¬ index < pieces.length := by
      intro inside
      rw [written.2 index inside, getElem?_eq_getElem inside] at found
      cases found
    cases other : OrderedMap.get index folder.chunks with
    | none => rfl
    | some bytes => exact absurd (copied.2.1 index bytes other) outside

theorem nested_ne_complete (listed : name ∈ folder.nested) : name ≠ .complete := by
  rintro rfl
  unfold Folder.nested at listed
  simp at listed

/-- The blob has the chunks of the staged directory. -/
def SameChunks (staged folder : Folder) : Prop := folder.chunks = staged.chunks

theorem SameChunks.fine (same : SameChunks staged folder)
    (right : fromBytes staged.stored = hash) : Fine hash folder := by
  intro _
  rw [Folder.stored, same]
  exact right

theorem SameChunks.put_other (same : SameChunks staged folder)
    (other : ∀ index, name ≠ .chunk index) (bytes : Bytes) :
    SameChunks staged (folder.put name bytes) := by
  cases name with
  | chunk index => exact absurd rfl (other index)
  | sha | metaJson | complete => exact same

section

variable (present : ready (.importing hash) = some staged)
include present

/-- After the chunks are copied, the other files do no harm. -/
theorem copyTops_done (right : fromBytes staged.stored = hash) {names : List TopName}
    (others : .chunks ∉ names) :
    SafeWithin (.blob hash) ready (Fine hash)
      (At (.blob hash) ready (SameChunks staged)) (copyTops env hash names)
      fun _ => At (.blob hash) ready (SameChunks staged) := by
  have copy : ∀ name : FileName, (∀ index, name ≠ .chunk index) →
      SafeWithin (.blob hash) ready (Fine hash)
        (At (.blob hash) ready (SameChunks staged)) (copyFile env hash name)
        fun _ => At (.blob hash) ready (SameChunks staged) := by
    intro name other
    exact copyFile_safe present (fun _ same => same.fine right)
      (fun _ same bytes => (same.put_other other bytes).fine right)
      fun bytes _ _ same => same.put_other other bytes
  induction names with
  | nil => exact Safe.pure fun _ held => held
  | cons name rest ih =>
    have later := ih fun member => others (mem_cons_of_mem _ member)
    cases name with
    | chunks => exact absurd mem_cons_self others
    | metaJson => exact Safe.bind _ (copy .metaJson fun _ => FileName.noConfusion) fun _ => later
    | complete => exact Safe.bind _ (copy .complete fun _ => FileName.noConfusion) fun _ => later

theorem copyChunks_safe (written : Written pieces pieces.length staged) :
    SafeWithin (.blob hash) ready (Fine hash)
      (At (.blob hash) ready (Copied staged pieces.length []))
      (copyTop env hash .chunks) fun _ => At (.blob hash) ready (SameChunks staged) := by
  apply Safe.bind fun _ => At (.blob hash) ready (Copied staged pieces.length [])
  · exact createChunksDir_safe (fun _ copied => fine_of_incomplete copied.1)
      fun _ copied => ⟨fine_of_incomplete copied.1, copied⟩
  intro _
  apply Safe.look_known (At.importing present)
  apply Safe.weaken (copyFiles_safe present written.1
    (arrange (env.listing .copy).nested staged.nested) []
    fun name member => nested_ne_complete (mem_arrange.mp member))
  · exact fun _ held => held
  · exact fun _ inside => inside
  · exact fun _ inside => inside
  · intro _ disk held
    apply held.imp
    intro other copied
    apply copied.chunks written
    intro name member
    exact mem_arrange.mpr member

/-- The sentinel comes after the chunks. -/
theorem copyTops_safe (written : Written pieces pieces.length staged)
    (right : fromBytes staged.stored = hash) (names : List TopName)
    (nodup : names.Nodup) (last : Precedes .chunks .complete names) :
    SafeWithin (.blob hash) ready (Fine hash)
      (At (.blob hash) ready (Copied staged pieces.length [])) (copyTops env hash names)
      fun _ => At (.blob hash) ready (SameChunks staged) := by
  induction names with
  | nil => exact absurd last (Nat.lt_irrefl _)
  | cons name rest ih =>
    cases name with
    | complete => simp [Precedes, idxOf_cons_self] at last
    | chunks =>
      apply Safe.bind _ (copyChunks_safe present written)
      intro _
      exact copyTops_done present right (nodup_cons.mp nodup).1
    | metaJson =>
      have later : Precedes .chunks .complete rest := by
        simpa [Precedes, idxOf_cons] using last
      apply Safe.bind _ _ fun _ => ih (nodup_cons.mp nodup).2 later
      exact copyFile_safe present (fun _ copied => fine_of_incomplete copied.1)
        (fun _ copied _ => fine_of_incomplete copied.1) fun _ _ _ copied => copied

theorem copyDirRecursive_safe (whole : Staged pieces staged)
    (right : fromBytes staged.stored = hash) (last : Precedes .chunks .complete
      (arrange (env.listing .copy).top [.chunks, .metaJson, .complete])) :
    SafeWithin (.blob hash) ready (Fine hash)
      (At (.blob hash) ready (Copied staged pieces.length []))
      (copyDirRecursive env hash)
      fun _ => At (.blob hash) ready (SameChunks staged) := by
  have empty : Copied staged pieces.length [] .empty :=
    ⟨rfl, bounded_empty _, fun _ member => absurd member not_mem_nil⟩
  apply Safe.bind fun _ => At (.blob hash) ready (Copied staged pieces.length [])
  · apply Safe.from_pre (createDir_safe empty fun _ copied => fine_of_incomplete copied.1)
    exact fun _ held => held.within fun _ copied => copied
  intro _
  apply Safe.look_known (At.importing present)
  rw [← whole.top] at last
  apply copyTops_safe present whole.written right _ (nodup_arrange _ _) last
  rw [whole.top]
  decide

end

/-- The rename puts the staged directory in place of the blob's, or leaves both. -/
theorem rename_safe {fail : Disk → Prop} (sound : Sound ready)
    (present : ready (.importing hash) = some staged) (right : fromBytes staged.stored = hash)
    (refused : ∀ disk folder, Beside (.blob hash) ready disk → disk (.blob hash) = some folder →
      before folder → ((env.faults .rename 0).isSome ∨ folder.top ≠ []) → fail disk)
    (keeps : ∀ folder, before folder → Fine hash folder) :
    Safe Sound fail (At (.blob hash) ready before) (rename env hash) fun _ => Sound := by
  apply look_at
  intro folder holds
  split
  · next vacant =>
    apply Safe.step
    · rintro disk ⟨⟨beside, _⟩, _⟩
      have moved : Sound (Function.update (Function.update disk (.blob hash)
          (disk (.importing hash))) (.importing hash) none) := by
        rw [beside (.importing hash) (by simp), present]
        have placed : Sound (Function.update disk (.blob hash) (some staged)) :=
          Within.sound sound (beside.within_update fun _ => right)
        apply Beside.sound placed
        exact Beside.update (fun _ _ => rfl) none
      exact ⟨moved, moved⟩
    · rintro disk ⟨present, found⟩ stopped faulty
      refine ⟨(present.within keeps).sound sound, ?_⟩
      exact refused disk folder present.1 found holds (Or.inl (by rw [faulty]; rfl))
  · next full =>
    apply Safe.throw
    rintro disk ⟨present, found⟩
    exact refused disk folder present.1 found holds (Or.inr full)

/-- The staging directory goes, and the blobs are not touched. -/
theorem tidy_safe :
    Safe Sound Sound (fun disk => Sound disk ∧ (disk (.importing hash)).isSome)
      (ignore (removeDirAll env .tidy (.importing hash))) fun _ => Sound := by
  apply Safe.of_each
  rintro start ⟨sound, present⟩
  obtain ⟨folder, found⟩ := Option.isSome_iff_exists.mp present
  have removed : Safe (Anything hash start) (Anything hash start)
      (At (.importing hash) start fun _ => True)
      (removeDirAll env .tidy (.importing hash))
      fun _ disk => Beside (.importing hash) start disk ∧ disk (.importing hash) = none :=
    removeDirAll_safe true_removable fun _ _ _ held => held.within fun _ _ => trivial
  apply Safe.weaken (Safe.ignore removed (fun _ disk ended => ended.1.sound sound)
    fun disk inside => inside.1.sound sound)
  · rintro disk rfl
    exact ⟨fun _ _ => rfl, folder, found, trivial⟩
  · exact fun _ inside => inside.1.sound sound
  · exact fun _ sound => sound
  · exact fun _ _ sound => sound

/-- Work in the directory of a blob keeps every blob sound. -/
theorem SafeWithin.sound {Result : Type} {program : StoreProgram Result} {pre : Disk → Prop}
    {post post' : Result → Disk → Prop}
    (safe : SafeWithin (.blob hash) ready (Fine hash) pre program post) (sound : Sound ready)
    (after : ∀ result disk, post result disk → post' result disk) :
    Safe Sound Sound pre program post' :=
  safe.weaken (fun _ held => held) (fun _ inside => inside.sound sound)
    (fun _ inside => inside.sound sound) after

/-- The new directory and a directory that an earlier attempt left are both without a sentinel. -/
theorem destDir_safe (sound : Sound ready) (before : Folder → Prop) (empty : before .empty)
    (old : ∀ folder, ready (.blob hash) = some folder → before folder)
    (incomplete : ∀ folder, before folder → folder.complete = none) :
    Safe Sound Sound (· = ready) (createDir env .destDir (.blob hash))
      fun _ => At (.blob hash) ready before := by
  have fine : ∀ folder, before folder → Fine hash folder :=
    fun folder holds => fine_of_incomplete (incomplete folder holds)
  apply ((createDir_safe empty fine).sound sound fun _ _ held => held).from_pre
  rintro disk rfl
  exact ⟨fun _ _ => rfl, old⟩

section

variable (sound : Sound ready) (present : ready (.importing hash) = some staged)
  (unknown : ∀ folder, ready (.blob hash) = some folder → folder.complete = none)
include sound present unknown

theorem publish_renames (right : fromBytes staged.stored = hash)
    (renames : Renames env ready hash) :
    Safe Sound Sound (· = ready) (publish env hash) fun _ => Sound := by
  obtain ⟨vacant, faultless⟩ := renames
  apply Safe.bind _ (destDir_safe sound (fun folder => folder.complete = none ∧ folder.top = [])
    ⟨rfl, rfl⟩
    (fun folder found => ⟨unknown folder found, vacant folder found⟩) fun _ holds => holds.1)
  intro _
  have renamed : Safe Sound (fun _ => False)
      (At (.blob hash) ready fun folder => folder.complete = none ∧ folder.top = [])
      (rename env hash) fun _ => Sound := by
    apply rename_safe sound present right
    · rintro disk folder _ _ ⟨_, empty⟩ (faulty | full)
      · rw [faultless] at faulty
        cases faulty
      · exact full empty
    · exact fun _ holds => fine_of_incomplete holds.1
  apply Safe.bind _ renamed.attempt
  intro outcome
  cases outcome with
  | error error => exact Safe.of_false fun _ impossible => impossible
  | ok value => exact Safe.pure fun _ sound => sound

/-- After a failed rename the copy puts the sentinel last. -/
theorem publish_copies (whole : Staged pieces staged) (right : fromBytes staged.stored = hash)
    (copies : CopiesLast env ready hash pieces.length) :
    Safe Sound Sound (· = ready) (publish env hash) fun _ => Sound := by
  obtain ⟨fresh, last⟩ := copies
  have nothing : ∀ folder : Folder, folder.complete = none → Bounded pieces.length folder →
      Copied staged pieces.length [] folder :=
    fun _ incomplete bounded =>
      ⟨incomplete, bounded, fun _ member => absurd member not_mem_nil⟩
  apply Safe.bind _ (destDir_safe sound _ (nothing .empty rfl (bounded_empty _))
    (fun folder found => nothing folder (unknown folder found) (fresh folder found))
    fun _ copied => copied.1)
  intro _
  have renamed : Safe Sound (At (.blob hash) ready (Copied staged pieces.length []))
      (At (.blob hash) ready (Copied staged pieces.length []))
      (rename env hash) fun _ => Sound := by
    apply rename_safe sound present right
    · exact fun disk folder beside found copied _ => ⟨beside, folder, found, copied⟩
    · exact fun _ copied => fine_of_incomplete copied.1
  have copied : Safe Sound Sound (At (.blob hash) ready (Copied staged pieces.length []))
      (copyDirRecursive env hash)
      fun _ disk => Sound disk ∧ (disk (.importing hash)).isSome := by
    apply (copyDirRecursive_safe present whole right last).sound sound
    intro _ disk held
    refine ⟨(held.within fun _ same => same.fine right).sound sound, ?_⟩
    rw [held.importing present]
    rfl
  apply Safe.bind _ renamed.attempt
  intro outcome
  cases outcome with
  | ok value => exact Safe.pure fun _ sound => sound
  | error error =>
    apply Safe.bind _ copied.attempt
    intro outcome
    cases outcome with
    | error error => exact Safe.throw fun _ sound => sound
    | ok value => exact tidy_safe

theorem publish_safe (whole : Staged pieces staged) (right : fromBytes pieces.flatten = hash)
    (goes : Renames env ready hash ∨ CopiesLast env ready hash pieces.length) :
    Safe Sound Sound (· = ready) (publish env hash) fun _ => Sound := by
  have rightStored : fromBytes staged.stored = hash := by
    rw [whole.written.stored]
    exact right
  rcases goes with renames | copies
  · exact publish_renames sound present unknown rightStored renames
  · exact publish_copies sound present unknown whole rightStored copies

end

end A3Net.Blobstore.Store
