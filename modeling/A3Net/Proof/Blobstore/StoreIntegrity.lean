import A3Net.Machine.Run
import A3Net.Proof.Blobstore.StorePublishing

namespace A3Net.Blobstore.Store

open Cryptography Machine Program ContentHash List

def CarefulImport (env : Surroundings) (disk : Disk) (source : Source) : Prop :=
  ∀ hash size, hashFile source.first = .ok (hash, size) → hasComplete disk hash = false →
    ∀ pieces, readAll source.second = .ok pieces →
      ContentHash.fromBytes pieces.flatten = hash ∧ pieces.length ≤ 2 ^ 32 ∧
        Stages env disk hash pieces.length ∧
        (Renames env disk hash ∨ CopiesLast env disk hash pieces.length)

def CarefulPut (disk : Disk) (data : Bytes) : Prop :=
  hasComplete disk (ContentHash.fromBytes data) = false →
    NoStale disk (.blob (ContentHash.fromBytes data)) (pieces chunkSize data).length ∧
      (pieces chunkSize data).length ≤ 2 ^ 32

def CarefulRemove (env : Surroundings) (disk : Disk) (hash : ContentHash) : Prop :=
  ∀ folder, disk (.blob hash) = some folder → folder.complete.isSome →
    folder.chunks = [] ∨ Precedes .complete .chunks (arrange (env.listing .delete).top folder.top)

/-- The call meets its condition on the disk that it finds. -/
def Careful (history : History) (event : Event) : Prop :=
  match event.call with
  | .importFile source => CarefulImport event.surroundings history.disk source
  | .putBytes data => CarefulPut history.disk data
  | .remove hash => CarefulRemove event.surroundings history.disk hash

variable {env : Surroundings} {start : Disk} {size : Nat}

theorem verifyBlobOnDisk_safe {hash : ContentHash} :
    Safe Sound Sound Sound (verifyBlobOnDisk env hash size) fun _ => Sound := by
  apply Safe.look_bind
  intro folder
  split
  · exact Safe.throw fun _ held => held.1
  · split
    · exact Safe.throw fun _ held => held.1
    · split
      · exact Safe.throw fun _ held => held.1
      · exact Safe.pure fun _ held => held.1

variable {hash : ContentHash} {folder : Folder} {pieces chunks : List Bytes}

/-- The staging directory is the only one that changed since the import began. -/
theorem publish_staged (sound : Sound start) (right : fromBytes pieces.flatten = hash)
    (unknown : hasComplete start hash = false) (goes : Renames env start hash ∨
      CopiesLast env start hash pieces.length) :
    Safe Sound Sound (At (.importing hash) start (Staged pieces)) (publish env hash)
      fun _ => Sound := by
  apply Safe.of_each
  rintro ready ⟨beside, staged, present, done⟩
  have blob : ready (.blob hash) = start (.blob hash) := beside (.blob hash) (by simp)
  apply publish_safe (beside.sound sound) present _ done right
  · unfold Renames CopiesLast NoStale at goes ⊢
    rw [blob]
    exact goes
  · rw [blob]
    exact incomplete_of_unknown unknown

theorem importFileSync_safe {source : Source} (sound : Sound start)
    (careful : CarefulImport env start source) :
    Safe Sound Sound (· = start) (importFileSync env source) fun _ => Sound := by
  unfold importFileSync
  cases hashed : hashFile source.first with
  | error error =>
    apply Safe.throw
    rintro disk rfl
    exact sound
  | ok result =>
    obtain ⟨hash, size⟩ := result
    apply Safe.look_known fun disk same => congrArg (hasComplete · hash) same
    cases unknown : hasComplete start hash with
    | true =>
      apply Safe.pure
      rintro disk rfl
      exact sound
    | false =>
      have staging : ∀ disk, Anything hash start disk → Sound disk :=
        fun _ inside => inside.1.sound sound
      cases whole : readAll source.second with
      | error error =>
        apply Safe.bind _ ((stage_unread whole).weaken (fun _ same => same) staging
          staging fun _ _ never => never)
        intro _
        exact Safe.of_false fun _ never => never
      | ok pieces =>
        obtain ⟨right, few, stages, goes⟩ := careful hash size hashed unknown pieces whole
        apply Safe.bind _ ((stage_safe whole few stages).weaken (fun _ same => same)
          staging staging fun _ _ held => held)
        intro _
        apply Safe.bind _ (publish_staged sound right unknown goes)
        intro _
        apply Safe.bind _ verifyBlobOnDisk_safe
        intro _
        exact Safe.pure fun _ sound => sound

/-- The chunks of a put are written one after the other, each with the file of its hash. -/
theorem putPieces_safe (few : pieces.length ≤ 2 ^ 32) (rest done : List Bytes)
    (all : pieces = done ++ rest) :
    SafeWithin (.blob hash) start (Fine hash) (At (.blob hash) start fun folder =>
        Written pieces done.length folder ∧ folder.complete = none)
      (putPieces env hash (done.length % 2 ^ 32) rest)
      fun count => At (.blob hash) start fun folder =>
        Written pieces pieces.length folder ∧ folder.complete = none ∧
          count = pieces.length % 2 ^ 32 := by
  induction rest generalizing done with
  | nil =>
    rw [append_nil] at all
    subst all
    exact Safe.pure fun _ held => held.imp fun _ ⟨written, incomplete⟩ =>
      ⟨written, incomplete, rfl⟩
  | cons piece rest ih =>
    obtain ⟨here, index, following⟩ := next_piece few all
    have later := ih (done ++ [piece]) (by simp [all])
    rw [index]
    simp only [putPieces, following]
    apply Safe.bind fun _ => At (.blob hash) start fun folder =>
      Written pieces (done ++ [piece]).length folder ∧ folder.complete = none
    · apply writeFile_safe
      · exact fun _ held => fine_of_incomplete held.2
      · exact fun _ held _ => fine_of_incomplete held.2
      · rintro folder ⟨written, incomplete⟩
        rw [length_append, length_singleton]
        exact ⟨written.put here, incomplete⟩
    intro _
    apply Safe.bind _ _ fun _ => later
    apply writeFile_safe
    · exact fun _ held => fine_of_incomplete held.2
    · exact fun _ held _ => fine_of_incomplete held.2
    · rintro folder ⟨written, incomplete⟩
      exact ⟨written.put_other (fun _ => FileName.noConfusion) _, incomplete⟩

/-- A blob is stored when its chunks, its metadata and its sentinel are there. -/
structure StoredBlob (hash : ContentHash) (size : Nat) (chunks : List Bytes) (folder : Folder) :
    Prop where
  written : Written chunks chunks.length folder
  described : folder.metaJson = some (metaText hash size (chunks.length % 2 ^ 32))
  complete : folder.complete.isSome

theorem putFiles_safe {size : Nat} (unknown : hasComplete start hash = false)
    (fresh : NoStale start (.blob hash) chunks.length) (few : chunks.length ≤ 2 ^ 32)
    (right : fromBytes chunks.flatten = hash) :
    SafeWithin (.blob hash) start (Fine hash) (· = start) (putFiles env hash size chunks)
      fun _ => At (.blob hash) start (StoredBlob hash size chunks) := by
  apply Safe.bind fun _ => At (.blob hash) start fun folder =>
    Bounded chunks.length folder ∧ folder.complete = none
  · apply Safe.from_pre (createDir_safe ⟨bounded_empty _, rfl⟩
      fun _ held => fine_of_incomplete held.2)
    rintro disk rfl
    exact ⟨fun _ _ => rfl, fun folder found =>
      ⟨fresh folder found, incomplete_of_unknown unknown folder found⟩⟩
  intro _
  apply Safe.bind fun _ => At (.blob hash) start fun folder =>
    Written chunks 0 folder ∧ folder.complete = none
  · exact createChunksDir_safe (fun _ held => fine_of_incomplete held.2)
      fun _ held => ⟨fine_of_incomplete held.2, Bounded.written held.1, held.2⟩
  intro _
  apply Safe.bind _ (putPieces_safe few chunks [] rfl)
  intro count
  apply Safe.bind fun _ => At (.blob hash) start fun folder =>
    Written chunks chunks.length folder ∧ folder.complete = none ∧
      folder.metaJson = some (metaText hash size (chunks.length % 2 ^ 32))
  · apply writeFile_safe
    · exact fun _ held => fine_of_incomplete held.2.1
    · exact fun _ held _ => fine_of_incomplete held.2.1
    · rintro folder ⟨written, unfinished, rfl⟩
      exact ⟨written.put_other (fun _ => FileName.noConfusion) _, unfinished, rfl⟩
  intro _
  apply writeFile_safe
  · exact fun _ held => fine_of_incomplete held.2.1
  · rintro folder ⟨written, _⟩ bytes _
    rw [(written.put_other (fun _ => FileName.noConfusion) bytes).stored]
    exact right
  · rintro folder ⟨written, _, described⟩
    exact ⟨written.put_other (fun _ => FileName.noConfusion) sentinel, described, rfl⟩

theorem StoredBlob.fine (stored : StoredBlob hash size chunks folder)
    (right : fromBytes chunks.flatten = hash) : Fine hash folder := by
  intro _
  rw [stored.written.stored]
  exact right

theorem putBytesSync_safe {data : Bytes} (sound : Sound start) (careful : CarefulPut start data) :
    Safe Sound Sound (· = start) (putBytesSync env data) fun _ => Sound := by
  apply Safe.look_known fun disk same => congrArg (hasComplete · (fromBytes data)) same
  cases unknown : hasComplete start (fromBytes data) with
  | true =>
    apply Safe.pure
    rintro disk rfl
    exact sound
  | false =>
    obtain ⟨fresh, few⟩ := careful unknown
    have whole : fromBytes (pieces chunkSize data).flatten = fromBytes data := by
      rw [pieces_flatten chunkSize_pos]
    apply Safe.bind fun _ => Sound
    · apply (putFiles_safe unknown fresh few whole).sound sound
      exact fun _ _ held => (held.within fun _ stored => stored.fine whole).sound sound
    · intro _
      exact Safe.pure fun _ sound => sound

/-- Without its sentinel the directory can go in any order. -/
theorem incomplete_removable : Removable fun folder => folder.complete = none := by
  intro folder incomplete
  refine ⟨?_, incomplete⟩
  intro name
  cases name with
  | complete => rfl
  | chunk | sha | metaJson => exact incomplete

theorem empty_removable : Removable fun folder => folder.chunks = [] := by
  intro folder empty
  refine ⟨?_, empty⟩
  intro name
  cases name with
  | chunk index =>
    show OrderedMap.remove index folder.chunks = []
    rw [empty]
    rfl
  | sha | metaJson | complete => exact empty

/-- The sentinel goes before the first chunk does. -/
theorem removeTops_sentinel (right : fromBytes folder.stored = hash)
    (names : List TopName) (first : Precedes .complete .chunks names) :
    SafeWithin (.blob hash) start (Fine hash) (At (.blob hash) start (SameChunks folder))
      (removeTops env .delete (.blob hash) names)
      fun _ => At (.blob hash) start fun folder => folder.complete = none := by
  induction names with
  | nil => exact absurd first (Nat.lt_irrefl _)
  | cons name rest ih =>
    cases name with
    | chunks => simp [Precedes, idxOf_cons_self] at first
    | metaJson =>
      have later : Precedes .complete .chunks rest := by
        simpa [Precedes, idxOf_cons] using first
      apply Safe.bind _ _ fun _ => ih later
      exact inFolder_safe (fun _ same => same.fine right)
        (fun _ same => ⟨SameChunks.fine same right, same⟩) fun _ same _ => same.fine right
    | complete =>
      apply Safe.bind fun _ => At (.blob hash) start fun folder => folder.complete = none
      · exact inFolder_safe (fun _ same => same.fine right)
          (fun _ _ => ⟨fine_of_incomplete rfl, rfl⟩) fun _ same _ => same.fine right
      · intro _
        apply (removeTops_safe incomplete_removable
          fun _ _ _ present => present.within fun _ holds => holds).weaken
        · exact fun _ held => held
        · exact fun _ inside => inside.imp fun _ => fine_of_incomplete
        · exact fun _ inside => inside.imp fun _ => fine_of_incomplete
        · exact fun _ _ held => held

section

variable (found : start (.blob hash) = some folder) (right : fromBytes folder.stored = hash)
include found right

theorem removeDirAll_sentinel
    (first : Precedes .complete .chunks (arrange (env.listing .delete).top folder.top)) :
    SafeWithin (.blob hash) start (Fine hash) (· = start)
      (removeDirAll env .delete (.blob hash))
      fun _ => Within (.blob hash) start (Fine hash) := by
  apply Safe.look_known fun disk same => (congrFun same (.blob hash)).trans found
  have untouched : ∀ disk, disk = start → At (.blob hash) start (SameChunks folder) disk := by
    rintro disk rfl
    exact ⟨fun _ _ => rfl, folder, found, rfl⟩
  apply Safe.bind _ ((removeTops_sentinel right _ first).from_pre untouched)
  intro _
  apply Safe.step
  · rintro disk ⟨beside, _⟩
    exact ⟨beside.within_none, beside.within_none⟩
  · intro disk held stopped _
    have inside : Within (.blob hash) start (Fine hash) disk :=
      held.within fun _ => fine_of_incomplete
    exact ⟨inside, inside⟩

theorem removeDirAll_chunkless (empty : folder.chunks = []) :
    SafeWithin (.blob hash) start (Fine hash) (· = start)
      (removeDirAll env .delete (.blob hash))
      fun _ => Within (.blob hash) start (Fine hash) := by
  have fine : ∀ other : Folder, other.chunks = [] → Fine hash other := by
    intro other same
    exact SameChunks.fine (same.trans empty.symm) right
  apply (@removeDirAll_keeps (.blob hash) start _ env .delete empty_removable).weaken
  · rintro disk rfl
    exact ⟨fun _ _ => rfl, folder, found, empty⟩
  · exact fun _ inside => inside.imp fine
  · exact fun _ inside => inside.imp fine
  · exact fun _ disk ended => ended.1.within_of_absent ended.2

end

theorem remove_safe (sound : Sound start) (careful : CarefulRemove env start hash) :
    Safe Sound Sound (· = start) (remove env hash) fun _ => Sound := by
  apply Safe.look_known fun disk same => congrFun same (.blob hash)
  cases found : start (.blob hash) with
  | none =>
    apply Safe.pure
    rintro disk rfl
    exact sound
  | some folder =>
    dsimp only
    split
    · next complete =>
      have right : fromBytes folder.stored = hash :=
        sound_iff.mp sound hash folder found complete
      have removed : SafeWithin (.blob hash) start (Fine hash) (· = start)
          (removeDirAll env .delete (.blob hash))
          fun _ => Within (.blob hash) start (Fine hash) := by
        rcases careful folder found complete with empty | first
        · exact removeDirAll_chunkless found right empty
        · exact removeDirAll_sentinel found right first
      apply Safe.bind fun _ => Sound
      · exact removed.sound sound fun _ _ inside => inside.sound sound
      · intro _
        exact Safe.pure fun _ sound => sound
    · apply Safe.throw
      rintro disk rfl
      exact sound

theorem Safe.disks_sound {Result : Type} {program : StoreProgram Result} (sound : Sound start)
    (safe : Safe Sound Sound (· = start) program fun _ => Sound) :
    ∀ disk ∈ (program.execute ⟨start, []⟩).2.disks, Sound disk := by
  intro disk member
  rcases (safe ⟨start, []⟩ rfl).1 disk member with before | after
  · rw [mem_singleton.mp before]
    exact sound
  · exact after

variable {history : History} {event : Event}

/-- A careful call passes only sound disks. -/
theorem call_sound (sound : Sound history.disk) (careful : Careful history event) :
    ∀ disk ∈ event.call.disks event.surroundings history.disk, Sound disk := by
  unfold Careful at careful
  cases call : event.call with
  | importFile source =>
    rw [call] at careful
    exact Safe.disks_sound sound (importFileSync_safe sound careful)
  | putBytes data =>
    rw [call] at careful
    exact Safe.disks_sound sound (putBytesSync_safe sound careful)
  | remove hash =>
    rw [call] at careful
    exact Safe.disks_sound sound (remove_safe sound careful)

theorem passed_sound (sound : Sound history.disk) (careful : Careful history event) :
    ∀ disk ∈ event.passed history.disk, Sound disk := by
  intro disk member
  apply call_sound sound careful
  unfold Event.passed at member
  cases stop : event.stop with
  | none =>
    rw [stop] at member
    exact mem_reverse.mp member
  | some steps =>
    rw [stop] at member
    exact mem_reverse.mp (mem_of_mem_take member)

/-- What holds of a history: its disk is sound, and so was every disk before. -/
def SoundHistory (history : History) : Prop :=
  Sound history.disk ∧ ∀ disk ∈ history.passed, Sound disk

theorem SoundHistory.step (sound : SoundHistory history) (careful : Careful history event) :
    SoundHistory (history.step event) := by
  have later := passed_sound sound.1 careful
  constructor
  · show Sound ((event.passed history.disk).getLast?.getD history.disk)
    cases last : (event.passed history.disk).getLast? with
    | none => exact sound.1
    | some disk => exact later disk (mem_of_getLast? last)
  · intro disk member
    rcases mem_append.mp member with before | after
    · exact sound.2 disk before
    · exact later disk after

/-- In a run of careful calls, each of which may fail or be stopped, every disk is sound. -/
theorem store_sound {disk : Disk} (sound : Sound disk) (events : List Event)
    (careful : Guarded History.step Careful ⟨disk, [disk]⟩ events) :
    ∀ other ∈ (run History.step ⟨disk, [disk]⟩ events).passed, Sound other := by
  have start : SoundHistory ⟨disk, [disk]⟩ := ⟨sound, forall_mem_singleton.mpr sound⟩
  have always := Guarded.always History.step (fun _ _ => SoundHistory.step) start careful
  exact always.final.2

/-- The source has one byte both times it is read, and nothing fails. -/
def sampleImport : Event where
  surroundings := {dataDir := "blobs"}
  call := .importFile {first := [.ok [0x61]], second := [.ok [0x61]]}

theorem sampleImport_careful : Careful History.start sampleImport := by
  intro hash size hashed _ pieces whole
  have read : readAll [.ok [0x61]] = .ok [[0x61]] := rfl
  obtain ⟨rfl, -⟩ := Prod.mk.inj (Except.ok.inj hashed)
  obtain rfl : [[0x61]] = pieces := Except.ok.inj (read.symm.trans whole)
  refine ⟨rfl, by decide, Or.inr fun _ => rfl, Or.inl ⟨?_, rfl⟩⟩
  intro folder found
  cases found

/-- Another blob is put, and the program stops after three steps. -/
def stoppedPut : Event where
  surroundings := {dataDir := "blobs"}
  call := .putBytes [0x62]
  stop := some 3

/-- The directory lists the sentinel first when the imported blob is removed. -/
def sampleRemoval : Event where
  surroundings := {dataDir := "blobs", listing := fun _ => {top := [.complete]}}
  call := .remove (fromBytes [0x61])

theorem stoppedPut_careful : Careful (History.start.step sampleImport) stoppedPut := by
  have absent : ((History.start.step sampleImport).disk (.blob (fromBytes [0x62]))).isNone := by
    decide +kernel
  refine fun _ => ⟨fun folder found => ?_, by decide⟩
  rw [found] at absent
  cases absent

theorem sampleRemoval_careful :
    Careful ((History.start.step sampleImport).step stoppedPut) sampleRemoval := by
  have ordered : (((History.start.step sampleImport).step stoppedPut).disk
      (.blob (fromBytes [0x61]))).all fun folder =>
        decide (Precedes .complete .chunks (arrange [.complete] folder.top)) := by
    decide +kernel
  intro folder found _
  rw [found] at ordered
  exact Or.inr (of_decide_eq_true ordered)

/-- An import of an unchanged source, a put that is cut short and a removal leave a sound store. -/
theorem store_sound_sample :
    Guarded History.step Careful History.start [sampleImport, stoppedPut, sampleRemoval] ∧
      ∀ disk ∈ (run History.step History.start [sampleImport, stoppedPut, sampleRemoval]).passed,
        Sound disk := by
  have empty : Sound fun _ => none := by
    rw [sound_iff]
    intro hash folder found
    cases found
  have careful : Guarded History.step Careful History.start
      [sampleImport, stoppedPut, sampleRemoval] :=
    ⟨sampleImport_careful, stoppedPut_careful, sampleRemoval_careful, trivial⟩
  exact ⟨careful, store_sound empty _ careful⟩

/-- The source is empty when it is hashed and has one byte when it is stored. -/
def changedImport : Event where
  surroundings := {dataDir := "blobs"}
  call := .importFile {first := [], second := [.ok [0x61]]}

theorem changedImport_published :
    ((run History.step History.start [changedImport]).passed.any fun disk =>
      hasComplete disk (fromBytes []) &&
        ((disk (.blob (fromBytes []))).map Folder.stored == some [0x61])) = true := by
  decide +kernel

/-- A source that changes while it is imported is left complete under the old hash. -/
theorem store_forged :
    ¬ ∀ events : List Event,
      ∀ disk ∈ (run History.step History.start events).passed, Sound disk := by
  intro sound
  obtain ⟨disk, member, seen⟩ := any_eq_true.mp changedImport_published
  rw [Bool.and_eq_true] at seen
  obtain ⟨known, content⟩ := seen
  obtain ⟨folder, found, right⟩ :=
    sound [changedImport] disk member (fromBytes []) known
  rw [found] at content
  have bytes : folder.stored = [0x61] := by simpa using content
  rw [bytes] at right
  have ne : fromBytes [0x61] ≠ fromBytes [] := by decide +kernel
  exact ne right

end A3Net.Blobstore.Store
