import A3Net.Proof.Blobstore.StoreSteps

namespace A3Net.Blobstore.Store

open Cryptography Machine Program List

/-- Every blob that is complete has the chunks of its hash. -/
def Sound (disk : Disk) : Prop :=
  ∀ hash, hasComplete disk hash = true →
    ∃ folder, disk (.blob hash) = some folder ∧ ContentHash.fromBytes folder.stored = hash

/-- No chunk has a number from `count` on. -/
def Bounded (count : Nat) (folder : Folder) : Prop :=
  ∀ index bytes, OrderedMap.get index folder.chunks = some bytes → index < count

def NoStale (disk : Disk) (place : Place) (count : Nat) : Prop :=
  ∀ folder, disk place = some folder → Bounded count folder

/-- The staging directory has no old chunk, or it is emptied first. -/
def Stages (env : Surroundings) (disk : Disk) (hash : ContentHash) (count : Nat) : Prop :=
  NoStale disk (.importing hash) count ∨ ∀ number, env.faults .clean number = none

/-- A complete directory of this blob has the chunks of its hash. -/
def Fine (hash : ContentHash) (folder : Folder) : Prop :=
  folder.complete.isSome → ContentHash.fromBytes folder.stored = hash

variable {disk : Disk}

theorem sound_iff :
    Sound disk ↔ ∀ hash folder, disk (.blob hash) = some folder → Fine hash folder := by
  constructor
  · intro sound hash folder found complete
    have known : hasComplete disk hash = true := by
      rw [hasComplete, found]
      exact complete
    obtain ⟨other, same, holds⟩ := sound hash known
    rw [found] at same
    cases same
    exact holds
  · intro fine hash known
    rw [hasComplete] at known
    cases found : disk (.blob hash) with
    | none => simp [found] at known
    | some folder =>
      rw [found] at known
      exact ⟨folder, rfl, fine hash folder found known⟩

variable {hash : ContentHash}

theorem Within.sound {start : Disk} (sound : Sound start)
    (inside : Within (.blob hash) start (Fine hash) disk) : Sound disk := by
  rw [sound_iff] at sound ⊢
  intro other folder found
  by_cases same : other = hash
  · subst same
    exact inside.2 folder found
  · apply sound other folder
    rw [← inside.1 (.blob other) (by simpa using same)]
    exact found

/-- What happens beside the blobs does not reach them. -/
theorem Beside.sound {start : Disk} (sound : Sound start)
    (beside : Beside (.importing hash) start disk) : Sound disk := by
  rw [sound_iff] at sound ⊢
  intro other folder found
  apply sound other folder
  rw [← beside (.blob other) (by simp)]
  exact found

theorem fine_of_incomplete {folder : Folder} (incomplete : folder.complete = none) :
    Fine hash folder := by
  intro complete
  rw [incomplete] at complete
  cases complete

theorem incomplete_of_unknown (unknown : hasComplete disk hash = false) :
    ∀ folder, disk (.blob hash) = some folder → folder.complete = none := by
  intro folder found
  rw [hasComplete, found] at unknown
  cases complete : folder.complete with
  | none => rfl
  | some bytes => simp [complete] at unknown

variable {pieces : List Bytes}

/-- The first `done` pieces are written, and there are no chunks beside the pieces. -/
def Written (pieces : List Bytes) (done : Nat) (folder : Folder) : Prop :=
  Bounded pieces.length folder ∧ ∀ index < done, OrderedMap.get index folder.chunks = pieces[index]?

variable {folder : Folder}

theorem Written.stored (written : Written pieces pieces.length folder) :
    folder.stored = pieces.flatten := by
  have values : folder.chunks.map Prod.snd = pieces := by
    apply folder.sorted.values_eq
    intro index
    by_cases inside : index < pieces.length
    · exact written.2 index inside
    · rw [getElem?_eq_none (Nat.not_lt.mp inside)]
      cases found : OrderedMap.get index folder.chunks with
      | none => rfl
      | some bytes => exact absurd (written.1 index bytes found) inside
  rw [Folder.stored, values]

variable {piece : Bytes} {done : Nat}

theorem Written.put (written : Written pieces done folder) (next : pieces[done]? = some piece) :
    Written pieces (done + 1) (folder.put (.chunk done) piece) := by
  have inside : done < pieces.length := (List.getElem?_eq_some_iff.mp next).1
  constructor
  · intro index bytes found
    rw [put_get_chunk] at found
    split_ifs at found with same
    · cases same
      exact inside
    · exact written.1 index bytes found
  · intro index below
    rw [put_get_chunk]
    split_ifs with same
    · cases same
      exact next.symm
    · apply written.2
      have ne : done ≠ index := fun equal => same (congrArg FileName.chunk equal)
      omega

/-- Files beside the chunks do not matter. -/
theorem Written.put_other {name : FileName} (written : Written pieces done folder)
    (other : ∀ index, name ≠ .chunk index) (bytes : Bytes) :
    Written pieces done (folder.put name bytes) := by
  constructor
  · intro index chunk found
    rw [put_get_chunk, if_neg (other index)] at found
    exact written.1 index chunk found
  · intro index below
    rw [put_get_chunk, if_neg (other index)]
    exact written.2 index below

theorem Bounded.written (bounded : Bounded pieces.length folder) : Written pieces 0 folder :=
  ⟨bounded, fun _ below => absurd below (Nat.not_lt_zero _)⟩

theorem bounded_empty (count : Nat) : Bounded count .empty := by
  intro index bytes found
  cases found

variable {count : Nat}

theorem bounded_removable : Removable (Bounded count) := by
  intro folder bounded
  refine ⟨?_, bounded⟩
  intro name
  cases name with
  | chunk other =>
    intro index bytes found
    change OrderedMap.get index (OrderedMap.remove other folder.chunks) = some bytes at found
    rw [OrderedMap.get_remove] at found
    split_ifs at found
    exact bounded index bytes found
  | sha | metaJson | complete => exact bounded

variable {env : Surroundings} {start : Disk}

/-- Any directory of the import will do. -/
abbrev Anything (hash : ContentHash) (start : Disk) : Disk → Prop :=
  Within (.importing hash) start fun _ => True

/-- The old directory is gone, or what the removal left of it does no harm. -/
theorem cleanStale_of {before after : Folder → Prop} {fail : Disk → Prop}
    (removable : Removable before)
    (found : ∀ folder, start (.importing hash) = some folder → before folder)
    (fails : ∀ number, (env.faults .clean number).isSome →
      ∀ disk, At (.importing hash) start before disk → fail disk)
    (harmless : ∀ disk, fail disk → Within (.importing hash) start after disk) :
    Safe (Anything hash start) (Anything hash start) (· = start) (cleanStale env hash)
      fun _ => Within (.importing hash) start after := by
  apply Safe.look_known fun disk same => congrFun same (.importing hash)
  cases present : start (.importing hash) with
  | none =>
    apply Safe.pure
    rintro disk rfl
    exact Beside.within_of_absent (fun _ _ => rfl) present
  | some folder =>
    have removed := removeDirAll_safe removable fails
    apply Safe.weaken
      (Safe.ignore removed (fun _ disk ended => ended.1.within_of_absent ended.2) harmless)
    · rintro disk rfl
      exact ⟨fun _ _ => rfl, folder, present, found folder present⟩
    · exact fun _ inside => inside.imp fun _ _ => trivial
    · exact fun _ inside => inside
    · exact fun _ _ inside => inside

theorem true_removable : Removable fun _ => True :=
  fun _ _ => ⟨fun _ => trivial, trivial⟩

theorem cleanStale_safe (stages : Stages env start hash count) :
    Safe (Anything hash start) (Anything hash start) (· = start) (cleanStale env hash)
      fun _ => Within (.importing hash) start (Bounded count) := by
  rcases stages with fresh | faultless
  · exact cleanStale_of (bounded_removable) fresh
      (fun _ _ _ present => present.within fun _ bounded => bounded) fun _ inside => inside
  · apply cleanStale_of true_removable (fun _ _ => trivial)
    · intro number faulty
      rw [faultless number] at faulty
      cases faulty
    · exact fun _ impossible => False.elim impossible

variable {second : List Read}

/-- The counter of the loops has not wrapped round while a piece is left. -/
theorem next_piece {done rest : List Bytes} (few : pieces.length ≤ 2 ^ 32)
    (all : pieces = done ++ piece :: rest) :
    pieces[done.length]? = some piece ∧ done.length % 2 ^ 32 = done.length ∧
      next done.length = (done ++ [piece]).length % 2 ^ 32 := by
  have here : pieces[done.length]? = some piece := by
    rw [all, getElem?_append_right (Nat.le_refl _), Nat.sub_self]
    rfl
  have inside : done.length < pieces.length := (List.getElem?_eq_some_iff.mp here).1
  refine ⟨here, Nat.mod_eq_of_lt (Nat.lt_of_lt_of_le inside few), ?_⟩
  rw [next, length_append, length_singleton]

variable {reads : List Read}

/-- The pieces that are still to come follow the ones that are written. -/
theorem stagePieces_safe (few : pieces.length ≤ 2 ^ 32) (done rest : List Bytes)
    (all : pieces = done ++ rest) (toCome : readAll reads = .ok rest) :
    Safe (Anything hash start) (Anything hash start)
      (At (.importing hash) start fun folder =>
        Written pieces done.length folder ∧ folder.chunksDir)
      (stagePieces env hash (done.length % 2 ^ 32) reads)
      fun _ => At (.importing hash) start fun folder =>
        Written pieces pieces.length folder ∧ folder.chunksDir := by
  induction reads generalizing done rest with
  | nil =>
    cases toCome
    rw [append_nil] at all
    subst all
    exact Safe.pure fun _ present => present
  | cons read reads ih =>
    cases read with
    | error error => cases toCome
    | ok piece =>
      by_cases last : piece = []
      · simp only [readAll, if_pos last] at toCome
        cases toCome
        rw [append_nil] at all
        subst all
        simp only [stagePieces, if_pos last]
        exact Safe.pure fun _ present => present
      · simp only [readAll, if_neg last] at toCome
        cases later : readAll reads with
        | error error =>
          rw [later] at toCome
          cases toCome
        | ok others =>
          rw [later] at toCome
          cases toCome
          obtain ⟨here, index, following⟩ := next_piece few all
          simp only [stagePieces, if_neg last, index, following]
          apply Safe.bind _ _ fun _ => ih (done ++ [piece]) others (by simp [all]) later
          apply writeFile_safe
          · exact fun _ _ => trivial
          · exact fun _ _ _ => trivial
          · rintro folder ⟨written, dir⟩
            rw [length_append, length_singleton]
            exact ⟨written.put here, by rw [put_chunksDir]; exact dir⟩

variable {error : IoError}

/-- A source that cannot be read to its end is never published. -/
theorem stagePieces_unread (index : Nat) (unread : readAll reads = .error error) :
    Safe (Anything hash start) (Anything hash start) (At (.importing hash) start fun _ => True)
      (stagePieces env hash index reads) fun _ _ => False := by
  induction reads generalizing index with
  | nil => cases unread
  | cons read reads ih =>
    cases read with
    | error error => exact Safe.throw fun _ present => present.within fun _ _ => trivial
    | ok piece =>
      by_cases last : piece = []
      · simp [readAll, last] at unread
      · simp only [readAll, if_neg last] at unread
        cases later : readAll reads with
        | ok others =>
          rw [later] at unread
          cases unread
        | error other =>
          rw [later] at unread
          cases unread
          simp only [stagePieces, if_neg last]
          apply Safe.bind _ _ fun _ => ih (next index) later
          exact writeFile_safe (fun _ _ => trivial) (fun _ _ _ => trivial) fun _ _ => trivial

/-- The directory is ready to be published. -/
structure Staged (pieces : List Bytes) (folder : Folder) : Prop where
  written : Written pieces pieces.length folder
  top : folder.top = [.chunks, .metaJson, .complete]

variable {size : Nat}

theorem stage_safe (whole : readAll second = .ok pieces) (few : pieces.length ≤ 2 ^ 32)
    (stages : Stages env start hash pieces.length) :
    Safe (Anything hash start) (Anything hash start) (· = start)
      (stage env hash size second)
      fun _ => At (.importing hash) start (Staged pieces) := by
  apply Safe.bind _ (cleanStale_safe stages)
  intro _
  apply Safe.bind _ (createDir_safe (bounded_empty pieces.length) fun _ _ => trivial)
  intro _
  apply Safe.bind fun _ => At (.importing hash) start fun folder =>
    Written pieces 0 folder ∧ folder.chunksDir
  · exact createChunksDir_safe (fun _ _ => trivial)
      fun _ bounded => ⟨trivial, Bounded.written bounded, rfl⟩
  intro _
  apply Safe.bind _ (stagePieces_safe few [] pieces rfl whole)
  intro count
  apply Safe.bind fun _ => At (.importing hash) start fun folder =>
    Written pieces pieces.length folder ∧ folder.chunksDir ∧ folder.metaJson.isSome
  · apply writeFile_safe
    · exact fun _ _ => trivial
    · exact fun _ _ _ => trivial
    · rintro folder ⟨written, dir⟩
      exact ⟨written.put_other (fun _ => FileName.noConfusion) _, dir, rfl⟩
  intro _
  apply writeFile_safe
  · exact fun _ _ => trivial
  · exact fun _ _ _ => trivial
  · rintro folder ⟨written, dir, described⟩
    refine ⟨written.put_other (fun _ => FileName.noConfusion) _, ?_⟩
    simp [Folder.top, Folder.put, dir, described]

theorem stage_unread (unread : readAll second = .error error) :
    Safe (Anything hash start) (Anything hash start) (· = start)
      (stage env hash size second) fun _ _ => False := by
  have cleaned : Safe (Anything hash start) (Anything hash start) (· = start)
      (cleanStale env hash) fun _ => Anything hash start :=
    cleanStale_of true_removable (fun _ _ => trivial)
      (fun _ _ _ present => present.within fun _ _ => trivial) fun _ inside => inside
  apply Safe.bind _ cleaned
  intro _
  apply Safe.bind _ (createDir_safe trivial fun _ _ => trivial)
  intro _
  apply Safe.bind (fun _ => At (.importing hash) start fun _ => True)
    (createChunksDir_safe (fun _ _ => trivial) fun _ _ => ⟨trivial, trivial⟩)
  intro _
  apply Safe.bind _ (stagePieces_unread 0 unread)
  intro _ session impossible
  exact impossible.elim

end A3Net.Blobstore.Store
