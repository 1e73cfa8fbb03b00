/-
This file says what the file-system steps of the blob store do to one directory, whatever happens
to the step, and that they leave every other directory alone.
-/

import A3Net.Construction.Blobstore.Store

namespace A3Net.Blobstore.Store

open Cryptography Machine Program OrderedMap Function

variable (place : Place)

/-- Every other directory is as it was. -/
def Beside (start disk : Disk) : Prop :=
  ∀ other, other ≠ place → disk other = start other

/-- The directory is there with the property, and every other one is as it was. -/
def At (start : Disk) (property : Folder → Prop) (disk : Disk) : Prop :=
  Beside place start disk ∧ ∃ folder, disk place = some folder ∧ property folder

/-- The directory has the property if it is there, and every other one is as it was. -/
def Within (start : Disk) (property : Folder → Prop) (disk : Disk) : Prop :=
  Beside place start disk ∧ ∀ folder, disk place = some folder → property folder

/-- The directory keeps the property, also when the program stops or fails. -/
abbrev SafeWithin {Result : Type} (start : Disk) (property : Folder → Prop) (pre : Disk → Prop)
    (program : Program Disk IoError Result) (post : Result → Disk → Prop) : Prop :=
  Safe (Within place start property) (Within place start property) pre program post

variable {place} {start disk : Disk} {property other : Folder → Prop}

theorem Beside.update (beside : Beside place start disk) (folder : Option Folder) :
    Beside place start (update disk place folder) := by
  intro other ne
  rw [update_of_ne ne]
  exact beside other ne

section

variable (present : At place start property disk)
  (implies : ∀ folder, property folder → other folder)
include present implies

theorem At.within : Within place start other disk := by
  obtain ⟨beside, folder, found, holds⟩ := present
  refine ⟨beside, ?_⟩
  intro folder' found'
  rw [found] at found'
  cases found'
  exact implies folder holds

theorem At.imp : At place start other disk := by
  obtain ⟨beside, folder, found, holds⟩ := present
  exact ⟨beside, folder, found, implies folder holds⟩

end

theorem Within.imp (inside : Within place start property disk)
    (implies : ∀ folder, property folder → other folder) : Within place start other disk :=
  ⟨inside.1, fun folder found => implies folder (inside.2 folder found)⟩

section

variable (beside : Beside place start disk)
include beside

variable {folder : Folder}

theorem Beside.at_update (holds : property folder) :
    At place start property (Function.update disk place (some folder)) :=
  ⟨beside.update (some folder), folder, update_self place (some folder) disk, holds⟩

theorem Beside.within_update (holds : property folder) :
    Within place start property (Function.update disk place (some folder)) :=
  (beside.at_update holds).within fun _ holds => holds

/-- An absent directory has every property. -/
theorem Beside.within_of_absent (absent : disk place = none) :
    Within place start property disk := by
  refine ⟨beside, ?_⟩
  intro folder found
  rw [absent] at found
  cases found

theorem Beside.within_none :
    Within place start property (Function.update disk place none) :=
  (beside.update none).within_of_absent (update_self place none disk)

end

variable (folder : Folder) (name : FileName)

theorem put_put (first second : Bytes) : (folder.put name first).put name second =
    folder.put name second := by
  cases name with
  | chunk index => exact Folder.ext rfl (insert_insert ..) rfl rfl rfl
  | sha index => exact Folder.ext rfl rfl (insert_insert ..) rfl rfl
  | metaJson | complete => rfl

@[simp] theorem put_chunksDir (bytes : Bytes) :
    (folder.put name bytes).chunksDir = folder.chunksDir := by
  cases name <;> rfl

theorem put_complete (ne : name ≠ .complete) (bytes : Bytes) :
    (folder.put name bytes).complete = folder.complete := by
  cases name with
  | complete => exact absurd rfl ne
  | chunk | sha | metaJson => rfl

theorem put_get_chunk (index : Nat) (bytes : Bytes) :
    get index (folder.put name bytes).chunks =
      if name = .chunk index then some bytes else get index folder.chunks := by
  cases name with
  | chunk other =>
    show get index (insert other bytes folder.chunks) = _
    rw [get_insert]
    by_cases same : index = other
    · simp [same]
    · simp [same, Ne.symm same]
  | sha | metaJson | complete => simp [Folder.put]

variable {fine before after : Folder → Prop}

/-- A look at the directory finds it with the property. -/
theorem look_at {Result : Type} {crash fail : Disk → Prop} {post : Result → Disk → Prop}
    {next : Option Folder → StoreProgram Result}
    (nextSafe : ∀ folder, before folder → Safe crash fail
      (fun disk => At place start before disk ∧ disk place = some folder) (next (some folder))
      post) : Safe crash fail (At place start before) (look (· place) >>= next) post := by
  intro session present
  have ⟨_, folder, found, holds⟩ := present
  exact Safe.look_known (fun _ held => held.2) (nextSafe folder holds) session ⟨present, found⟩

variable {fault : Option (StepFault IoError)} {whole : Folder → Folder}

/-- A step on the directory, seen at the directory. -/
theorem inFolder_safe {allowed : Folder → Bool} {broken : Nat → Folder → Folder}
    (keeps : ∀ folder, before folder → fine folder)
    (does : ∀ folder, before folder → fine (whole folder) ∧ after (whole folder))
    (breaks : ∀ folder, before folder → ∀ written, fine (broken written folder)) :
    SafeWithin place start fine (At place start before)
      (inFolder place allowed fault whole broken) fun _ => At place start after := by
  apply look_at
  intro folder holds
  dsimp only
  split
  · obtain ⟨safe, gives⟩ := does folder holds
    apply Safe.step
    · rintro disk ⟨⟨beside, _⟩, _⟩
      exact ⟨beside.within_update safe, beside.at_update gives⟩
    · rintro disk ⟨⟨beside, _⟩, _⟩ stopped _
      have safe := breaks folder holds stopped.written
      exact ⟨beside.within_update safe, beside.within_update safe⟩
  · exact Safe.throw fun _ held => held.1.within keeps

variable {env : Surroundings} {phase : Phase}

theorem writeFile_safe {name : FileName} {bytes : Bytes}
    (keeps : ∀ folder, before folder → fine folder)
    (writes : ∀ folder, before folder → ∀ bytes, fine (folder.put name bytes))
    (gives : ∀ folder, before folder → after (folder.put name bytes)) :
    SafeWithin place start fine (At place start before)
      (writeFile env phase place name bytes) fun _ => At place start after := by
  -- Between its two steps the file is there and empty.
  apply Safe.bind fun _ => At place start fun folder => ∃ old, before old ∧ folder = old.put name []
  · apply inFolder_safe keeps
    · intro folder holds
      exact ⟨writes folder holds [], folder, holds, rfl⟩
    · intro folder holds _
      exact keeps folder holds
  · intro _
    apply inFolder_safe
    · rintro _ ⟨old, holds, rfl⟩
      exact writes old holds []
    · rintro _ ⟨old, holds, rfl⟩
      rw [put_put]
      exact ⟨writes old holds bytes, gives old holds⟩
    · rintro _ ⟨old, holds, rfl⟩ written
      rw [put_put]
      exact writes old holds _

theorem createDir_safe (empty : before .empty) (keeps : ∀ folder, before folder → fine folder) :
    SafeWithin place start fine (Within place start before)
      (createDir env phase place) fun _ => At place start before := by
  apply Safe.step
  · intro disk inside
    have result : before ((disk place).getD .empty) := by
      cases found : disk place with
      | none => exact empty
      | some folder => exact inside.2 folder found
    exact ⟨inside.1.within_update (keeps _ result), inside.1.at_update result⟩
  · intro disk inside stopped _
    exact ⟨inside.imp keeps, inside.imp keeps⟩

theorem createChunksDir_safe (keeps : ∀ folder, before folder → fine folder)
    (does : ∀ folder, before folder → fine {folder with chunksDir := true} ∧
      after {folder with chunksDir := true}) :
    SafeWithin place start fine (At place start before)
      (createChunksDir env phase place) fun _ => At place start after :=
  inFolder_safe keeps does fun folder holds _ => keeps folder holds

/-- A property that no removal breaks. -/
def Removable (property : Folder → Prop) : Prop :=
  ∀ folder, property folder →
    (∀ name, property (folder.erase name)) ∧ property {folder with chunksDir := false}

variable {names : List TopName}

section Removal

variable {fail : Disk → Prop}

/-- A step of a removal fails only by a fault. -/
theorem removalStep_safe (keeps : ∀ folder, before folder → before (whole folder))
    (fails : fault.isSome → ∀ disk, At place start before disk → fail disk) :
    Safe (Within place start before) fail (At place start before)
      (inFolder place (fun _ => true) fault whole fun _ folder => folder)
      fun _ => At place start before := by
  apply look_at
  intro folder holds
  dsimp only
  rw [if_pos rfl]
  apply Safe.step
  · rintro disk ⟨⟨beside, _⟩, _⟩
    exact ⟨beside.within_update (keeps folder holds), beside.at_update (keeps folder holds)⟩
  · rintro disk ⟨⟨beside, _⟩, _⟩ stopped faulty
    refine ⟨beside.within_update holds, fails ?_ _ (beside.at_update holds)⟩
    rw [faulty]
    rfl

variable (removable : Removable before)
  (fails : ∀ number, (env.faults phase number).isSome →
    ∀ disk, At place start before disk → fail disk)

include removable fails

theorem deleteFile_safe {name : FileName} :
    Safe (Within place start before) fail (At place start before)
      (deleteFile env phase place name) fun _ => At place start before :=
  removalStep_safe (fun folder holds => (removable folder holds).1 name) (fails name.number)

theorem deleteFiles_safe (names : List FileName) :
    Safe (Within place start before) fail (At place start before)
      (deleteFiles env phase place names) fun _ => At place start before := by
  induction names with
  | nil => exact Safe.pure fun _ present => present
  | cons name rest ih =>
    exact Safe.bind _ (deleteFile_safe removable fails) fun _ => ih

theorem removeTop_safe {name : TopName} :
    Safe (Within place start before) fail (At place start before)
      (removeTop env phase place name) fun _ => At place start before := by
  cases name with
  | metaJson => exact deleteFile_safe removable fails
  | complete => exact deleteFile_safe removable fails
  | chunks =>
    apply look_at
    intro folder _
    apply Safe.from_pre _ fun disk held => held.1
    apply Safe.bind _ (deleteFiles_safe removable fails _)
    intro _
    exact removalStep_safe (fun folder holds => (removable folder holds).2) (fails 1)

theorem removeTops_safe :
    Safe (Within place start before) fail (At place start before)
      (removeTops env phase place names) fun _ => At place start before := by
  induction names with
  | nil => exact Safe.pure fun _ present => present
  | cons name rest ih => exact Safe.bind _ (removeTop_safe removable fails) fun _ => ih

/-- The directory is gone at the end. -/
theorem removeDirAll_safe :
    Safe (Within place start before) fail (At place start before)
      (removeDirAll env phase place)
      fun _ disk => Beside place start disk ∧ disk place = none := by
  apply look_at
  intro folder _
  apply Safe.from_pre _ fun disk held => held.1
  apply Safe.bind _ (removeTops_safe removable fails)
  intro _
  apply Safe.step
  · rintro disk ⟨beside, _⟩
    exact ⟨beside.within_none, beside.update none, update_self place none disk⟩
  · intro disk present stopped faulty
    refine ⟨present.within fun _ holds => holds, fails 2 ?_ disk present⟩
    rw [faulty]
    rfl

end Removal

theorem removeDirAll_keeps (removable : Removable before) :
    SafeWithin place start before (At place start before) (removeDirAll env phase place)
      fun _ disk => Beside place start disk ∧ disk place = none :=
  removeDirAll_safe removable fun _ _ _ present => present.within fun _ holds => holds

end A3Net.Blobstore.Store
