import Mathlib.Logic.Function.Basic

namespace A3Net.Machine

open Function

/-- The directory has a target and a temporary name. Files have numbers, and a writer that opened a
file still writes to it when its name has gone. -/
structure Replacement (Symbol : Type) where
  contents : Nat → List Symbol
  created : Nat
  target : Option Nat
  temporary : Option Nat
  target_lt : ∀ file, target = some file → file < created
  temporary_lt : ∀ file, temporary = some file → file < created
  distinct : ∀ file, target = some file → temporary ≠ some file

namespace Replacement

variable {Symbol : Type}

/-- The directory has neither file. -/
def empty : Replacement Symbol where
  contents _ := []
  created := 0
  target := none
  temporary := none
  target_lt _ found := by cases found
  temporary_lt _ found := by cases found
  distinct _ found := by cases found

variable (files : Replacement Symbol)

def read : Option (List Symbol) := files.target.map files.contents

/-- The temporary file is created or emptied. -/
def openTemporary : Replacement Symbol × Nat :=
  match files.temporary with
  | some file => ({files with contents := update files.contents file []}, file)
  | none =>
    ({ contents := update files.contents files.created []
       created := files.created + 1
       target := files.target
       temporary := some files.created
       target_lt := fun file found => Nat.lt_succ_of_lt (files.target_lt file found)
       temporary_lt := fun _ found => Option.some.inj found ▸ Nat.lt_succ_self _
       distinct := fun _ found same =>
         Nat.lt_irrefl _ (Option.some.inj same ▸ files.target_lt _ found) }, files.created)

/-- A write starts at the beginning of the file and leaves what lies beyond it. -/
def write (file : Nat) (symbols : List Symbol) : Replacement Symbol :=
  {files with contents :=
    Function.update files.contents file (symbols ++ (files.contents file).drop symbols.length)}

/-- A missing temporary file cannot be renamed. -/
def rename : Option (Replacement Symbol) :=
  match found : files.temporary with
  | some file => some
      { contents := files.contents
        created := files.created
        target := some file
        temporary := none
        target_lt := fun _ same => Option.some.inj same ▸ files.temporary_lt file found
        temporary_lt := fun _ none => by cases none
        distinct := fun _ _ none => by cases none }
  | none => none

/-- A change of another file does not reach the target. -/
theorem read_update {target : Option Nat} {file : Nat}
    (ne : ∀ old, target = some old → old ≠ file) (contents : Nat → List Symbol)
    (symbols : List Symbol) :
    target.map (update contents file symbols) = target.map contents := by
  cases target with
  | none => rfl
  | some old => exact congrArg some (update_of_ne (ne old rfl) ..)

theorem openTemporary_spec :
    files.openTemporary.1.temporary = some files.openTemporary.2 ∧
      files.openTemporary.1.contents files.openTemporary.2 = [] ∧
      files.openTemporary.1.read = files.read := by
  unfold openTemporary
  split
  · next file found =>
    refine ⟨found, update_self .., read_update (fun old target same => ?_) ..⟩
    exact files.distinct old target (same ▸ found)
  · refine ⟨rfl, update_self .., read_update (fun old target => ?_) ..⟩
    exact Nat.ne_of_lt (files.target_lt old target)

variable {files} {file : Nat}

/-- A write to the temporary file does not reach the target. -/
theorem read_write (temporary : files.temporary = some file) (symbols : List Symbol) :
    (files.write file symbols).read = files.read :=
  read_update (fun old target same => files.distinct old target (same ▸ temporary)) ..

theorem contents_write (empty : files.contents file = []) (symbols : List Symbol) :
    (files.write file symbols).contents file = symbols := by
  simp [write, empty]

theorem rename_spec (temporary : files.temporary = some file) :
    ∃ renamed, files.rename = some renamed ∧ renamed.read = some (files.contents file) := by
  unfold rename
  split
  · next found same =>
    obtain rfl := Option.some.inj (same.symm.trans temporary)
    exact ⟨_, rfl, rfl⟩
  · next missing => cases missing.symm.trans temporary

end Replacement
end A3Net.Machine
