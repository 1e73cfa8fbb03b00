import A3Net.Machine.OrderedMap

namespace A3Net.Machine

open OrderedMap Option

inductive Tree (Name Leaf : Type) where
  | file (leaf : Leaf)
  | directory (children : List (Name × Tree Name Leaf))

namespace Tree

variable {Name Leaf : Type}

/-- The names of every directory increase. -/
inductive Ordered [LT Name] : Tree Name Leaf → Prop where
  | file (leaf : Leaf) : Ordered (.file leaf)
  | directory {children : List (Name × Tree Name Leaf)} (sorted : OrderedMap.Sorted children)
      (below : ∀ entry ∈ children, Ordered entry.2) : Ordered (.directory children)

/-- The kind of a node is its leaf, or nothing for a directory. -/
def kind : Tree Name Leaf → Option Leaf
  | .file leaf => some leaf
  | .directory _ => none

/-- No path of an entry has more than `depth` names. -/
def Within : Nat → Tree Name Leaf → Prop
  | _, .file _ => True
  | 0, .directory children => children = []
  | depth + 1, .directory children => ∀ entry ∈ children, entry.2.Within depth

instance Within.decidable : ∀ (depth : Nat) (tree : Tree Name Leaf), Decidable (tree.Within depth)
  | 0, .file _ | _ + 1, .file _ => .isTrue trivial
  | 0, .directory [] => .isTrue rfl
  | 0, .directory (_ :: _) => .isFalse nofun
  | depth + 1, .directory children =>
    have := @Within.decidable depth
    inferInstanceAs (Decidable (∀ entry ∈ children, entry.2.Within depth))

variable {found : Tree Name Leaf}

section Paths

variable [DecidableEq Name]

def lookup : Tree Name Leaf → List Name → Option (Tree Name Leaf)
  | tree, [] => some tree
  | .file _, _ :: _ => none
  | .directory children, name :: rest =>
    match OrderedMap.get name children with
    | none => none
    | some child => child.lookup rest

variable (tree : Tree Name Leaf) (children : List (Name × Tree Name Leaf)) (leaf : Leaf)
  (name : Name) (rest : List Name) (path : List Name)

def stat : Option (Option Leaf) :=
  (tree.lookup path).map kind

/-- The directory at a path gets other children. -/
def update (change : List (Name × Tree Name Leaf) → List (Name × Tree Name Leaf)) :
    Tree Name Leaf → List Name → Tree Name Leaf
  | .file leaf, _ => .file leaf
  | .directory children, [] => .directory (change children)
  | .directory children, name :: rest =>
    match OrderedMap.get name children with
    | none => .directory children
    | some child => .directory (OrderedMap.set name (child.update change rest) children)

def IsDirectory : Prop :=
  tree.stat path = some none

/-- Some part of the path, the path itself included, is a file. -/
def Blocked : Prop :=
  ∃ part leaf, part <+: path ∧ tree.stat part = some (some leaf)

@[simp] theorem lookup_nil : tree.lookup [] = some tree := by
  cases tree <;> rfl

@[simp] theorem lookup_file : (Tree.file leaf).lookup (name :: rest) = none := rfl

theorem lookup_cons :
    (Tree.directory children).lookup (name :: rest) = (get name children).bind (·.lookup rest) := by
  simp only [lookup]
  cases get name children <;> rfl

@[simp] theorem stat_file_nil : (Tree.file leaf : Tree Name Leaf).stat [] = some (some leaf) := rfl

@[simp] theorem stat_file_cons : (Tree.file leaf).stat (name :: rest) = none := rfl

@[simp] theorem stat_directory_nil : (Tree.directory children).stat [] = some none := rfl

theorem stat_cons :
    (Tree.directory children).stat (name :: rest) = (get name children).bind (·.stat rest) := by
  unfold stat
  rw [lookup_cons]
  cases get name children <;> rfl

theorem isDirectory_iff {path : List Name} :
    tree.IsDirectory path ↔ ∃ children, tree.lookup path = some (.directory children) := by
  unfold IsDirectory stat
  cases tree.lookup path with
  | none => simp
  | some found => cases found <;> simp [kind]

/-- A node is reached through directories. -/
theorem lookup_append (first second : List Name) :
    tree.lookup (first ++ second) = (tree.lookup first).bind (·.lookup second) := by
  induction first generalizing tree with
  | nil => simp
  | cons name rest ih =>
    cases tree with
    | file leaf => rfl
    | directory children =>
      rw [List.cons_append, lookup_cons, lookup_cons, bind_assoc]
      congr 1
      funext child
      exact ih child

variable {children tree} {path : List Name}

/-- The last name of a path that exists is a child of the directory before it. -/
theorem lookup_snoc {name : Name} (there : tree.lookup (path ++ [name]) = some found) :
    ∃ children, tree.lookup path = some (.directory children) ∧ get name children = some found := by
  rw [lookup_append] at there
  obtain ⟨parent, reached, last⟩ := bind_eq_some_iff.mp there
  cases parent with
  | file leaf => cases last
  | directory children =>
    refine ⟨children, reached, ?_⟩
    rw [lookup_cons] at last
    obtain ⟨child, got, same⟩ := bind_eq_some_iff.mp last
    rw [lookup_nil] at same
    rw [got, same]

theorem lookup_child (reached : tree.lookup path = some (.directory children)) (name : Name) :
    tree.lookup (path ++ [name]) = get name children := by
  rw [lookup_append, reached, bind_some, lookup_cons]
  cases get name children <;> simp

theorem stat_of_isPrefix {first second : List Name} (before : first <+: second)
    (there : (tree.stat second).isSome) : (tree.stat first).isSome := by
  obtain ⟨rest, rfl⟩ := before
  rw [stat, isSome_map, lookup_append] at there
  rw [stat, isSome_map]
  cases found : tree.lookup first with
  | none => simp [found] at there
  | some node => rfl

variable {change : List (Name × Tree Name Leaf) → List (Name × Tree Name Leaf)}

/-- The same children again change nothing. -/
theorem update_eq_self (found : tree.lookup path = some (.directory children))
    (same : change children = children) : tree.update change path = tree := by
  induction path generalizing tree with
  | nil =>
    cases found
    simp only [update, same]
  | cons name rest ih =>
    cases tree with
    | file leaf => rfl
    | directory entries =>
      rw [lookup_cons] at found
      obtain ⟨child, got, below⟩ := bind_eq_some_iff.mp found
      simp only [update, got]
      rw [ih below, set_get got]

theorem lookup_update_self (change : List (Name × Tree Name Leaf) → List (Name × Tree Name Leaf))
    (found : tree.lookup path = some (.directory children)) :
    (tree.update change path).lookup path = some (.directory (change children)) := by
  induction path generalizing tree with
  | nil =>
    cases found
    rfl
  | cons name rest ih =>
    cases tree with
    | file leaf => cases found
    | directory entries =>
      rw [lookup_cons] at found
      obtain ⟨child, got, below⟩ := bind_eq_some_iff.mp found
      simp only [update, got, lookup_cons, get_set, if_pos, map_some, bind_some]
      exact ih below

/-- A path with a name below it is a directory. -/
theorem not_file_of_snoc {part rest : List Name} {name : Name} {leaf : Leaf}
    (there : (tree.stat (part ++ rest ++ [name])).isSome) : tree.stat part ≠ some (some leaf) := by
  intro file
  rw [stat, isSome_map, List.append_assoc, lookup_append] at there
  obtain ⟨node, reached, kindOf⟩ := map_eq_some_iff.mp file
  cases node with
  | directory children => cases kindOf
  | file leaf =>
    rw [reached] at there
    cases rest <;> simp at there

variable (tree : Tree Name Leaf)

/-- When one child of a directory becomes another value, the paths through it lead into that value
and every other path is as it was. -/
theorem stat_update {parent other : List Name} {name : Name}
    {value : Option (Tree Name Leaf)} (changes : ∀ children other,
      get other (change children) = if other = name then value else get other children)
    (room : value = none ∨ tree.IsDirectory parent) :
    (tree.update change parent).stat other =
      if parent ++ [name] <+: other then value.bind (·.stat (other.drop (parent.length + 1)))
      else tree.stat other := by
  induction parent generalizing tree other with
  | nil =>
    cases tree with
    | file leaf =>
      obtain rfl := room.resolve_right (by simp [IsDirectory])
      cases other <;> simp [update]
    | directory children =>
      cases other with
      | nil => simp [update]
      | cons first rest =>
        simp only [update, stat_cons, changes]
        by_cases same : first = name
        · simp [same]
        · simp [same, Ne.symm same]
  | cons head parent ih =>
    cases tree with
    | file leaf =>
      obtain rfl := room.resolve_right (by simp [IsDirectory])
      cases other <;> simp [update]
    | directory children =>
      rw [IsDirectory, stat_cons] at room
      cases other with
      | nil => cases got : get head children <;> simp [update, got]
      | cons first rest =>
        cases got : get head children with
        | none =>
          obtain rfl := room.resolve_right (by simp [got])
          simp only [update, got]
          by_cases same : head = first
          · subst same
            simp [stat_cons, got]
          · simp [same]
        | some child =>
          rw [got] at room
          simp only [update, got, stat_cons, get_set]
          by_cases same : head = first
          · subst same
            simp [got, ih child room]
          · simp [same, Ne.symm same]

/-- Without the child, the paths through it are gone. -/
theorem stat_update_remove {parent other : List Name} {name : Name} :
    (tree.update (remove name) parent).stat other =
      if parent ++ [name] <+: other then none else tree.stat other :=
  stat_update tree (fun children other => get_remove name other children) (.inl rfl)

end Paths

variable [LinearOrder Name] {child : Tree Name Leaf} {children : List (Name × Tree Name Leaf)}

section

variable (ordered : (Tree.directory children).Ordered)
include ordered

theorem Ordered.get {name : Name} (got : get name children = some child) : child.Ordered := by
  cases ordered with
  | directory sorted below => exact below _ (get_mem got)

variable (name : Name)

theorem Ordered.set (childOrdered : child.Ordered) :
    (Tree.directory (set name child children)).Ordered := by
  cases ordered with
  | directory sorted below =>
    apply Ordered.directory (sorted.set name child)
    intro entry member
    rcases mem_set member with member | same
    · exact below entry member
    · rw [same]
      exact childOrdered

theorem Ordered.insert (childOrdered : child.Ordered) :
    (Tree.directory (insert name child children)).Ordered := by
  cases ordered with
  | directory sorted below =>
    apply Ordered.directory (sorted.insert name child)
    intro entry member
    rcases mem_insert member with member | rfl
    · exact below entry member
    · exact childOrdered

theorem Ordered.remove : (Tree.directory (remove name children)).Ordered := by
  cases ordered with
  | directory sorted below =>
    apply Ordered.directory (sorted.remove name)
    intro entry member
    exact below entry (List.mem_of_mem_filter member)

end

theorem Ordered.empty : (Tree.directory [] : Tree Name Leaf).Ordered :=
  .directory List.Pairwise.nil (List.forall_mem_nil _)

theorem Ordered.lookup {tree : Tree Name Leaf} {path : List Name} (ordered : tree.Ordered)
    (there : tree.lookup path = some found) : found.Ordered := by
  induction path generalizing tree with
  | nil =>
    cases there
    exact ordered
  | cons name rest ih =>
    cases tree with
    | file leaf => cases there
    | directory children =>
      rw [lookup_cons] at there
      obtain ⟨child, got, below⟩ := bind_eq_some_iff.mp there
      exact ih (ordered.get got) below

end Tree
end A3Net.Machine
