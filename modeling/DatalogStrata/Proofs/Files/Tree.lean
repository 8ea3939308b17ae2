import DatalogStrata.Files.Tree
import Mathlib.Data.List.Basic

/-!
# Files in a tree

Where a path leads depends on the working directory, on the directories on its way, and on nothing
else. So as long as only files are put into a tree, and none in the place of a directory, a path
leads where it led before.

## Main definitions

* `FileTree.Leads` — a path leads to a place for a file
* `FileTree.ChangedAt` — two trees differ at one place at most, and no directory stands there
* `FileTree.Spares` — two trees do not differ at a place, nor in where paths lead

## Main results

* `FileTree.Leads.place_eq` — where a path leads can be told from the path
* `FileTree.Leads.changedAt` — it leads there still after a change at a file
* `FileTree.create_eq_ok` — what it takes to create a file, and what it does
* `FileTree.node?_writeAt` — bytes written at the end of a file
-/

namespace DatalogStrata

/-- Entries that are left out do not matter to who looks for another key. -/
theorem find?_filter_key {α β : Type} [DecidableEq α] (entries : List (α × β)) {key other : α}
    (different : other ≠ key) :
    ((entries.filter fun entry => entry.1 ≠ key).find? fun entry => entry.1 = other) =
      entries.find? fun entry => entry.1 = other := by
  rw [List.find?_filter]
  congr 1
  funext entry
  by_cases here : entry.1 = other <;> simp [here, different]

namespace FileTree

variable {tree other : FileTree} {path : String} {file : List String}

/-! ## Nodes -/

theorem node?_put_of_ne {place : List String} (node : FileNode) (elsewhere : place ≠ file) :
    (tree.put file node).node? place = tree.node? place := by
  unfold node?
  split
  · rfl
  · rw [put, List.find?_cons_of_neg (by simpa using elsewhere.symm),
      find?_filter_key _ elsewhere]

theorem node?_put_self (node : FileNode) (named : file ≠ []) :
    (tree.put file node).node? file = some node := by
  simp [node?, put, named]

/-- Two trees differ at one place at most, and no directory stands there. -/
structure ChangedAt (tree other : FileTree) (file : List String) : Prop where
  working_eq : other.working = tree.working
  elsewhere : ∀ place, place ≠ file → other.node? place = tree.node? place
  noDirectory : tree.node? file ≠ some .directory

theorem changedAt_refl (noDirectory : tree.node? file ≠ some .directory) :
    tree.ChangedAt tree file :=
  ⟨rfl, fun _ _ => rfl, noDirectory⟩

theorem changedAt_put (node : FileNode) (noDirectory : tree.node? file ≠ some .directory) :
    tree.ChangedAt (tree.put file node) file :=
  ⟨rfl, fun _ elsewhere => node?_put_of_ne node elsewhere, noDirectory⟩

theorem ChangedAt.trans {last : FileTree} (first : tree.ChangedAt other file)
    (second : other.ChangedAt last file) : tree.ChangedAt last file :=
  ⟨second.working_eq.trans first.working_eq,
    fun place apart => (second.elsewhere place apart).trans (first.elsewhere place apart),
    first.noDirectory⟩

/-- Directories stay where they are. -/
theorem ChangedAt.directory (changed : tree.ChangedAt other file) {place : List String}
    (directory : tree.node? place = some .directory) : other.node? place = some .directory := by
  rw [changed.elsewhere place, directory]
  rintro rfl
  exact changed.noDirectory directory

/-! ## Where paths lead -/

/-- A path leads to a place for a file. -/
def Leads (tree : FileTree) (path : String) (file : List String) : Prop :=
  ∃ directory name, tree.locate path = .ok (.entry directory name false) ∧
    ¬ nameLimit < name.utf8ByteSize ∧ file = directory ++ [name]

theorem Leads.ne_nil (leads : tree.Leads path file) : file ≠ [] := by
  obtain ⟨directory, name, -, -, rfl⟩ := leads
  simp

theorem enter_cons_eq_ok_iff {name : String} {names directory reached : List String} :
    tree.enter directory (name :: names) = .ok reached ↔
      if name = ".." then tree.enter directory.dropLast names = .ok reached
      else ¬ nameLimit < name.utf8ByteSize ∧
        tree.node? (directory ++ [name]) = some .directory ∧
          tree.enter (directory ++ [name]) names = .ok reached := by
  split
  case isTrue upwards => rw [upwards, enter]
  case isFalse named =>
    rw [enter, entry?]
    case x_2 => exact named
    by_cases long : nameLimit < name.utf8ByteSize
    · simp [long, bind, Except.bind]
    · rcases there : tree.node? (directory ++ [name]) with _ | _ | _ <;>
        simp [long, bind, Except.bind]

/-- Directories that are entered one after another make up a place. -/
theorem enter_eq_ok {names : List String} : ∀ {directory reached : List String},
    tree.enter directory names = .ok reached → names.foldl Path.step directory = reached := by
  induction names with
  | nil =>
    intro directory reached entered
    exact Except.ok.inj entered
  | cons name names ih =>
    intro directory reached entered
    rw [enter_cons_eq_ok_iff] at entered
    rw [List.foldl_cons, Path.step]
    split at entered
    case isTrue upwards => rw [if_pos upwards, ih entered]
    case isFalse named => rw [if_neg named, ih entered.2.2]

/-- What is entered stays where it is. -/
theorem ChangedAt.enter_eq_ok (changed : tree.ChangedAt other file) {names : List String} :
    ∀ {directory reached : List String},
      tree.enter directory names = .ok reached → other.enter directory names = .ok reached := by
  induction names with
  | nil => exact id
  | cons name names ih =>
    intro directory reached entered
    rw [enter_cons_eq_ok_iff] at entered ⊢
    split at entered
    case isTrue upwards =>
      rw [if_pos upwards]
      exact ih entered
    case isFalse named =>
      rw [if_neg named]
      exact ⟨entered.1, changed.directory entered.2.1, ih entered.2.2⟩

theorem locate_eq_entry_iff {directory : List String} {name : String} {mustBeDirectory : Bool} :
    tree.locate path = .ok (.entry directory name mustBeDirectory) ↔
      checkPath path = .ok () ∧ Path.lastNamed? path = some name ∧
        tree.enter [] (Path.fromRoot tree.working path).dropLast = .ok directory ∧
        Path.endsInSlash path = mustBeDirectory := by
  rw [locate]
  rcases checkPath path with cause | _
  · simp [bind, Except.bind]
  · cases Path.lastNamed? path with
    | none =>
      cases entered : tree.enter [] (Path.fromRoot tree.working path) <;>
        simp [entered, bind, Except.bind, pure, Except.pure]
    | some last =>
      cases entered : tree.enter [] (Path.fromRoot tree.working path).dropLast <;>
        simp [entered, bind, Except.bind, pure, Except.pure]
      exact and_left_comm

/-- A path leads where it led before, as long as directories stay where they are. -/
theorem Leads.changedAt {place : List String} (leads : tree.Leads path file)
    (changed : tree.ChangedAt other place) : other.Leads path file := by
  obtain ⟨directory, name, located, short, rfl⟩ := leads
  obtain ⟨checked, last, entered, ends⟩ := locate_eq_entry_iff.mp located
  have same := changed.enter_eq_ok entered
  rw [← changed.working_eq] at same
  exact ⟨directory, name, locate_eq_entry_iff.mpr ⟨checked, last, same, ends⟩, short, rfl⟩

/-- What stands at a place does not change, and paths lead where they led before. -/
structure Spares (tree other : FileTree) (place : List String) : Prop where
  node?_eq : other.node? place = tree.node? place
  leads : ∀ {path file}, tree.Leads path file → other.Leads path file

theorem spares_refl (tree : FileTree) (place : List String) : tree.Spares tree place :=
  ⟨rfl, id⟩

theorem ChangedAt.spares (changed : tree.ChangedAt other file) {place : List String}
    (elsewhere : place ≠ file) : tree.Spares other place :=
  ⟨changed.elsewhere place elsewhere, fun leads => leads.changedAt changed⟩

/-- The last part of a path that ends in a name is the name. -/
theorem parts_eq_of_lastNamed {name : String} (last : Path.lastNamed? path = some name) :
    name ≠ ".." ∧ ∃ before, Path.parts path = before ++ [name] := by
  obtain ⟨ends, named⟩ := Option.filter_eq_some_iff.mp last
  obtain ⟨noDot, noDots⟩ : name ≠ "." ∧ name ≠ ".." := by simpa using named
  obtain ⟨front, pieces⟩ := List.getLast?_eq_some_iff.mp ends
  exact ⟨noDots, front.filter (· ≠ "."), by simp [Path.parts, pieces, noDot]⟩

/-- Seen from the root a path has the same last part. -/
theorem fromRoot_eq_of_lastNamed {name : String} (last : Path.lastNamed? path = some name)
    (working : List String) :
    Path.fromRoot working path = (Path.fromRoot working path).dropLast ++ [name] := by
  obtain ⟨-, before, parts⟩ := parts_eq_of_lastNamed last
  have ends : ∃ front, Path.fromRoot working path = front ++ [name] := by
    rw [Path.fromRoot, parts]
    split
    · exact ⟨before, rfl⟩
    · exact ⟨working ++ before, (List.append_assoc ..).symm⟩
  obtain ⟨front, whole⟩ := ends
  rw [whole, List.dropLast_concat]

/-- Where a path leads can be told from the path and the working directory. -/
theorem Leads.place_eq (leads : tree.Leads path file) : Path.place tree.working path = file := by
  obtain ⟨directory, name, located, -, rfl⟩ := leads
  obtain ⟨-, last, entered, -⟩ := locate_eq_entry_iff.mp located
  -- The parts before the last one have been entered, and the last one is no step upwards.
  have named := (parts_eq_of_lastNamed last).1
  rw [Path.place, fromRoot_eq_of_lastNamed last, List.foldl_append, enter_eq_ok entered]
  simp [Path.step, named]

/-- What stands where a path leads is what is read. -/
theorem Leads.readBytes (leads : tree.Leads path file) {bytes : List UInt8}
    (there : tree.node? file = some (.file bytes)) : tree.readBytes path = .ok bytes := by
  obtain ⟨directory, name, located, short, rfl⟩ := leads
  simp [FileTree.readBytes, located, entry?, short, there, bind, Except.bind, pure, Except.pure]

/-- A file is created where its path leads, unless a directory stands there. -/
theorem create_eq_ok (created : tree.create path = .ok (file, other)) :
    tree.Leads path file ∧ tree.node? file ≠ some .directory ∧
      other = tree.put file (.file []) := by
  rw [create] at created
  rcases located : tree.locate path with cause | directory | ⟨directory, name, mustBeDirectory⟩
  · simp [located, bind, Except.bind] at created
  · simp [located, bind, Except.bind] at created
  · cases mustBeDirectory with
    | true => simp [located, bind, Except.bind] at created
    | false =>
      by_cases long : nameLimit < name.utf8ByteSize
      · simp [located, entry?, long, bind, Except.bind] at created
      · -- With a directory there nothing is created; a file and a free place come to the same.
        rcases there : tree.node? (directory ++ [name]) with _ | _ | _
        all_goals
          simp [located, entry?, long, there, bind, Except.bind, pure, Except.pure] at created
        all_goals
          obtain ⟨rfl, rfl⟩ := created
          exact ⟨⟨directory, name, located, long, rfl⟩, by simp [there], rfl⟩

/-! ## Writing into a file -/

theorem changedAt_writeAt (position : Nat) (bytes : List UInt8)
    (noDirectory : tree.node? file ≠ some .directory) :
    tree.ChangedAt (tree.writeAt file position bytes) file := by
  unfold writeAt
  split
  · exact changedAt_refl noDirectory
  · split <;> exact changedAt_put _ noDirectory

/-- Bytes that are written at the end of a file are added to it. -/
theorem node?_writeAt {stored : List UInt8} (named : file ≠ [])
    (there : tree.node? file = some (.file stored)) (bytes : List UInt8) :
    (tree.writeAt file stored.length bytes).node? file = some (.file (stored ++ bytes)) := by
  unfold writeAt
  split
  case isTrue nothing => simp [there, nothing]
  case isFalse => simp [there, node?_put_self _ named, splice]

end FileTree

end DatalogStrata
