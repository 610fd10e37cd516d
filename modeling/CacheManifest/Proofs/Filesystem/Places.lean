/-
# Nodes at places

A place is a list of names, and the node there is found by taking the names one
after the other. Taking a place apart therefore takes the search apart, and every
node that has something below it is a directory: no place passes through a link,
a file or a pipe.

Whether a place may be reached is a question of its own. `admits` asks each
directory on the way for leave to enter it.
-/

import CacheManifest.Proofs.Path.Below

namespace CacheManifest

namespace Node

@[simp]
theorem at?_nil (node : Node) : node.at? [] = some node := rfl

theorem at?_cons (node : Node) (name : Name) (rest : Location) :
    node.at? (name :: rest) = (node.child? name).bind fun next => next.at? rest := rfl

theorem at?_append (node : Node) (front rest : Location) :
    node.at? (front ++ rest) = (node.at? front).bind fun next => next.at? rest := by
  induction front generalizing node with
  | nil => rfl
  | cons name front ih =>
      rw [List.cons_append, at?_cons, at?_cons]
      cases node.child? name with
      | none => rfl
      | some next => exact ih next

theorem at?_concat (node : Node) (place : Location) (name : Name) :
    node.at? (place ++ [name]) = (node.at? place).bind fun next => next.child? name := by
  rw [at?_append]
  congr 1
  funext next
  rw [at?_cons]
  cases next.child? name <;> rfl

theorem child?_directory (permissions : Permissions) (names : List Name)
    (distinct : names.Nodup) (child : Name → Node) (name : Name) :
    (directory permissions names distinct child).child? name =
      if name ∈ names then some (child name) else none := rfl

/-- Only a directory has something below it. -/
theorem isDirectory_of_child? {node next : Node} {name : Name}
    (found : node.child? name = some next) : node.isDirectory = true := by
  cases node with
  | directory permissions names distinct child => rfl
  | file permissions content => cases found
  | link target => cases found
  | pipe => cases found

theorem exists_of_isDirectory {node : Node} (directory : node.isDirectory = true) :
    ∃ permissions names distinct child,
      node = .directory permissions names distinct child := by
  cases node with
  | directory permissions names distinct child => exact ⟨permissions, names, distinct, child, rfl⟩
  | file permissions content => cases directory
  | link target => cases directory
  | pipe => cases directory

/-- What lies on the way to a node is a directory. -/
theorem isDirectory_of_at?_append {node found : Node} {front rest : Location}
    (further : rest ≠ []) (there : node.at? (front ++ rest) = some found) :
    ∃ next, node.at? front = some next ∧ next.isDirectory = true := by
  obtain ⟨name, others, rfl⟩ := List.exists_cons_of_ne_nil further
  rw [at?_append] at there
  obtain ⟨next, reached, below⟩ := Option.bind_eq_some_iff.mp there
  obtain ⟨inner, entry, -⟩ := Option.bind_eq_some_iff.mp below
  exact ⟨next, reached, isDirectory_of_child? entry⟩

/-- Whether all names in a tree pass a test. -/
def everyName (test : Name → Bool) : Node → Bool
  | .directory _ names _ child =>
    names.all fun name => test name && (child name).everyName test
  | _ => true

theorem everyName_of_child? {test : Name → Bool} {node next : Node} {name : Name}
    (pass : node.everyName test = true) (entry : node.child? name = some next) :
    test name = true ∧ next.everyName test = true := by
  obtain ⟨permissions, names, distinct, child, rfl⟩ :=
    exists_of_isDirectory (isDirectory_of_child? entry)
  rw [everyName, List.all_eq_true] at pass
  rw [child?_directory] at entry
  split at entry
  · next listed =>
      cases entry
      simpa using pass name listed
  · cases entry

/-- Then those on the way to anything in it do. -/
theorem forall_of_everyName {test : Name → Bool} {node found : Node} {place : Location}
    (pass : node.everyName test = true) (there : node.at? place = some found) :
    ∀ name ∈ place, test name = true := by
  induction place generalizing node with
  | nil => simp
  | cons first rest ih =>
      obtain ⟨next, entry, below⟩ := Option.bind_eq_some_iff.mp there
      obtain ⟨here, onward⟩ := everyName_of_child? pass entry
      exact List.forall_mem_cons.mpr ⟨here, ih onward below⟩

/-- Whether every directory on the way to a place may be entered. -/
def admits : Node → Location → Bool
  | _, [] => true
  | .directory permissions _ _ child, name :: rest =>
    permissions.enter && (child name).admits rest
  | _, _ :: _ => false

@[simp]
theorem admits_nil (node : Node) : node.admits [] = true := by
  cases node <;> rfl

/-- One name further, the directory so far has to be entered as well. -/
theorem admits_concat {node : Node} {place : Location} {permissions : Permissions}
    {names : List Name} {distinct : names.Nodup} {child : Name → Node}
    (there : node.at? place = some (.directory permissions names distinct child)) (name : Name) :
    node.admits (place ++ [name]) = (node.admits place && permissions.enter) := by
  induction place generalizing node with
  | nil =>
      obtain rfl : node = .directory permissions names distinct child := by simpa using there
      simp [admits]
  | cons first rest ih =>
      obtain ⟨next, entry, below⟩ := Option.bind_eq_some_iff.mp there
      obtain ⟨outer, listed, unique, inner, rfl⟩ :=
        exists_of_isDirectory (isDirectory_of_child? entry)
      have same : inner first = next := by
        rw [child?_directory] at entry
        split at entry
        · exact Option.some.inj entry
        · cases entry
      subst same
      rw [List.cons_append, admits, admits, ih below, Bool.and_assoc]

end Node

end CacheManifest
