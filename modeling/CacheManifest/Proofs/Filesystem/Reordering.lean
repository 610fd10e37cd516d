/-
# Directories that list their names in another order

A directory has its names in no order of its own, and a system may answer with them
in any. Two trees are the same but for that if their directories have the same names
and, under each name, the same entries. What stands at a place is then the same but
for that as well, so a path leads to the same place in both trees or is refused for
the same cause.
-/

import CacheManifest.Proofs.Filesystem.Places

namespace CacheManifest

namespace Node

/-- Two trees are the same but for the order in which directories list their names. -/
inductive Reordered : Node → Node → Prop where
  | file (permissions : Permissions) (content : Bytes) :
    Reordered (.file permissions content) (.file permissions content)
  | link (target : Path) : Reordered (.link target) (.link target)
  | pipe : Reordered .pipe .pipe
  | directory (permissions : Permissions) {names others : List Name} (distinct : names.Nodup)
    (unique : others.Nodup) {child entry : Name → Node} (same : names.Perm others)
    (each : ∀ name ∈ names, Reordered (child name) (entry name)) :
    Reordered (.directory permissions names distinct child)
      (.directory permissions others unique entry)

theorem Reordered.refl (node : Node) : node.Reordered node := by
  induction node with
  | file permissions content => exact .file permissions content
  | link target => exact .link target
  | pipe => exact .pipe
  | directory permissions names distinct child ih =>
      exact .directory permissions distinct distinct (List.Perm.refl names) fun name _ => ih name

theorem Reordered.isDirectory_eq {first second : Node} (same : first.Reordered second) :
    first.isDirectory = second.isDirectory := by
  cases same <;> rfl

/-- Under every name there is the same entry, or none. -/
theorem Reordered.child? {first second : Node} (same : first.Reordered second) (name : Name) :
    (first.child? name = none ∧ second.child? name = none) ∨
      ∃ entry other, first.child? name = some entry ∧ second.child? name = some other ∧
        entry.Reordered other := by
  cases same with
  | file | link | pipe => exact Or.inl ⟨rfl, rfl⟩
  | @directory permissions names others distinct unique child entry same each =>
      rw [child?_directory, child?_directory]
      by_cases listed : name ∈ names
      · rw [if_pos listed, if_pos (same.mem_iff.mp listed)]
        exact Or.inr ⟨_, _, rfl, rfl, each name listed⟩
      · rw [if_neg listed, if_neg fun inside => listed (same.mem_iff.mpr inside)]
        exact Or.inl ⟨rfl, rfl⟩

/-- The same stands at every place, or nothing does. -/
theorem Reordered.at? {first second : Node} (same : first.Reordered second) (place : Location) :
    (first.at? place = none ∧ second.at? place = none) ∨
      ∃ node other, first.at? place = some node ∧ second.at? place = some other ∧
        node.Reordered other := by
  induction place generalizing first second with
  | nil => exact Or.inr ⟨first, second, rfl, rfl, same⟩
  | cons name rest ih =>
      rw [at?_cons, at?_cons]
      obtain ⟨absent, missing⟩ | ⟨entry, other, found, again, below⟩ := same.child? name
      · rw [absent, missing]
        exact Or.inl ⟨rfl, rfl⟩
      · rw [found, again]
        exact ih below

end Node

namespace Filesystem

variable {first second : Node} {purpose : Purpose}

theorem advance_of_reordered (same : first.Reordered second) {follow carry : Continuation}
    (alike : ∀ place steps demand, follow place steps demand = carry place steps demand)
    (place : Location) (steps : List Step) (demand : Bool) :
    advance first purpose follow place steps demand =
      advance second purpose carry place steps demand := by
  induction steps generalizing place with
  | nil =>
      rw [advance, advance]
      obtain ⟨absent, missing⟩ | ⟨node, other, found, again, here⟩ := same.at? place
      · rw [absent, missing]
      · simp only [found, again, here.isDirectory_eq]
  | cons step rest ih =>
      rw [advance.eq_def first, advance.eq_def second]
      dsimp only
      obtain ⟨absent, missing⟩ | ⟨node, other, found, again, here⟩ := same.at? place
      · rw [absent, missing]
      · have entries := here.child?
        rw [found, again]
        cases here with
        | file | link | pipe => rfl
        | directory permissions distinct unique names each =>
            dsimp only
            cases step with
            | stay => simp only [ih]
            | up => simp only [ih]
            | unnameable => rfl
            | enter name =>
                dsimp only
                obtain ⟨absent, missing⟩ | ⟨entry, another, listed, relisted, below⟩ := entries name
                · rw [absent, missing]
                · rw [listed, relisted]
                  cases below <;> simp only [alike, ih]

theorem walk_of_reordered (same : first.Reordered second) (budget : Nat) (place : Location)
    (steps : List Step) (demand : Bool) :
    walk first purpose budget place steps demand =
      walk second purpose budget place steps demand := by
  induction budget generalizing place steps demand with
  | zero => exact advance_of_reordered same (fun _ _ _ => rfl) place steps demand
  | succ budget ih => exact advance_of_reordered same ih place steps demand

/-- Two file systems are the same but for the order in which directories list their
names, and are seen from the same directory. -/
structure Reordered (fs other : Filesystem) : Prop where
  top : fs.top.Reordered other.top
  workingDirectory : other.workingDirectory = fs.workingDirectory

/-! Of two file systems that are seen from different directories the same is said of
absolute paths. -/

section Paths

variable {fs other : Filesystem} (same : fs.top.Reordered other.top) {path : Path}
  (start : path.isAbsolute = true ∨ other.workingDirectory = fs.workingDirectory)

include same start

/-- A path leads to the same place, or is refused for the same cause. -/
theorem locate_of_reordered : other.locate path = fs.locate path := by
  have begins : (if path.isAbsolute then [] else other.workingDirectory) =
      if path.isAbsolute then [] else fs.workingDirectory := by
    rcases start with absolute | here
    · rw [if_pos absolute, if_pos absolute]
    · rw [here]
  have resolved : other.resolve .lookup path = fs.resolve .lookup path := by
    simp only [resolve, walk_of_reordered same, begins]
  rw [locate, locate, resolved]

/-- A path names the same node, or is refused for the same cause. -/
theorem metadata_of_reordered :
    (∃ cause, fs.metadata path = .error cause ∧ other.metadata path = .error cause) ∨
      ∃ node again, fs.metadata path = .ok node ∧ other.metadata path = .ok again ∧
        node.Reordered again := by
  rw [metadata, metadata, locate_of_reordered same start]
  cases fs.locate path with
  | error cause => exact Or.inl ⟨cause, rfl, rfl⟩
  | ok location =>
      dsimp only
      obtain ⟨absent, missing⟩ | ⟨node, other, found, again, here⟩ := same.at? location
      · rw [absent, missing]
        exact Or.inl ⟨.notFound, rfl, rfl⟩
      · rw [found, again]
        exact Or.inr ⟨node, other, rfl, rfl, here⟩

theorem isDirectory_of_reordered : other.isDirectory path = fs.isDirectory path := by
  rw [isDirectory, isDirectory]
  obtain ⟨cause, found, again⟩ | ⟨node, other, found, again, here⟩ :=
    metadata_of_reordered same start
  · rw [found, again]
  · rw [found, again]
    exact here.isDirectory_eq.symm

end Paths

end Filesystem

end CacheManifest
