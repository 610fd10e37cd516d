/-
# Where a path is looked up from

An absolute path leads to the same place from every working directory, so what is read
or written through one does not depend on where a process stands. The absolute path of
a directory leads to that directory, or it cannot be followed: its parent is the path
of the directory above, its file name the last name.
-/

import CacheManifest.Proofs.Filesystem.Routes
import CacheManifest.Proofs.Path.Components

namespace CacheManifest

open Scan (spelled)

/-! ## The path of a place -/

namespace Location

theorem isAbsolute_path (place : Location) : place.path.isAbsolute = true := rfl

/-- The path of a place is spelled from the root directory. -/
theorem path_eq_spelled (place : Location) : place.path = spelled ⟨[Path.slash]⟩ place := by
  by_cases below : place = []
  · subst below
    rfl
  · have bytes := Scan.bytes_spelled (show (Path.mk [Path.slash]).bytes ≠ [] by simp) below
    exact congrArg Path.mk bytes.symm

theorem spelling_path {place : Location} (below : place ≠ []) :
    place.path.spelling = ⟨.root, place.map Name.bytes⟩ := by
  have body : Path.segments (Path.ofSegments (place.map Name.bytes)) = place.map Name.bytes :=
    Scan.segments_relativePath below
  obtain ⟨first, others, shape⟩ :=
    List.exists_cons_of_ne_nil (show place.map Name.bytes ≠ [] by simpa using below)
  have cut : Path.segments place.path.bytes = [] :: first :: others := by
    rw [← shape, ← body]
    exact Path.segments_slash_cons _
  rw [Path.spelling, cut, shape]

/-- The root directory has no parent. -/
theorem parent_path_nil : Path.parent (Location.path []) = none := by rfl

/-- The parent of a place has the path without the last name. -/
theorem parent_path_concat (front : Location) (name : Name) :
    Path.parent (Location.path (front ++ [name])) = some front.path := by
  have ends : (Location.path (front ++ [name])).spelling.body =
      front.map Name.bytes ++ [name.bytes] := by
    rw [spelling_path (by simp), List.map_append]
    rfl
  rw [Path.parent_of_isAbsolute (isAbsolute_path _) ends name.bearing_bytes,
    Scan.trimmedEnd_names]
  rfl

theorem fileName_path_concat (front : Location) (name : Name) :
    Path.fileName (Location.path (front ++ [name])) = some name.bytes := by
  have ends : (Location.path (front ++ [name])).spelling.body =
      front.map Name.bytes ++ [name.bytes] := by
    rw [spelling_path (by simp), List.map_append]
    rfl
  rw [Path.fileName_of_isAbsolute (isAbsolute_path _) ends name.bearing_bytes,
    name.component_bytes]
  rfl

theorem components_path (place : Location) :
    place.path.components = .root :: place.map fun name => .normal name.bytes := by
  by_cases below : place = []
  · subst below
    rfl
  · rw [Path.components, spelling_path below, Name.filter_bearing_map, List.map_map]
    exact congrArg (Path.Component.root :: ·) (List.map_congr_left fun name _ =>
      name.component_bytes)

/-- A place takes a longer route than its parent. -/
theorem not_sameRoute_path_concat (front : Location) (name : Name) :
    Path.sameRoute (Location.path (front ++ [name])) front.path = false := by
  rw [Path.sameRoute, beq_eq_false_iff_ne, components_path, components_path]
  intro same
  have lengths := congrArg List.length same
  simp at lengths

theorem parent_path_ne_self (place : Location) : place.path.parent ≠ some place.path := by
  obtain rfl | ⟨front, name, rfl⟩ := List.eq_nil_or_concat' place
  · rw [parent_path_nil]
    simp
  · rw [parent_path_concat]
    intro same
    have longer := not_sameRoute_path_concat front name
    rw [← Option.some.inj same] at longer
    simp [Path.sameRoute] at longer

end Location

namespace Filesystem

variable {fs : Filesystem} {place : Location} {path : Path} {purpose : Purpose}

/-- The path of a directory leads there, if it can be followed. -/
theorem eq_of_locate_path {node : Node} {location : Location}
    (there : fs.top.at? place = some node) (inside : node.isDirectory = true)
    (located : fs.locate place.path = .ok location) : location = place := by
  have unlinked : ∀ target, node ≠ .link target := by
    rintro target rfl
    cases inside
  obtain ⟨top, begins, rooted⟩ : ∃ top, fs.top.at? [] = some top ∧ top.isDirectory = true := by
    by_cases below : place = []
    · exact ⟨node, below ▸ there, inside⟩
    · exact Node.isDirectory_of_at?_append below there
  have root_located : fs.locate ⟨[Path.slash]⟩ = .ok [] := by
    have ends : advance fs.top .lookup (walk fs.top .lookup 39) [] [] true =
        .ok (.present []) := advance_nil_eq_ok_iff.mpr ⟨rfl, top, begins, fun _ => rooted⟩
    have resolved : fs.resolve .lookup ⟨[Path.slash]⟩ = .ok (.present []) := ends
    rw [locate, resolved]
  cases begins
  have led := locate_spelled root_located rfl there unlinked
  rw [← Location.path_eq_spelled, located] at led
  split_ifs at led
  cases led
  rfl

/-! ## The same tree from another directory -/

/-- A tree as a process sees it whose working directory is another one. -/
def seenFrom (fs : Filesystem) (place : Location) : Filesystem :=
  { fs with workingDirectory := place }

@[simp]
theorem top_seenFrom (fs : Filesystem) (place : Location) : (fs.seenFrom place).top = fs.top := rfl

section Absolute

variable (absolute : path.isAbsolute = true)

include absolute

theorem resolve_seenFrom : (fs.seenFrom place).resolve purpose path = fs.resolve purpose path := by
  simp [resolve, absolute]

theorem metadata_seenFrom : (fs.seenFrom place).metadata path = fs.metadata path := by
  simp only [metadata, locate, resolve_seenFrom absolute, top_seenFrom]

theorem isFile_seenFrom : (fs.seenFrom place).isFile path = fs.isFile path := by
  rw [isFile, isFile, metadata_seenFrom absolute]

theorem readText_seenFrom : (fs.seenFrom place).readText path = fs.readText path := by
  simp only [readText, read, metadata_seenFrom absolute]

/-- Opening a file opens the same one and leaves the same tree. -/
theorem openEmpty_seenFrom : (fs.seenFrom place).openEmpty path =
    (fs.openEmpty path).map fun opened => (opened.1.seenFrom place, opened.2) := by
  simp only [openEmpty, writablePlace, resolve_seenFrom absolute, top_seenFrom]
  split <;> rfl

end Absolute

theorem append_seenFrom (fs : Filesystem) (place location : Location) (bytes : Bytes) :
    (fs.seenFrom place).append location bytes = (fs.append location bytes).seenFrom place := by
  rw [append, append, top_seenFrom]
  split <;> rfl

end Filesystem

end CacheManifest
