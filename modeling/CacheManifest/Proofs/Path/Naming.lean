/-
# Paths that are lists of names

Segments that name something, written with slashes between them, are a relative path
whose components are just these segments. Its parent and its file name are what
comes before the last segment and that segment. How long a name is does not matter
here, and neither does what it reads as.
-/

import CacheManifest.Proofs.Path.Components

namespace CacheManifest

namespace Path

/-- A segment that names something: it is written, holds neither a slash nor a zero
byte, and is not reserved. -/
structure Naming (segment : Bytes) : Prop where
  written : segment ≠ []
  slash_not_mem : slash ∉ segment
  zero_not_mem : (0 : UInt8) ∉ segment
  ne_dot : segment ≠ dot
  ne_dotDot : segment ≠ dotDot

theorem Naming.bearing {segment : Bytes} (named : Naming segment) :
    Path.bearing segment = true := by
  simp [Path.bearing, named.written, named.ne_dot]

theorem Naming.component {segment : Bytes} (named : Naming segment) :
    Component.ofSegment segment = .normal segment :=
  if_neg named.ne_dotDot

variable {parts : List Bytes}

theorem spelling_ofSegments (some_part : parts ≠ []) (named : ∀ part ∈ parts, Naming part) :
    (Path.mk (ofSegments parts)).spelling = ⟨.unanchored, parts⟩ := by
  have cut : segments (Path.mk (ofSegments parts)).bytes = parts :=
    segments_ofSegments some_part fun part inside => (named part inside).slash_not_mem
  obtain ⟨first, others, rfl⟩ := List.exists_cons_of_ne_nil some_part
  have leading := named first List.mem_cons_self
  rw [spelling_of_head cut leading.written, if_neg leading.ne_dot]

/-- The components of such a path are its segments. -/
theorem components_ofSegments (named : ∀ part ∈ parts, Naming part) :
    (Path.mk (ofSegments parts)).components = parts.map .normal := by
  by_cases some_part : parts = []
  · subst some_part
    rfl
  · have all_bear : parts.filter bearing = parts :=
      List.filter_eq_self.mpr fun part inside => (named part inside).bearing
    rw [components, spelling_ofSegments some_part named, Anchor.components, List.nil_append,
      all_bear]
    exact List.map_congr_left fun part inside => (named part inside).component

theorem names_ofSegments (named : ∀ part ∈ parts, Naming part) :
    (Path.mk (ofSegments parts)).names = parts := by
  rw [names, components_ofSegments named, List.filterMap_map]
  exact List.filterMap_some

theorem fileName_ofSegments {front : List Bytes} {last : Bytes}
    (named : ∀ part ∈ front ++ [last], Naming part) :
    (Path.mk (ofSegments (front ++ [last]))).fileName = some last := by
  rw [fileName, components_ofSegments named]
  simp [Component.name?]

theorem parent_ofSegments {front : List Bytes} {last : Bytes}
    (named : ∀ part ∈ front ++ [last], Naming part) :
    (Path.mk (ofSegments (front ++ [last]))).parent = some ⟨ofSegments front⟩ := by
  have whole : trimmedEnd (front ++ [last]) = front ++ [last] :=
    trimmedEnd_eq_self fun part inside => (named part inside).bearing
  have front_whole : trimmedEnd front = front :=
    trimmedEnd_eq_self fun part inside => (named part (List.mem_append_left _ inside)).bearing
  obtain ⟨first, others, shape⟩ :=
    List.exists_cons_of_ne_nil (show front ++ [last] ≠ [] by simp)
  simp only [parent, spelling_ofSegments (by simp) named, whole]
  rw [shape]
  show some (Spelling.mk .unanchored (trimmedEnd (first :: others).dropLast)).path = _
  rw [← shape, List.dropLast_concat, front_whole]
  rfl

end Path

/-- The name of a directory entry names something. -/
theorem Name.naming (name : Name) : Path.Naming name.bytes where
  written := name.bytes_ne_nil
  slash_not_mem := name.slash_not_mem
  zero_not_mem := name.zero_not_mem
  ne_dot := name.bytes_ne_dot
  ne_dotDot := name.bytes_ne_dotDot

theorem Name.naming_of_mem_map (place : Location) :
    ∀ part ∈ place.map Name.bytes, Path.Naming part :=
  List.forall_mem_map.mpr fun name _ => name.naming

end CacheManifest
