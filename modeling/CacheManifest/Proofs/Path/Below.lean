/-
# Paths of places below a path

A walk spells the place of a file by joining names to the path it started from.
However that path is written, with or without a slash at its end, the result
takes the steps of the path and then one step for each name, and taking the path
off again leaves the names.

The only path for which this fails is the empty one, which no file system
resolves.
-/

import CacheManifest.Proofs.Path.Segments

namespace CacheManifest

open Scan (spelled)

namespace Path

/-- The text of a path without the slash at its end, if there is one. -/
def stem (path : Path) : Bytes :=
  if path.bytes.getLast? = some slash then path.bytes.dropLast else path.bytes

/-- A path is its stem, or its stem and a slash. -/
theorem bytes_eq_stem_or (path : Path) :
    path.bytes = path.stem ∨ path.bytes = path.stem ++ [slash] := by
  by_cases closed : path.bytes.getLast? = some slash
  · right
    rw [stem, if_pos closed]
    exact (List.dropLast_append_getLast? slash closed).symm
  · left
    rw [stem, if_neg closed]

/-- An absolute path begins with a slash. -/
theorem exists_of_isAbsolute {path : Path} (absolute : path.isAbsolute = true) :
    ∃ rest, path.bytes = slash :: rest := by
  rw [isAbsolute, beq_iff_eq, List.head?_eq_some_iff] at absolute
  exact absolute

theorem bytes_ne_nil_of_isAbsolute {path : Path} (absolute : path.isAbsolute = true) :
    path.bytes ≠ [] := by
  intro empty
  simp [isAbsolute, empty] at absolute

theorem isAbsolute_append {path : Path} (absolute : path.isAbsolute = true) (rest : Bytes) :
    (Path.mk (path.bytes ++ rest)).isAbsolute = true := by
  rwa [isAbsolute, List.head?_append_of_ne_nil _ (bytes_ne_nil_of_isAbsolute absolute)]

theorem isAbsolute_join {root : Path} (absolute : root.isAbsolute = true) (directory : Path) :
    (root.join directory).isAbsolute = true := by
  rw [join]
  split
  · assumption
  · split
    · exact isAbsolute_append absolute _
    · exact isAbsolute_append absolute _

theorem name_not_isAbsolute (name : Name) : name.path.isAbsolute = false := by
  obtain ⟨first, others, shape⟩ := List.exists_cons_of_ne_nil name.bytes_ne_nil
  have other : first ≠ slash := fun separator =>
    name.slash_not_mem (by rw [shape, separator]; exact List.mem_cons_self)
  simp [isAbsolute, Name.path, shape, other]

/-- A text that ends in a name does not end in a slash. -/
theorem getLast?_append_name_ne (text : Bytes) (name : Name) :
    (text ++ name.bytes).getLast? ≠ some slash := by
  rw [List.getLast?_append_of_ne_nil text name.bytes_ne_nil]
  exact fun closed => name.slash_not_mem (List.mem_of_getLast? closed)

/-- Relative paths join the path of a directory at exactly one slash. -/
theorem bytes_join {base rest : Path} (written : base.bytes ≠ [])
    (relative : rest.isAbsolute = false) :
    (base.join rest).bytes = base.stem ++ slash :: rest.bytes := by
  rw [join, relative, if_neg Bool.false_ne_true]
  by_cases closed : base.bytes.getLast? = some slash
  · have whole : base.bytes = base.stem ++ [slash] := by
      rw [stem, if_pos closed]
      exact (List.dropLast_append_getLast? slash closed).symm
    rw [if_pos (Or.inr closed)]
    show base.bytes ++ rest.bytes = _
    rw [whole, List.append_assoc]
    rfl
  · rw [if_neg (by simp [written, closed]), stem, if_neg closed]

/-- So does a name. -/
theorem bytes_join_name {base : Path} (written : base.bytes ≠ []) (name : Name) :
    (base.join name.path).bytes = base.stem ++ slash :: name.bytes :=
  bytes_join written (name_not_isAbsolute name)

theorem stem_join_name {base : Path} (written : base.bytes ≠ []) (name : Name) :
    (base.join name.path).stem = (base.join name.path).bytes := by
  have still_open : (base.join name.path).bytes.getLast? ≠ some slash := by
    rw [bytes_join_name written, ← List.singleton_append, ← List.append_assoc]
    exact getLast?_append_name_ne _ name
  rw [stem, if_neg still_open]

end Path

namespace Scan

open CacheManifest.Path (slash ofSegments segments)

/-- A place as a path relative to the directory it lies below. -/
def relativePath (place : Location) : Path := ⟨ofSegments (place.map Name.bytes)⟩

@[simp]
theorem spelled_nil (origin : Path) : spelled origin [] = origin := rfl

theorem spelled_concat (origin : Path) (place : Location) (name : Name) :
    spelled origin (place ++ [name]) = (spelled origin place).join name.path := by
  simp [spelled]

theorem bytes_spelled_ne_nil {origin : Path} (written : origin.bytes ≠ []) (place : Location) :
    (spelled origin place).bytes ≠ [] := by
  induction place using List.reverseRecOn with
  | nil => exact written
  | append_singleton front last ih =>
      rw [spelled_concat, Path.bytes_join_name ih]
      simp

/-- A place is spelled as the path it lies below, a slash, and its names with
slashes between them. -/
theorem bytes_spelled {origin : Path} (written : origin.bytes ≠ []) {place : Location}
    (below : place ≠ []) :
    (spelled origin place).bytes = origin.stem ++ slash :: (relativePath place).bytes := by
  induction place using List.reverseRecOn with
  | nil => exact absurd rfl below
  | append_singleton front last ih =>
      rw [spelled_concat, Path.bytes_join_name (bytes_spelled_ne_nil written front)]
      rcases List.eq_nil_or_concat' front with rfl | ⟨inner, name, rfl⟩
      · simp [relativePath]
      · have open_end : (spelled origin (inner ++ [name])).stem =
            (spelled origin (inner ++ [name])).bytes := by
          rw [spelled_concat]
          exact Path.stem_join_name (bytes_spelled_ne_nil written inner) name
        have names : (inner ++ [name] ++ [last]).map Name.bytes =
            (inner ++ [name]).map Name.bytes ++ [last.bytes] := by simp
        rw [open_end, ih (by simp), relativePath, relativePath, names,
          Path.ofSegments_concat (by simp)]
        simp

theorem segments_relativePath {place : Location} (below : place ≠ []) :
    segments (relativePath place).bytes = place.map Name.bytes := by
  apply Path.segments_ofSegments (by simpa using below)
  intro part inside
  obtain ⟨name, -, rfl⟩ := List.mem_map.mp inside
  exact name.slash_not_mem

theorem segments_spelled {origin : Path} (written : origin.bytes ≠ []) {place : Location}
    (below : place ≠ []) :
    segments (spelled origin place).bytes = segments origin.stem ++ place.map Name.bytes := by
  rw [bytes_spelled written below, Path.segments_append_slash, segments_relativePath below]

/-- The segments of a path that do not come from its stem are empty. -/
theorem segments_eq_stem_append (path : Path) :
    ∃ blank : List Bytes, (∀ segment ∈ blank, segment = []) ∧
      segments path.bytes = segments path.stem ++ blank := by
  rcases path.bytes_eq_stem_or with whole | closed
  · exact ⟨[], by simp, by rw [← whole, List.append_nil]⟩
  · exact ⟨[[]], by simp, by rw [closed, Path.segments_append_slash, Path.segments_nil]⟩

/-! ## The steps to a place -/

theorem steps_spelled {origin : Path} (written : origin.bytes ≠ []) (place : Location) :
    Filesystem.steps (spelled origin place) =
      Filesystem.steps origin ++ place.map Filesystem.Step.enter := by
  by_cases below : place = []
  · simp [below]
  obtain ⟨blank, empty, cut⟩ := segments_eq_stem_append origin
  have nothing : blank.filter (fun segment => segment ≠ []) = [] := by
    simpa [List.filter_eq_nil_iff] using empty
  have all_names : (place.map Name.bytes).filter (fun segment => segment ≠ []) =
      place.map Name.bytes := by
    rw [List.filter_eq_self]
    intro segment inside
    obtain ⟨name, -, rfl⟩ := List.mem_map.mp inside
    simpa using name.bytes_ne_nil
  rw [Filesystem.steps, Filesystem.steps, segments_spelled written below, cut,
    List.filter_append, List.filter_append, nothing, all_names, List.append_nil, List.map_append,
    List.map_map]
  congr 1
  exact List.map_congr_left fun name _ => name.step_bytes

theorem isAbsolute_spelled {origin : Path} (written : origin.bytes ≠ []) (place : Location) :
    (spelled origin place).isAbsolute = origin.isAbsolute := by
  by_cases below : place = []
  · rw [below, spelled_nil]
  rw [Path.isAbsolute, Path.isAbsolute, bytes_spelled written below]
  rcases origin.bytes_eq_stem_or with whole | closed
  · rw [whole] at written
    rw [List.head?_append_of_ne_nil _ written, ← whole]
  · rw [closed]
    cases origin.stem <;> simp

theorem isAbsolute_spelled_join {root : Path} (absolute : root.isAbsolute = true)
    (directory : Path) (place : Location) :
    (spelled (root.join directory) place).isAbsolute = true := by
  have joined := Path.isAbsolute_join absolute directory
  rw [isAbsolute_spelled (Path.bytes_ne_nil_of_isAbsolute joined), joined]

theorem not_demandsDirectory_spelled {origin : Path} (written : origin.bytes ≠ [])
    {place : Location} (below : place ≠ []) :
    Filesystem.demandsDirectory (spelled origin place) = false := by
  obtain ⟨front, last, rfl⟩ := List.eq_nil_or_concat' place |>.resolve_left below
  rw [spelled_concat, Filesystem.demandsDirectory,
    Path.bytes_join_name (bytes_spelled_ne_nil written front), ← List.singleton_append,
    ← List.append_assoc]
  exact beq_eq_false_iff_ne.mpr (Path.getLast?_append_name_ne _ last)

theorem zero_not_mem_spelled {origin : Path} (clean : (0 : UInt8) ∉ origin.bytes)
    (written : origin.bytes ≠ []) (place : Location) :
    (0 : UInt8) ∉ (spelled origin place).bytes := by
  induction place using List.reverseRecOn with
  | nil => exact clean
  | append_singleton front last ih =>
      have clean_stem : (0 : UInt8) ∉ (spelled origin front).stem := by
        intro inside
        rcases (spelled origin front).bytes_eq_stem_or with whole | closed
        · exact ih (whole ▸ inside)
        · exact ih (by rw [closed]; exact List.mem_append_left _ inside)
      rw [spelled_concat, Path.bytes_join_name (bytes_spelled_ne_nil written front)]
      simp [clean_stem, last.zero_not_mem, slash]

/-! ## Taking the path off again -/

end Scan

namespace Path

theorem segments_ne_singleton_nil {text : Bytes} (written : text ≠ []) :
    segments text ≠ [[]] := by
  obtain ⟨byte, rest, rfl⟩ := List.exists_cons_of_ne_nil written
  by_cases separator : byte = slash
  · subst separator
    simp [segments_ne_nil]
  · obtain ⟨first, others, cut⟩ := List.exists_cons_of_ne_nil (segments_ne_nil rest)
    simp [segments_cons_of_ne separator cut]

/-- A path whose first segment is not empty is no absolute one. -/
theorem spelling_of_head {path : Path} {head : Bytes} {others : List Bytes}
    (cut : segments path.bytes = head :: others) (unrooted : head ≠ []) :
    path.spelling =
      if head = dot then ⟨.here, others⟩ else ⟨.unanchored, head :: others⟩ := by
  obtain ⟨byte, more, rfl⟩ := List.exists_cons_of_ne_nil unrooted
  rw [spelling, cut]

/-- Two paths whose segments begin alike start at the same anchor, and their
bodies differ only where the segments do. -/
theorem spelling_of_segments_append {first second : Path} {shared blank rest : List Bytes}
    (some_segment : shared ≠ []) (written : first.bytes ≠ []) (rest_written : second.bytes ≠ [])
    (first_cut : segments first.bytes = shared ++ blank)
    (second_cut : segments second.bytes = shared ++ rest) :
    ∃ anchor body, first.spelling = ⟨anchor, body ++ blank⟩ ∧
      second.spelling = ⟨anchor, body ++ rest⟩ := by
  obtain ⟨head, others, rfl⟩ := List.exists_cons_of_ne_nil some_segment
  have first_long := first_cut ▸ segments_ne_singleton_nil written
  have second_long := second_cut ▸ segments_ne_singleton_nil rest_written
  by_cases rooted : head = []
  · subst rooted
    refine ⟨.root, others, ?_, ?_⟩
    · obtain ⟨next, more, shape⟩ := List.exists_cons_of_ne_nil
        (show others ++ blank ≠ [] by simpa using first_long)
      simp [spelling, first_cut, shape]
    · obtain ⟨next, more, shape⟩ := List.exists_cons_of_ne_nil
        (show others ++ rest ≠ [] by simpa using second_long)
      simp [spelling, second_cut, shape]
  · rw [spelling_of_head first_cut rooted, spelling_of_head second_cut rooted]
    by_cases leading_dot : head = dot
    · exact ⟨.here, others, by simp [leading_dot], by simp [leading_dot]⟩
    · exact ⟨.unanchored, head :: others, by simp [leading_dot], by simp [leading_dot]⟩

/-- Only the empty path takes no steps. -/
theorem components_ne_nil {path : Path} (written : path.bytes ≠ []) : path.components ≠ [] := by
  obtain ⟨head, others, cut⟩ := List.exists_cons_of_ne_nil (segments_ne_nil path.bytes)
  have long := cut ▸ segments_ne_singleton_nil written
  by_cases rooted : head = []
  · subst rooted
    obtain ⟨next, more, rfl⟩ := List.exists_cons_of_ne_nil (show others ≠ [] by simpa using long)
    simp [components, spelling, cut, Anchor.components]
  · rw [components, spelling_of_head cut rooted]
    by_cases leading_dot : head = dot
    · simp [leading_dot, Anchor.components]
    · simp [rooted, leading_dot, Anchor.components, bearing]

/-- Past the steps of a body, what is appended to it follows, after segments
that spell nothing. -/
theorem segmentsAfter_append (body rest : List Bytes) :
    ∃ idle : List Bytes, (∀ segment ∈ idle, bearing segment = false) ∧
      segmentsAfter (body ++ rest) ((body.filter bearing).map Component.ofSegment) =
        some (idle ++ rest) := by
  induction body with
  | nil => exact ⟨[], by simp, by cases rest <;> rfl⟩
  | cons segment body ih =>
      obtain ⟨idle, silent, follows⟩ := ih
      cases spells : bearing segment with
      | true =>
          refine ⟨idle, silent, ?_⟩
          simp [spells, segmentsAfter, follows]
      | false =>
          cases steps : (body.filter bearing).map Component.ofSegment with
          | nil =>
              refine ⟨segment :: body, ?_, ?_⟩
              · have none_left : body.filter bearing = [] := by simpa using steps
                intro other inside
                rcases List.mem_cons.mp inside with rfl | inside
                · exact spells
                · simpa using List.filter_eq_nil_iff.mp none_left other inside
              · simp [spells, steps, segmentsAfter]
          | cons step more =>
              refine ⟨idle, silent, ?_⟩
              simp [spells, steps, segmentsAfter, ← follows]

/-- Nothing is trimmed off segments of which each spells a component. -/
theorem trimmedEnd_eq_self {parts : List Bytes} (spell : ∀ part ∈ parts, bearing part = true) :
    trimmedEnd parts = parts := by
  rcases List.eq_nil_or_concat' parts with rfl | ⟨front, last, rfl⟩
  · rfl
  · simp [trimmedEnd, spell last (by simp)]

end Path

namespace Scan

theorem trimmedEnd_names (place : Location) :
    Path.trimmedEnd (place.map Name.bytes) = place.map Name.bytes :=
  Path.trimmedEnd_eq_self (List.forall_mem_map.mpr fun name _ => name.bearing_bytes)

/-- Names in a row neither begin nor end with a segment that spells nothing. -/
theorem trimmed_names {place : Location} {idle : List Bytes}
    (silent : ∀ segment ∈ idle, Path.bearing segment = false) :
    Path.trimmedEnd ((idle ++ place.map Name.bytes).dropWhile fun segment =>
      !Path.bearing segment) = place.map Name.bytes := by
  have front : (idle ++ place.map Name.bytes).dropWhile (fun segment => !Path.bearing segment) =
      place.map Name.bytes := by
    rw [List.dropWhile_append_of_pos (by simpa using silent)]
    cases place <;> simp
  rw [front, trimmedEnd_names]

/-- A path spelled from another one is that path followed by the names: seen
from there, it is the relative path of its place. -/
theorem stripPrefix?_spelled {origin : Path} (written : origin.bytes ≠ []) {place : Location}
    (below : place ≠ []) :
    (spelled origin place).stripPrefix? origin = some (relativePath place) := by
  obtain ⟨blank, empty, cut⟩ := segments_eq_stem_append origin
  obtain ⟨anchor, body, start, whole⟩ := Path.spelling_of_segments_append
    (Path.segments_ne_nil _) written (bytes_spelled_ne_nil written place) cut
    (segments_spelled written below)
  have silent : blank.filter Path.bearing = [] := by
    rw [List.filter_eq_nil_iff]
    intro segment inside
    simp [Path.bearing, empty segment inside]
  obtain ⟨idle, spell_nothing, follows⟩ :=
    Path.segmentsAfter_append body (place.map Name.bytes)
  rw [Path.stripPrefix?, if_neg (Path.components_ne_nil written), start, whole, if_pos rfl,
    List.filter_append, silent, List.append_nil, follows, Option.map_some,
    trimmed_names spell_nothing]
  rfl

end Scan

end CacheManifest
