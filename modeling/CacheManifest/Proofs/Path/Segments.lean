/-
# Segments of paths that are put together

The text of a path is cut at slashes, and two texts that meet at a slash are cut
as each of them is by itself. Everything that is known about a path spelled from
another one follows from this: which steps it takes, whether it is absolute, and
what is left of it when the first path is taken off again.

A name of a directory entry is one segment that spells a component, so a list of
names and the path it spells determine each other.
-/

import Mathlib
import CacheManifest.Scan

namespace CacheManifest

namespace Path

theorem segments_ne_nil (text : Bytes) : segments text ≠ [] := by
  cases text with
  | nil => simp [segments]
  | cons byte rest =>
      rw [segments]
      split
      · simp
      · split <;> simp

@[simp]
theorem segments_nil : segments [] = [[]] := rfl

@[simp]
theorem segments_slash_cons (rest : Bytes) : segments (slash :: rest) = [] :: segments rest := by
  rw [segments, if_pos rfl]

/-- A byte other than the slash belongs to the first segment. -/
theorem segments_cons_of_ne {byte : UInt8} (other : byte ≠ slash) {rest first : Bytes}
    {others : List Bytes} (cut : segments rest = first :: others) :
    segments (byte :: rest) = (byte :: first) :: others := by
  rw [segments, if_neg other, cut]

/-- Two texts that meet at a slash are cut separately. -/
theorem segments_append_slash (front rest : Bytes) :
    segments (front ++ slash :: rest) = segments front ++ segments rest := by
  induction front with
  | nil => simp
  | cons byte front ih =>
      by_cases separator : byte = slash
      · subst separator
        simp [ih]
      · obtain ⟨first, others, cut⟩ := List.exists_cons_of_ne_nil (segments_ne_nil front)
        rw [List.cons_append, segments_cons_of_ne separator cut,
          segments_cons_of_ne separator (by rw [ih, cut, List.cons_append])]
        rfl

/-- A text without slashes is one segment. -/
theorem segments_of_slash_not_mem {text : Bytes} (whole : slash ∉ text) :
    segments text = [text] := by
  induction text with
  | nil => rfl
  | cons byte rest ih =>
      have other : byte ≠ slash := fun separator => whole (by simp [separator])
      exact segments_cons_of_ne other (ih fun inside => whole (List.mem_cons_of_mem _ inside))

/-- No segment has a slash. -/
theorem slash_not_mem_of_mem_segments {text segment : Bytes} (cut : segment ∈ segments text) :
    slash ∉ segment := by
  induction text generalizing segment with
  | nil =>
      obtain rfl : segment = [] := by simpa using cut
      exact List.not_mem_nil
  | cons byte rest ih =>
      by_cases separator : byte = slash
      · subst separator
        rcases List.mem_cons.mp (segments_slash_cons rest ▸ cut) with rfl | inside
        · exact List.not_mem_nil
        · exact ih inside
      · obtain ⟨first, others, shape⟩ := List.exists_cons_of_ne_nil (segments_ne_nil rest)
        rw [segments_cons_of_ne separator shape] at cut
        rw [shape] at ih
        rcases List.mem_cons.mp cut with rfl | inside
        · exact List.not_mem_cons_of_ne_of_not_mem (Ne.symm separator) (ih List.mem_cons_self)
        · exact ih (List.mem_cons_of_mem _ inside)

@[simp]
theorem ofSegments_nil : ofSegments [] = [] := rfl

@[simp]
theorem ofSegments_singleton (segment : Bytes) : ofSegments [segment] = segment := by
  simp [ofSegments, List.intercalate]

theorem ofSegments_cons_cons (first second : Bytes) (others : List Bytes) :
    ofSegments (first :: second :: others) = first ++ slash :: ofSegments (second :: others) := by
  simp [ofSegments, List.intercalate]

/-- Writing segments with slashes and cutting again gives them back. -/
theorem segments_ofSegments {parts : List Bytes} (some_part : parts ≠ [])
    (whole : ∀ part ∈ parts, slash ∉ part) : segments (ofSegments parts) = parts := by
  induction parts with
  | nil => exact absurd rfl some_part
  | cons first others ih =>
      have head : segments first = [first] := segments_of_slash_not_mem (whole first (by simp))
      cases others with
      | nil => rw [ofSegments_singleton, head]
      | cons second others =>
          rw [ofSegments_cons_cons, segments_append_slash, head,
            ih (by simp) fun part inside => whole part (List.mem_cons_of_mem _ inside)]
          rfl

/-- Cutting a text and writing its segments with slashes gives it back. -/
theorem ofSegments_segments (text : Bytes) : ofSegments (segments text) = text := by
  induction text with
  | nil => rfl
  | cons byte rest ih =>
      obtain ⟨first, others, cut⟩ := List.exists_cons_of_ne_nil (segments_ne_nil rest)
      by_cases separator : byte = slash
      · subst separator
        rw [segments_slash_cons, cut, ofSegments_cons_cons, ← cut, ih, List.nil_append]
      · rw [segments_cons_of_ne separator cut]
        rw [cut] at ih
        cases others with
        | nil => rw [ofSegments_singleton] at ih ⊢; rw [ih]
        | cons second others =>
            rw [ofSegments_cons_cons] at ih ⊢
            rw [List.cons_append, ih]

/-- A byte of a path is a slash or one of a segment. -/
theorem mem_ofSegments {parts : List Bytes} {byte : UInt8} (other : byte ≠ slash) :
    byte ∈ ofSegments parts ↔ ∃ part ∈ parts, byte ∈ part := by
  induction parts with
  | nil => simp
  | cons first others ih =>
      cases others with
      | nil => simp
      | cons second others =>
          rw [ofSegments_cons_cons, List.mem_append, List.mem_cons, ih]
          simp [other]

/-- The length of a path is that of its segments and of the slashes between them. -/
theorem length_ofSegments (parts : List Bytes) :
    (ofSegments parts).length = (parts.map fun part => part.length + 1).sum - 1 := by
  induction parts with
  | nil => rfl
  | cons first others ih =>
      cases others with
      | nil => simp
      | cons second others =>
          rw [ofSegments_cons_cons, List.length_append, List.length_cons, ih]
          simp only [List.map_cons, List.sum_cons]
          omega

theorem ofSegments_concat {parts : List Bytes} (some_part : parts ≠ []) (last : Bytes) :
    ofSegments (parts ++ [last]) = ofSegments parts ++ slash :: last := by
  induction parts with
  | nil => exact absurd rfl some_part
  | cons first others ih =>
      cases others with
      | nil => simp [ofSegments_cons_cons]
      | cons second others =>
          rw [List.cons_append, List.cons_append, ofSegments_cons_cons, ← List.cons_append,
            ih (by simp), ofSegments_cons_cons]
          simp

end Path

namespace Name

open CacheManifest.Path (slash)

theorem bytes_ne_nil (name : Name) : name.bytes ≠ [] := name.valid.1

theorem slash_not_mem (name : Name) : slash ∉ name.bytes := name.valid.2.2.1

theorem zero_not_mem (name : Name) : (0 : UInt8) ∉ name.bytes := name.valid.2.2.2.1

theorem bytes_ne_dot (name : Name) : name.bytes ≠ Path.dot := name.valid.2.2.2.2.1

theorem bytes_ne_dotDot (name : Name) : name.bytes ≠ Path.dotDot := name.valid.2.2.2.2.2

theorem bytes_injective : Function.Injective Name.bytes := by
  rintro ⟨first, _⟩ ⟨second, _⟩ same
  simpa using same

@[simp]
theorem bearing_bytes (name : Name) : Path.bearing name.bytes = true := by
  simp [Path.bearing, name.bytes_ne_nil, name.bytes_ne_dot]

@[simp]
theorem component_bytes (name : Name) :
    Path.Component.ofSegment name.bytes = .normal name.bytes := by
  rw [Path.Component.ofSegment, if_neg name.bytes_ne_dotDot]

@[simp]
theorem step_bytes (name : Name) :
    Filesystem.Step.ofSegment name.bytes = .enter name := by
  rw [Filesystem.Step.ofSegment, if_neg name.bytes_ne_dot, if_neg name.bytes_ne_dotDot]
  simp [ofBytes?, name.valid]

/-- Every name of a place spells a component. -/
theorem filter_bearing_map (place : Location) :
    (place.map bytes).filter Path.bearing = place.map bytes :=
  List.filter_eq_self.mpr (List.forall_mem_map.mpr fun name _ => name.bearing_bytes)

end Name

end CacheManifest
