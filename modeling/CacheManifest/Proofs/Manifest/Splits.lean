/-
# Where a path is split does not matter

The path of a file is handed over in two parts, a directory and what lies below it.
An address is put together from the components of both, each of them read as text
by itself, while a path that is shown is read as a whole. A slash is one byte and
ends whatever sequence is under way before it, so the two readings agree however
the names are cut short. What is left between them is the last name, which an
address keeps as it is: the whole path shows slashes where that name has
backslashes.
-/

import CacheManifest.Proofs.Manifest.Segments
import CacheManifest.Proofs.Path.Naming
import CacheManifest.Proofs.Path.Readings

namespace CacheManifest

open Pieces (led)

namespace Path

/-- The text of a path, with slashes for separators, is led by its segments read so. -/
theorem toList_normalized_ofSegments {parts : List Bytes} (some_part : parts ≠ []) :
    '/' :: (normalized ⟨ofSegments parts⟩).toList =
      led '/' (parts.map fun part => withSlashes (Utf8.lossyChars part)) := by
  have leading : '/' :: withSlashes (Utf8.lossyChars (ofSegments parts)) =
      withSlashes (led '/' (parts.map Utf8.lossyChars)) := by
    rw [lossyChars_ofSegments, Pieces.led_eq_cons_intercalate (by simpa using some_part)]
    rfl
  rw [normalized, String.toList_ofList, leading]
  simp [led, withSlashes, List.map_flatMap, List.flatMap_map]

end Path

namespace Entry

open CacheManifest.Path (Naming ofSegments withSlashes)

variable {front inner : List Bytes} {last : Bytes}

/-- The address of a file told by the names on the way to it, in whatever part of its
path they stand. -/
theorem toList_address_ofSegments (named : ∀ part ∈ front ++ (inner ++ [last]), Naming part) :
    (address ⟨ofSegments front⟩ ⟨ofSegments (inner ++ [last])⟩).toList =
      led '/' (((front ++ inner).map fun part => withSlashes (Utf8.lossyChars part)) ++
        [Utf8.lossyChars last]) := by
  obtain ⟨front_named, rest_named⟩ := List.forall_mem_append.mp named
  have inner_named := (List.forall_mem_append.mp rest_named).1
  rw [address, String.toList_ofList, addressChars, Path.parent_ofSegments rest_named,
    Path.fileName_ofSegments rest_named, Option.getD_some, Path.names_ofSegments front_named,
    Path.names_ofSegments inner_named, Pieces.led_append]
  simp [led, fileSegment, List.flatMap_map]
  rfl

/-- However the names on the way to a file are split into a directory and what lies
below it, the file has the address that it has with nothing split off. This is the
whole path, with slashes for separators, exactly if the name of the file has no
backslash. -/
theorem address_of_split {parts rest : List Bytes} (named : ∀ part ∈ parts, Naming part)
    (ends : parts.getLast? = some last) (split : front ++ rest = parts) (below : rest ≠ []) :
    address ⟨ofSegments front⟩ ⟨ofSegments rest⟩ = address ⟨ofSegments []⟩ ⟨ofSegments parts⟩ ∧
      (address ⟨ofSegments front⟩ ⟨ofSegments rest⟩ = "/" ++ Path.normalized ⟨ofSegments parts⟩ ↔
        Path.backslash ∉ last) := by
  obtain ⟨inner, final, rfl⟩ := List.eq_nil_or_concat' rest |>.resolve_left below
  obtain rfl : final = last := by
    rw [← split, ← List.append_assoc, List.getLast?_concat] at ends
    exact Option.some.inj ends
  subst split
  have shown := toList_address_ofSegments named
  constructor
  · have unsplit := @toList_address_ofSegments [] (front ++ inner) final (by simpa using named)
    rw [List.nil_append] at unsplit
    rw [← String.toList_inj, shown, ← List.append_assoc, unsplit]
  · have whole : ("/" ++ Path.normalized ⟨ofSegments (front ++ (inner ++ [final]))⟩).toList =
        led '/' (((front ++ inner).map fun part => withSlashes (Utf8.lossyChars part)) ++
          [withSlashes (Utf8.lossyChars final)]) := by
      rw [String.toList_append]
      refine (Path.toList_normalized_ofSegments (by simp)).trans ?_
      simp
    rw [← String.toList_inj, shown, whole, Pieces.led_append, Pieces.led_append,
      List.append_cancel_left_eq, ← Utf8.backslash_mem_lossyChars,
      ← Path.withSlashes_eq_self_iff, eq_comm]
    simp [led]

/-- A path with a backslash and a character cut short at the end of one name, and the
rest of that character at the start of the next. -/
def cutShort : List Bytes := [[0x61, 0x5C, 0xE2, 0x82], [0xAC, 0x5C, 0x62], Utf8.encode "c.js"]

/-- The slash stays between the halves of the character, on either side of the split. -/
theorem address_of_split_cutShort :
    (∀ part ∈ cutShort, Naming part) ∧ cutShort.getLast? = some (Utf8.encode "c.js") ∧
      address ⟨ofSegments (cutShort.take 1)⟩ ⟨ofSegments (cutShort.drop 1)⟩ =
        "/" ++ Path.normalized ⟨ofSegments cutShort⟩ := by
  have named : ∀ part ∈ cutShort, Naming part := by
    intro part inside
    fin_cases inside <;> constructor <;> decide
  refine ⟨named, rfl, ?_⟩
  exact (address_of_split named rfl (List.take_append_drop 1 cutShort) (by decide)).2.mpr
    (by decide)

end Entry

end CacheManifest
