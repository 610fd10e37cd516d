/-
# What paths are shown as

A path is shown as text, with a replacement for bytes that are none. A slash is one byte
and ends whatever is under way before it, so a path that is spelled from another one shows
each of its names as that name is read by itself. Two places below one path are then shown
alike exactly if their names read alike, one by one. Whatever is decided by what names read
as is decided alike for both of them.
-/

import CacheManifest.Proofs.Path.Below
import CacheManifest.Proofs.Text.Ascii
import CacheManifest.Proofs.Text.Pieces

namespace CacheManifest

open Pieces (led)

namespace Path

/-- A path read as text is its segments read as text. -/
theorem lossyChars_ofSegments (parts : List Bytes) :
    Utf8.lossyChars (ofSegments parts) = ['/'].intercalate (parts.map Utf8.lossyChars) := by
  induction parts with
  | nil => rfl
  | cons first others ih =>
      cases others with
      | nil => simp [List.intercalate]
      | cons second more =>
          rw [ofSegments_cons_cons, show slash = Utf8.byteOf '/' from rfl,
            Utf8.lossyChars_append_cons Utf8.oneByte_slash, ih]
          simp [List.intercalate]

/-- What is shown of a path has a line feed exactly if the path has one. -/
theorem newline_mem_display {path : Path} :
    '\n' ∈ path.display.toList ↔ Utf8.lineFeed ∈ path.bytes := by
  rw [display, Utf8.decodeLossy, String.toList_ofList, Utf8.newline_mem_lossyChars]

end Path

namespace Scan

variable {origin : Path} {place other : Location}

/-- The names on the way to a place, as they read. -/
def reading (place : Location) : List String := place.map Name.text

/-- A place is shown as the path it lies below, and each of its names behind a slash. -/
theorem toList_display_spelled (written : origin.bytes ≠ []) (below : place ≠ []) :
    (spelled origin place).display.toList = Utf8.lossyChars origin.stem ++
      led '/' (place.map fun name => Utf8.lossyChars name.bytes) := by
  rw [Path.display, Utf8.decodeLossy, String.toList_ofList, bytes_spelled written below,
    show Path.slash = Utf8.byteOf '/' from rfl, Utf8.lossyChars_append_cons Utf8.oneByte_slash,
    relativePath, Path.lossyChars_ofSegments, List.map_map,
    Pieces.led_eq_cons_intercalate (by simpa using below)]
  rfl

/-- Two places are shown alike exactly if their names read alike. -/
theorem display_spelled_eq_iff (written : origin.bytes ≠ []) (below : place ≠ [])
    (other_below : other ≠ []) :
    (spelled origin place).display = (spelled origin other).display ↔
      reading place = reading other := by
  have whole (place : Location) :
      ∀ piece ∈ place.map fun name => Utf8.lossyChars name.bytes, '/' ∉ piece := by
    rw [List.forall_mem_map]
    intro name _
    rw [Utf8.slash_mem_lossyChars]
    exact name.slash_not_mem
  rw [← String.toList_inj, toList_display_spelled written below,
    toList_display_spelled written other_below, List.append_cancel_left_eq,
    Pieces.led_injOn.eq_iff (whole place) (whole other)]
  have readings (place : Location) :
      reading place = (place.map fun name => Utf8.lossyChars name.bytes).map String.ofList := by
    rw [reading, List.map_map]
    rfl
  rw [readings, readings]
  exact (List.map_injective_iff.mpr fun _ _ => String.ofList_inj.mp).eq_iff.symm

end Scan

end CacheManifest
