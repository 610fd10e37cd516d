/-
# The segments of an address

An address is led by its segments, each with a slash before it. The name of a file
is one segment, kept as it is. The name of a directory is cut at its backslashes,
as these are read as separators, and is one segment if it has none. No segment has
a slash, so an address and its segments determine each other.
-/

import CacheManifest.Proofs.Manifest.Addresses
import CacheManifest.Proofs.Path.Components
import CacheManifest.Proofs.Text.WellFormed

namespace CacheManifest

open Pieces (led)
open Scan (relativePath)

/-- Reading backslashes as slashes changes nothing exactly if there are none. -/
theorem Path.withSlashes_eq_self_iff {text : List Char} :
    withSlashes text = text ↔ '\\' ∉ text := by
  constructor
  · intro unchanged inside
    rw [← unchanged, withSlashes] at inside
    obtain ⟨c, -, read⟩ := List.mem_map.mp inside
    split at read
    · cases read
    · contradiction
  · intro absent
    refine (List.map_congr_left fun c inside => if_neg ?_).trans (List.map_id _)
    rintro rfl
    exact absent inside

namespace Entry

/-- The segments that the name of a directory gives, read with every backslash for
a separator. -/
def directorySegments (name : Bytes) : List (List Char) :=
  (Path.withSlashes (Utf8.lossyChars name)).splitOn '/'

/-- The names of the directories on the way to a file, from the project root on. -/
def directoryNames (directory : Path) (place : Location) : List Bytes :=
  directory.names ++ place.dropLast.map Name.bytes

/-- The segments of the address of a file. -/
def segments (directory : Path) (place : Location) : List (List Char) :=
  (directoryNames directory place).flatMap directorySegments ++
    place.getLast?.toList.map fun name => Utf8.lossyChars name.bytes

theorem led_directorySegments (name : Bytes) :
    led '/' (directorySegments name) = directorySegment name :=
  Pieces.led_splitOn _

/-- An address is led by its segments. -/
theorem toList_address {directory : Path} {place : Location} (below : place ≠ []) :
    (address directory (relativePath place)).toList = led '/' (segments directory place) := by
  obtain ⟨front, last, rfl⟩ := List.eq_nil_or_concat' place |>.resolve_left below
  rw [address, String.toList_ofList, Scan.addressChars_relativePath, segments, directoryNames,
    List.dropLast_concat, List.getLast?_concat, Pieces.led_append]
  congr 1
  · induction directory.names ++ front.map Name.bytes with
    | nil => rfl
    | cons name others ih =>
        rw [List.flatMap_cons, List.flatMap_cons, Pieces.led_append, led_directorySegments, ih]
  · simp [led, fileSegment]

/-- No segment of an address has a slash. -/
theorem slash_not_mem_of_mem_segments {directory : Path} {place : Location}
    {segment : List Char} (inside : segment ∈ segments directory place) : '/' ∉ segment := by
  rcases List.mem_append.mp inside with above | own
  · obtain ⟨name, -, cut⟩ := List.mem_flatMap.mp above
    exact Pieces.not_mem_of_mem_splitOn cut
  · obtain ⟨name, -, rfl⟩ := List.mem_map.mp own
    rw [Utf8.slash_mem_lossyChars]
    exact name.slash_not_mem

/-- Cut at its slashes, an address gives its segments back. -/
theorem splitOn_address {directory : Path} {place : Location} (below : place ≠ []) :
    (address directory (relativePath place)).toList.splitOn '/' =
      [] :: segments directory place := by
  rw [toList_address below]
  exact Pieces.splitOn_led fun _ inside => slash_not_mem_of_mem_segments inside

/-- Two files have the same address exactly if the segments are the same. -/
theorem address_eq_iff {directory other : Path} {place elsewhere : Location}
    (below : place ≠ []) (other_below : elsewhere ≠ []) :
    address directory (relativePath place) = address other (relativePath elsewhere) ↔
      segments directory place = segments other elsewhere := by
  rw [← String.toList_inj, toList_address below, toList_address other_below]
  exact Pieces.led_injOn.eq_iff (fun _ inside => slash_not_mem_of_mem_segments inside)
    fun _ inside => slash_not_mem_of_mem_segments inside

/-! ## Names without backslashes -/

/-- A directory name without separators of either kind is one segment. -/
theorem directorySegments_eq_singleton {name : Bytes} (no_slash : Path.slash ∉ name)
    (no_backslash : Path.backslash ∉ name) :
    directorySegments name = [Utf8.lossyChars name] := by
  have unchanged : Path.withSlashes (Utf8.lossyChars name) = Utf8.lossyChars name := by
    rwa [Path.withSlashes_eq_self_iff, Utf8.backslash_mem_lossyChars]
  rw [directorySegments, unchanged]
  apply List.splitOn_eq_singleton
  rwa [Utf8.slash_mem_lossyChars]

theorem slash_not_mem_of_mem_directoryNames {directory : Path} {place : Location} {name : Bytes}
    (inside : name ∈ directoryNames directory place) : Path.slash ∉ name := by
  rcases List.mem_append.mp inside with configured | below
  · exact Path.slash_not_mem_of_mem_names configured
  · obtain ⟨entered, -, rfl⟩ := List.mem_map.mp below
    exact entered.slash_not_mem

/-- Without backslashes in the directory names, the segments of an address are the
names on the way to the file, as text. -/
theorem segments_eq_map {directory : Path} {place : Location} (below : place ≠ [])
    (plain : ∀ name ∈ directoryNames directory place, Path.backslash ∉ name) :
    segments directory place =
      (directory.names ++ place.map Name.bytes).map Utf8.lossyChars := by
  have each : (directoryNames directory place).flatMap directorySegments =
      (directoryNames directory place).map Utf8.lossyChars := by
    rw [List.map_eq_flatMap]
    apply List.flatMap_congr
    intro name inside
    exact directorySegments_eq_singleton (slash_not_mem_of_mem_directoryNames inside)
      (plain name inside)
  rw [segments, each]
  obtain ⟨front, last, rfl⟩ := List.eq_nil_or_concat' place |>.resolve_left below
  simp [directoryNames]

end Entry

end CacheManifest
