/-
# The addresses of listed files

The address of a file is read off the names on the way to it: those of its source
directory, those of the directories below, and its own. Only the last is kept as
it is; but a backslash is all that is changed in the others, so an address has a
line feed exactly if one of the names has.
-/

import CacheManifest.Proofs.Scan.Exactness
import CacheManifest.Proofs.Manifest.Lines
import CacheManifest.Proofs.Path.Naming

namespace CacheManifest

open Utf8 (lineFeed)

namespace Scan

/-- A relative path made of names spells just these. -/
theorem spelling_relativePath {place : Location} (below : place ≠ []) :
    (relativePath place).spelling = ⟨.unanchored, place.map Name.bytes⟩ :=
  Path.spelling_ofSegments (by simpa using below) (Name.naming_of_mem_map place)

theorem names_relativePath (place : Location) :
    (relativePath place).names = place.map Name.bytes :=
  Path.names_ofSegments (Name.naming_of_mem_map place)

theorem fileName_relativePath (front : Location) (last : Name) :
    (relativePath (front ++ [last])).fileName = some last.bytes := by
  have named := Name.naming_of_mem_map (front ++ [last])
  rw [List.map_append, List.map_singleton] at named
  rw [relativePath, List.map_append, List.map_singleton, Path.fileName_ofSegments named]

theorem parent_relativePath (front : Location) (last : Name) :
    (relativePath (front ++ [last])).parent = some (relativePath front) := by
  have named := Name.naming_of_mem_map (front ++ [last])
  rw [List.map_append, List.map_singleton] at named
  rw [relativePath, List.map_append, List.map_singleton, Path.parent_ofSegments named]
  rfl

/-! ## Line feeds in addresses -/

/-- The address of a listed file, told by the names on the way to it. -/
theorem addressChars_relativePath (directory : Path) (front : Location) (last : Name) :
    Entry.addressChars directory (relativePath (front ++ [last])) =
      (directory.names ++ front.map Name.bytes).flatMap Entry.directorySegment ++
        Entry.fileSegment last.bytes := by
  rw [Entry.addressChars, parent_relativePath, fileName_relativePath, Option.getD_some,
    names_relativePath]

theorem newline_mem_withSlashes {text : List Char} :
    '\n' ∈ Path.withSlashes text ↔ '\n' ∈ text := by
  rw [Path.withSlashes, List.mem_map]
  refine ⟨?_, ?_⟩
  · rintro ⟨c, inside, shown⟩
    split at shown
    · cases shown
    · exact shown ▸ inside
  · exact fun inside => ⟨_, inside, by decide⟩

theorem newline_mem_directorySegment {name : Bytes} :
    '\n' ∈ Entry.directorySegment name ↔ lineFeed ∈ name := by
  simp [Entry.directorySegment, newline_mem_withSlashes, Utf8.newline_mem_lossyChars]

theorem newline_mem_fileSegment {name : Bytes} :
    '\n' ∈ Entry.fileSegment name ↔ lineFeed ∈ name := by
  simp [Entry.fileSegment, Utf8.newline_mem_lossyChars]

/-- An address has a line feed exactly if a name on the way to the file has. -/
theorem newline_mem_address {directory : Path} {place : Location} (below : place ≠ []) :
    '\n' ∈ (Entry.address directory (relativePath place)).toList ↔
      (∃ name ∈ directory.names, lineFeed ∈ name) ∨ ∃ name ∈ place, lineFeed ∈ name.bytes := by
  obtain ⟨front, last, rfl⟩ := List.eq_nil_or_concat' place |>.resolve_left below
  rw [Entry.address, String.toList_ofList, addressChars_relativePath]
  simp only [List.mem_append, List.mem_flatMap, newline_mem_directorySegment,
    newline_mem_fileSegment, List.mem_map, List.mem_singleton]
  refine ⟨?_, ?_⟩
  · rintro (⟨name, listed | ⟨outer, inside, rfl⟩, feed⟩ | feed)
    · exact Or.inl ⟨name, listed, feed⟩
    · exact Or.inr ⟨outer, Or.inl inside, feed⟩
    · exact Or.inr ⟨last, Or.inr rfl, feed⟩
  · rintro (⟨name, listed, feed⟩ | ⟨name, inside | rfl, feed⟩)
    · exact Or.inl ⟨name, Or.inl listed, feed⟩
    · exact Or.inl ⟨name.bytes, Or.inr ⟨name, inside, rfl⟩, feed⟩
    · exact Or.inr feed

/-- Every address begins with a slash. -/
theorem isAddress_address (directory : Path) {place : Location} (below : place ≠ []) :
    Manifest.isAddress (Utf8.encode (Entry.address directory (relativePath place))) = true := by
  obtain ⟨front, last, rfl⟩ := List.eq_nil_or_concat' place |>.resolve_left below
  have starts : ∃ rest, Entry.addressChars directory (relativePath (front ++ [last])) =
      '/' :: rest := by
    rw [addressChars_relativePath]
    cases directory.names ++ front.map Name.bytes with
    | nil => exact ⟨_, rfl⟩
    | cons first others => exact ⟨_, rfl⟩
  obtain ⟨rest, shape⟩ := starts
  rw [Entry.address, Utf8.encode, String.toList_ofList, shape]
  rfl

end Scan

end CacheManifest
