/-
# The lines of a manifest

A manifest is written line by line, and each line with its line end. Cut at its
line feeds it gives these lines back if none of them has a line feed of its own,
and only then.
-/

import CacheManifest.Manifest
import CacheManifest.Proofs.Text.Ascii
import CacheManifest.Proofs.Text.Pieces

namespace CacheManifest

open Utf8 (encode lineFeed)
open Pieces (terminated splitOn_terminated_iff)

namespace Manifest

/-- The lines that a manifest is to have. -/
def lines (timestamp : String) (entries : List Entry) : List Bytes :=
  (["CACHE MANIFEST", "#" ++ timestamp, ""] ++ entries.map Entry.path ++
    ["", "NETWORK:", "*"]).map encode

theorem encode_line (entry : Entry) : encode entry.line = encode entry.path ++ [lineFeed] := by
  rw [Entry.line, Utf8.encode_append]
  rfl

theorem encode_join_lines (entries : List Entry) :
    encode (String.join (entries.map Entry.line)) =
      terminated lineFeed (entries.map fun entry => encode entry.path) := by
  induction entries with
  | nil => rfl
  | cons entry others ih =>
      rw [List.map_cons, String.join_cons, Utf8.encode_append, ih, encode_line]
      simp [terminated]

/-- A manifest is written line by line. -/
theorem encode_renderManifest (timestamp : String) (entries : List Entry) :
    encode (renderManifest timestamp entries) = terminated lineFeed (lines timestamp entries) := by
  have shape (body : String) :
      "CACHE MANIFEST\n#" ++ timestamp ++ "\n\n" ++ body ++ "\nNETWORK:\n*\n" =
        "CACHE MANIFEST" ++ "\n" ++ ("#" ++ timestamp) ++ "\n" ++ "" ++ "\n" ++ body ++
          "" ++ "\n" ++ "NETWORK:" ++ "\n" ++ "*" ++ "\n" := by
    apply String.toList_inj.mp
    simp
  have newline : encode "\n" = [lineFeed] := by rfl
  refine (congrArg encode (shape (String.join (entries.map Entry.line)))).trans ?_
  simp only [Utf8.encode_append, encode_join_lines, newline, lines, terminated, List.map_append,
    List.map_cons, List.map_nil, List.map_map, List.flatMap_append, List.flatMap_cons,
    List.flatMap_nil, List.flatMap_map, Function.comp_def, List.append_assoc, List.append_nil]

/-- Cut at its line feeds, a manifest gives its lines exactly if no entry has a
line feed in its address. -/
theorem splitOn_renderManifest_iff {timestamp : String} (one_line : '\n' ∉ timestamp.toList)
    (entries : List Entry) :
    (encode (renderManifest timestamp entries)).splitOn lineFeed =
        lines timestamp entries ++ [[]] ↔
      ∀ entry ∈ entries, '\n' ∉ entry.path.toList := by
  rw [encode_renderManifest, splitOn_terminated_iff]
  simp only [lines, List.forall_mem_map, Utf8.lineFeed_mem_encode]
  refine ⟨?_, ?_⟩
  · intro single entry inside
    apply single
    simp only [List.mem_append, List.mem_map]
    exact Or.inl (Or.inr ⟨entry, inside, rfl⟩)
  · intro single text inside
    simp only [List.mem_append, List.mem_cons, List.mem_map, List.not_mem_nil, or_false] at inside
    rcases inside with ((rfl | rfl | rfl) | ⟨entry, listed, rfl⟩) | rfl | rfl | rfl
    · decide
    · simpa using one_line
    · decide
    · exact single entry listed
    · decide
    · decide
    · decide

/-- A line that begins like an address. -/
def isAddress (line : Bytes) : Bool := line.head? == some Path.slash

/-- Only the lines of entries begin like addresses. -/
theorem countP_isAddress_lines (timestamp : String) {entries : List Entry}
    (addresses : ∀ entry ∈ entries, isAddress (encode entry.path) = true) :
    (lines timestamp entries).countP isAddress = entries.length := by
  have stamp : isAddress (encode ("#" ++ timestamp)) = false := by
    rw [Utf8.encode_append]
    rfl
  have header : isAddress (encode "CACHE MANIFEST") = false := by rfl
  have blank : isAddress (encode "") = false := by rfl
  have section_name : isAddress (encode "NETWORK:") = false := by rfl
  have wildcard : isAddress (encode "*") = false := by rfl
  have all : (entries.map fun entry => encode entry.path).countP isAddress = entries.length := by
    rw [List.countP_map, List.countP_eq_length]
    exact addresses
  simp only [lines, List.map_append, List.countP_append, List.map_cons, List.map_nil,
    List.countP_cons, List.countP_nil, List.map_map, stamp, header, blank, section_name, wildcard]
  simpa [Function.comp_def] using all

end Manifest

end CacheManifest
