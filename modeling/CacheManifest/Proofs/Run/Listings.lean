/-
# What a listing says

A listing in JSON is the rendering of the entries with a line end behind it, if there is
anything to show. It is read back either line by line, blank lines aside, or as one list,
and gives the entries it was made from.

A listing as text is the block of lines that the manifest has. Its entries cannot be
told from it, since names are written as they are there.
-/

import CacheManifest.Run
import CacheManifest.Proofs.Manifest.Renderings
import CacheManifest.Proofs.Text.Pieces

namespace CacheManifest

open Json (write)
open Pieces (terminated)

/-! ## Reading a listing -/

/-- The entries of a listing with one JSON text a line, blank lines aside. -/
def readLines? (listing : String) : Option (List Entry) :=
  ((listing.toList.splitOn '\n').filter fun line => Json.skipBlanks line ≠ []).mapM Entry.read?

/-! ## Listings -/

namespace Run

/-- Lines that are not empty, shown with a line end behind the last of them. -/
theorem shown_lines {texts : List String} (visible : ∀ text ∈ texts, text ≠ "") :
    (if "\n".intercalate texts = "" then "" else "\n".intercalate texts ++ "\n") =
      String.join (texts.map fun text => text ++ "\n") := by
  cases texts with
  | nil => rfl
  | cons first others =>
      have ended : "\n".intercalate (first :: others) ++ "\n" =
          String.join ((first :: others).map fun text => text ++ "\n") := by
        clear visible
        induction others generalizing first with
        | nil => simp [String.join_cons]
        | cons next others ih =>
            rw [String.intercalate_cons_cons, List.map_cons, String.join_cons, ← ih next]
            simp [String.append_assoc]
      have some_text : "\n".intercalate (first :: others) ≠ "" := by
        cases others with
        | nil => simpa using visible
        | cons next others => simp [String.intercalate_cons_cons, visible first]
      rw [if_neg some_text, ended]

/-- The text listing is made of the lines of the entries. -/
theorem listing_text {entries : List Entry} (named : ∀ entry ∈ entries, entry.path ≠ "") :
    listing .text entries = String.join (entries.map Entry.line) := by
  refine (shown_lines (List.forall_mem_map.mpr named)).trans ?_
  rw [List.map_map]
  rfl

theorem toList_listing_lines (entries : List Entry) :
    (listing .lines entries).toList =
      terminated '\n' (entries.map fun entry => entry.json.compact) := by
  have visible : ∀ entry ∈ entries, String.ofList entry.json.compact ≠ "" :=
    fun entry _ => Json.ofList_write_ne_empty entry.numberless_json .compact 0
  have shown : listing .lines entries = String.join
      ((entries.map fun entry => String.ofList entry.json.compact).map fun text => text ++ "\n") := by
    rw [listing, renderEntries_lines]
    exact shown_lines (List.forall_mem_map.mpr visible)
  rw [shown]
  simp [terminated, String.toList_join, List.flatMap_map]

/-- A listing line by line is read back. -/
theorem readLines?_listing (entries : List Entry) :
    readLines? (listing .lines entries) = some entries := by
  have cut : (terminated '\n' (entries.map fun entry => entry.json.compact)).splitOn '\n' =
      (entries.map fun entry => entry.json.compact) ++ [[]] := by
    rw [Pieces.splitOn_terminated_iff, List.forall_mem_map]
    exact fun entry inside => Json.newline_not_mem_compact entry.numberless_json 0
  have kept : ∀ line ∈ entries.map fun entry : Entry => entry.json.compact,
      decide (Json.skipBlanks line ≠ []) = true := by
    rw [List.forall_mem_map]
    intro entry inside
    obtain ⟨c, rest, begins, visible, -⟩ := entry.numberless_json.exists_head .compact 0
    rw [Json.compact, begins, Json.skipBlanks_of_head visible]
    rfl
  have each : (Entry.read? ∘ fun entry : Entry => entry.json.compact) = fun entry => pure entry :=
    funext Entry.read?_compact
  rw [readLines?, toList_listing_lines, cut, List.filter_append, List.filter_eq_self.mpr kept]
  show ((entries.map fun entry : Entry => entry.json.compact) ++ []).mapM Entry.read? = some entries
  rw [List.append_nil, List.mapM_map, each, List.mapM_pure, List.map_id']
  rfl

/-- A listing as one list is read back. -/
theorem readList?_listing (entries : List Entry) :
    readList? (listing .json entries) = some entries := by
  have rendered := toList_renderEntries_json entries
  have visible : renderEntries entries .json ≠ "" := by
    rw [← String.ofList_toList (s := renderEntries entries .json), rendered]
    exact Json.ofList_write_ne_empty (numberless_list entries) .indented 0
  have shown : (listing .json entries).toList =
      write .indented 0 (.list (entries.map Entry.json)) ++ ['\n'] := by
    rw [listing, if_neg visible, ← rendered]
    simp
  exact readList?_of_written (show Json.skipBlanks ['\n'] = [] from rfl) shown

end Run

end CacheManifest
