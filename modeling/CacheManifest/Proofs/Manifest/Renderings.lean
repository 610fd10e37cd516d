/-
# What the renderings in JSON say

Every entry has a JSON form, so no entry is left out of the lines, and the list is never
replaced by an empty one. An entry is read back from its line, and the entries from the
list. A line holds one entry because the compact layout has no line feed: those in names
are escaped.

So the entries can be told from either rendering.
-/

import CacheManifest.Manifest
import CacheManifest.Proofs.Json.Encodings
import CacheManifest.Proofs.Json.Values

namespace CacheManifest

open Json (Document Numberless parse? write)

/-! ## Entries as JSON -/

/-- An entry as a JSON object. -/
def Entry.json (entry : Entry) : Json :=
  .object [("source_dir", .string entry.sourceDir), ("path", .string entry.path)]

/-- The entry that a JSON object stands for. -/
def Entry.ofJson? : Json → Option Entry
  | .object fields =>
    match fields.lookup "source_dir", fields.lookup "path" with
    | some (.string directory), some (.string path) => some ⟨directory, path⟩
    | _, _ => none
  | _ => none

/-- The entry that a JSON text stands for. -/
def Entry.read? (text : List Char) : Option Entry := (parse? text).bind Entry.ofJson?

/-- The entries of a listing that is one JSON list. -/
def readList? (listing : String) : Option (List Entry) :=
  match parse? listing.toList with
  | some (.list items) => items.mapM Entry.ofJson?
  | _ => none

theorem Entry.numberless_json (entry : Entry) : entry.json.Numberless := by
  apply Numberless.object
  intro field inside
  rcases List.mem_pair.mp inside with rfl | rfl
  · exact .string _
  · exact .string _

theorem Entry.ofJson?_json (entry : Entry) : Entry.ofJson? entry.json = some entry := by
  have path : (("path" : String) == "source_dir") = false := by decide
  simp [Entry.json, Entry.ofJson?, List.lookup, path]

theorem Entry.parse?_compact (entry : Entry) : parse? entry.json.compact = some entry.json := by
  have parsed := Json.parse?_write entry.numberless_json .compact 0
    (show Json.skipBlanks [] = [] from rfl)
  rwa [List.append_nil] at parsed

theorem Entry.read?_compact (entry : Entry) : Entry.read? entry.json.compact = some entry := by
  rw [Entry.read?, entry.parse?_compact, Option.bind_some, Entry.ofJson?_json]

theorem numberless_list (entries : List Entry) :
    (Json.list (entries.map Entry.json)).Numberless :=
  .list _ (List.forall_mem_map.mpr fun entry _ => entry.numberless_json)

/-- Entries are read back from the text of their list, with blanks behind it or without. -/
theorem readList?_of_written {entries : List Entry} {text : String} {tail : List Char}
    (blank : Json.skipBlanks tail = [])
    (written : text.toList = write .indented 0 (.list (entries.map Entry.json)) ++ tail) :
    readList? text = some entries := by
  have each : (Entry.ofJson? ∘ Entry.json) = fun entry => pure entry := funext Entry.ofJson?_json
  rw [readList?, written, Json.parse?_write (numberless_list entries) .indented 0 blank]
  show (entries.map Entry.json).mapM Entry.ofJson? = some entries
  rw [List.mapM_map, each, List.mapM_pure, List.map_id']
  rfl

theorem Entry.encoded_eq (entry : Entry) : entry.encoded = .ok entry.json := rfl

theorem encoded_entries_eq (entries : List Entry) :
    Json.ofItems Entry.encoded entries = .ok (.list (entries.map Entry.json)) := by
  refine Json.ofItems_eq_ok_iff.mpr ⟨_, rfl, ?_⟩
  rw [List.forall₂_map_right_iff, List.forall₂_same]
  exact fun entry _ => entry.encoded_eq

/-! ## The renderings -/

theorem renderEntries_lines (entries : List Entry) :
    renderEntries entries .lines =
      "\n".intercalate (entries.map fun entry => String.ofList entry.json.compact) := by
  simp only [renderEntries, Entry.encoded_eq, Except.toOption, Option.map_some]
  exact congrArg ("\n".intercalate) (congrFun List.filterMap_eq_map entries)

theorem toList_renderEntries_json (entries : List Entry) :
    (renderEntries entries .json).toList = write .indented 0 (.list (entries.map Entry.json)) := by
  simp only [renderEntries, encoded_entries_eq, String.toList_ofList, Json.indented]

/-- The lines of a text. The empty text has none. -/
def linesOf (text : String) : List (List Char) :=
  if text = "" then [] else text.toList.splitOn '\n'

theorem compact_ne_nil (entry : Entry) : entry.json.compact ≠ [] := by
  obtain ⟨c, rest, begins, -⟩ := entry.numberless_json.exists_head .compact 0
  rw [Json.compact, begins]
  exact List.cons_ne_nil c rest

/-- The lines are the compact texts of the entries, one for each. -/
theorem linesOf_renderEntries (entries : List Entry) :
    linesOf (renderEntries entries .lines) = entries.map fun entry => entry.json.compact := by
  cases entries with
  | nil => rfl
  | cons first others =>
      have joined : (renderEntries (first :: others) .lines).toList =
          ['\n'].intercalate ((first :: others).map fun entry => entry.json.compact) := by
        rw [renderEntries_lines, String.toList_intercalate, List.map_map]
        simp [Function.comp_def]
      have single : ∀ line ∈ (first :: others).map fun entry => entry.json.compact, '\n' ∉ line :=
        List.forall_mem_map.mpr fun entry _ =>
          Json.newline_not_mem_compact entry.numberless_json 0
      have cut := List.splitOn_intercalate '\n' single (List.cons_ne_nil _ _)
      rw [← joined] at cut
      have some_text : renderEntries (first :: others) .lines ≠ "" := by
        intro empty
        rw [empty] at cut
        exact compact_ne_nil first (List.cons.inj cut).1.symm
      rw [linesOf, if_neg some_text, cut]

/-- A line is a JSON object with the two names of an entry, and is read as the entry. -/
structure Tells (entry : Entry) (line : List Char) : Prop where
  spelled : Json.Spells entry.json line
  parsed : parse? line = some entry.json
  read : Entry.read? line = some entry

/-- Nothing is lost where entries are rendered in JSON. -/
structure Lossless (entries : List Entry) : Prop where
  encoded : ∀ entry ∈ entries, entry.encoded = .ok entry.json
  encoded_list : Json.ofItems Entry.encoded entries = .ok (.list (entries.map Entry.json))
  lines : List.Forall₂ Tells entries (linesOf (renderEntries entries .lines))
  list : Json.Spells (.list (entries.map Entry.json)) (renderEntries entries .json).toList
  read_list : readList? (renderEntries entries .json) = some entries

theorem tells_compact (entry : Entry) : Tells entry entry.json.compact where
  spelled := entry.numberless_json.spells .compact 0
  parsed := entry.parse?_compact
  read := entry.read?_compact

theorem lossless (entries : List Entry) : Lossless entries where
  encoded entry _ := entry.encoded_eq
  encoded_list := encoded_entries_eq entries
  lines := by
    rw [linesOf_renderEntries, List.forall₂_map_right_iff, List.forall₂_same]
    exact fun entry _ => tells_compact entry
  list := by
    rw [toList_renderEntries_json]
    exact (numberless_list entries).spells .indented 0
  read_list :=
    readList?_of_written (show Json.skipBlanks [] = [] from rfl) (by
      rw [List.append_nil, toList_renderEntries_json])

/-- The renderings in JSON lose nothing, so each of them tells the entries. -/
theorem renderEntries_lossless :
    (∀ entries, Lossless entries) ∧ Function.Injective (renderEntries · .lines) ∧
      Function.Injective (renderEntries · .json) := by
  refine ⟨lossless, ?_, ?_⟩
  · intro first second same
    have tells : Relator.LeftUnique Tells := by
      intro one line other read_one read_other
      exact Option.some.inj (read_one.read.symm.trans read_other.read)
    have lines := (lossless first).lines
    rw [show renderEntries first .lines = renderEntries second .lines from same] at lines
    exact List.left_unique_forall₂' tells lines (lossless second).lines
  · intro first second same
    have read := congrArg readList? same
    exact Option.some.inj
      (((lossless first).read_list.symm.trans read).trans (lossless second).read_list)

end CacheManifest
