/-
# The manifest text and the listings

A manifest opens with its header line and a comment that holds the time it was
made at, so that it changes with every run. Then come the entries, one line
each, and the section that leaves all other addresses to the network.

The entries alone can be listed as text, as one JSON object per line, or as one
JSON list. An entry without a JSON form would be left out of the lines, and it would
make the list an empty one.
-/

import CacheManifest.Entry
import CacheManifest.Json.Encoding

namespace CacheManifest

/-- The manifest of entries, made at a time. -/
def renderManifest (timestamp : String) (entries : List Entry) : String :=
  "CACHE MANIFEST\n#" ++ timestamp ++ "\n\n" ++ String.join (entries.map Entry.line) ++
    "\nNETWORK:\n*\n"

/-- An entry as a JSON value. -/
def Entry.encoded (entry : Entry) : Except Json.EncodeError Json :=
  Json.ofFields [("source_dir", Json.ofText entry.sourceDir), ("path", Json.ofText entry.path)]

/-- How entries are listed. -/
inductive ListFormat where
  | text
  | lines
  | json
deriving DecidableEq, Repr

namespace ListFormat

/-- The format that a name stands for, in any case. Only the ASCII letters have
to be folded: no other character has a letter of these names as its lower
case. -/
def ofName? (name : String) : Option ListFormat :=
  let lower := name.map Char.toLower
  if lower = "text" ∨ lower = "txt" then some text
  else if lower = "jsonl" then some lines
  else if lower = "json" then some json
  else none

end ListFormat

/-- Entries in a format, without a line end after the last. -/
def renderEntries (entries : List Entry) : ListFormat → String
  | .text => "\n".intercalate (entries.map Entry.path)
  | .lines =>
    "\n".intercalate (entries.filterMap fun entry =>
      entry.encoded.toOption.map fun value => String.ofList value.compact)
  | .json =>
    match Json.ofItems Entry.encoded entries with
    | .ok value => String.ofList value.indented
    | .error _ => "[]"

end CacheManifest
