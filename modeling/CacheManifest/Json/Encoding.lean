/-
# What becomes a JSON value

A text always has a JSON form, a path only if it is text. A list has one if all its
elements have, and a record if all its fields have; otherwise the first of them that has
none is the reason why the whole has none.
-/

import CacheManifest.Json.Value

namespace CacheManifest

namespace Json

/-- Why something has no JSON form. -/
inductive EncodeError where
  | pathNotText
deriving DecidableEq, Repr

/-- A text as a JSON value. -/
def ofText (text : String) : Except EncodeError Json := .ok (.string text)

/-- A path as a JSON value. -/
def ofPath (path : Path) : Except EncodeError Json :=
  match Utf8.decode? path.bytes with
  | some text => .ok (.string text)
  | none => .error .pathNotText

/-- Elements as a JSON list, given what each of them becomes. -/
def ofItems {α : Type} (encode : α → Except EncodeError Json) (items : List α) :
    Except EncodeError Json :=
  (items.mapM encode).map .list

/-- A named field, given what its value becomes. -/
def ofField (field : String × Except EncodeError Json) : Except EncodeError (String × Json) :=
  field.2.map fun value => (field.1, value)

/-- Named fields as a JSON object. -/
def ofFields (fields : List (String × Except EncodeError Json)) : Except EncodeError Json :=
  (fields.mapM ofField).map .object

end Json

end CacheManifest
