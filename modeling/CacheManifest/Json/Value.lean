/-
# JSON values and their two layouts

Values keep the order of their fields, and a number is kept as it was written.
The compact layout has no blanks; the indented one gives each element a line
and two spaces per level, and leaves empty lists and objects on one line.

In strings only the quote, the backslash and the control characters are
escaped, so text is written as it is wherever the format allows it.
-/

import CacheManifest.Text.Quoted

namespace CacheManifest

/-- A JSON value. -/
inductive Json where
  | null
  | boolean (value : Bool)
  | number (literal : List Char)
  | string (value : String)
  | list (items : List Json)
  | object (fields : List (String × Json))
deriving Inhabited

namespace Json

/-- A character inside a JSON string. -/
def escaped (c : Char) : List Char :=
  if c = '"' ∨ c = '\\' then ['\\', c]
  else if c = '\x08' then ['\\', 'b']
  else if c = '\t' then ['\\', 't']
  else if c = '\n' then ['\\', 'n']
  else if c = '\x0c' then ['\\', 'f']
  else if c = '\r' then ['\\', 'r']
  else if c.toNat < 32 then
    ['\\', 'u', '0', '0', Quoted.hexDigit (c.toNat / 16), Quoted.hexDigit (c.toNat % 16)]
  else [c]

/-- A text as a JSON string. -/
def stringLiteral (text : String) : List Char :=
  '"' :: text.toList.flatMap escaped ++ ['"']

/-- The literal of a truth value. -/
def booleanLiteral : Bool → List Char
  | true => ['t', 'r', 'u', 'e']
  | false => ['f', 'a', 'l', 's', 'e']

/-- A line end and the indentation of a level. -/
def newline (level : Nat) : List Char := '\n' :: List.replicate (2 * level) ' '

/-- How the parts of lists and objects are set apart. -/
inductive Layout where
  | compact
  | indented
deriving DecidableEq, Repr

/-- What stands before an element at a level. -/
def Layout.gap : Layout → Nat → List Char
  | .compact, _ => []
  | .indented, level => newline level

/-- What stands between a key and its value. -/
def Layout.colon : Layout → List Char
  | .compact => [':']
  | .indented => [':', ' ']

mutual

/-- A value in a layout, at a level of nesting. -/
def write (layout : Layout) (level : Nat) : Json → List Char
  | .null => ['n', 'u', 'l', 'l']
  | .boolean value => booleanLiteral value
  | .number literal => literal
  | .string value => stringLiteral value
  | .list [] => ['[', ']']
  | .list (first :: others) =>
    '[' :: layout.gap (level + 1) ++ write layout (level + 1) first ++
      writeItems layout (level + 1) others ++ layout.gap level ++ [']']
  | .object [] => ['\x7b', '\x7d']
  | .object (first :: others) =>
    '\x7b' :: layout.gap (level + 1) ++ writeField layout (level + 1) first ++
      writeFields layout (level + 1) others ++ layout.gap level ++ ['\x7d']

/-- The elements of a list after the first. -/
def writeItems (layout : Layout) (level : Nat) : List Json → List Char
  | [] => []
  | item :: others =>
    ',' :: layout.gap level ++ write layout level item ++ writeItems layout level others

/-- A field of an object. -/
def writeField (layout : Layout) (level : Nat) : String × Json → List Char
  | (key, value) => stringLiteral key ++ layout.colon ++ write layout level value

/-- The fields of an object after the first. -/
def writeFields (layout : Layout) (level : Nat) : List (String × Json) → List Char
  | [] => []
  | field :: others =>
    ',' :: layout.gap level ++ writeField layout level field ++ writeFields layout level others

end

/-- A value without blanks. -/
def compact (value : Json) : List Char := write .compact 0 value

/-- A value with a line for each element. -/
def indented (value : Json) : List Char := write .indented 0 value

end Json

end CacheManifest
