/-
# The grammar of JSON texts

Which texts spell a value, told by rules. In a string a character stands for itself, or it
is given by a letter behind a backslash, or by its code units, each of them as four
hexadecimal digits in either case. A code unit that is half of a pair is no character, so
it spells nothing without the other half.

Any token may have blanks in front of it. Lists and objects have their parts in the same
way: each but the first behind a comma, and none before the end. Numbers are left out, as
nothing that is read or written here has one.

The grammar refers to no reader. That strings are read by it, and that values are written
by it, is proved in modules of their own.
-/

import Mathlib
import CacheManifest.Json.Reading
import CacheManifest.Json.Value

namespace CacheManifest

namespace Json

/-! ## Characters of a string -/

/-- A digit of a hexadecimal number, by its value. -/
def SpellsDigit (value : Nat) (digit : Char) : Prop :=
  "0123456789abcdef".toList[value]? = some digit ∨ "0123456789ABCDEF".toList[value]? = some digit

/-- A code unit as four hexadecimal digits. -/
inductive SpellsUnit : Nat → List Char → Prop
  | digits {first second third fourth : Nat} {a b c d : Char} (one : SpellsDigit first a)
      (two : SpellsDigit second b) (three : SpellsDigit third c) (four : SpellsDigit fourth d) :
      SpellsUnit (first * 4096 + second * 256 + third * 16 + fourth) [a, b, c, d]

/-- The code units of a character: its number, or two for one that does not fit in 16
bits. -/
def codeUnits (c : Char) : List Nat :=
  if c.toNat < 0x10000 then [c.toNat]
  else [0xD800 + (c.toNat - 0x10000) / 1024, 0xDC00 + (c.toNat - 0x10000) % 1024]

/-- The letters that stand for a character behind a backslash. -/
def letters : List (Char × Char) :=
  [('"', '"'), ('\\', '\\'), ('/', '/'), ('b', '\x08'), ('f', '\x0c'), ('n', '\n'), ('r', '\r'),
    ('t', '\t')]

/-- How a character may stand in a string. -/
inductive SpellsChar (c : Char) : List Char → Prop
  | plain (no_quote : c ≠ '"') (no_backslash : c ≠ '\\') (visible : 32 ≤ c.toNat) :
    SpellsChar c [c]
  | letter {letter : Char} (stands : (letter, c) ∈ letters) : SpellsChar c ['\\', letter]
  | units {digits : List (List Char)} (spelled : List.Forall₂ SpellsUnit (codeUnits c) digits) :
    SpellsChar c (digits.flatMap fun four => '\\' :: 'u' :: four)

/-- A string in its quotes. -/
inductive SpellsString (content : String) : List Char → Prop
  | quoted {pieces : List (List Char)}
    (spelled : List.Forall₂ SpellsChar content.toList pieces) :
    SpellsString content ('"' :: (pieces.flatten ++ ['"']))

/-! ## Values -/

/-- Blanks between tokens, or none. -/
def Blank (text : List Char) : Prop := ∀ c ∈ text, c = ' ' ∨ c = '\n' ∨ c = '\t' ∨ c = '\r'

/-- What stands in front of a part: blanks, and a comma unless it is the first one. -/
inductive Lead : Bool → List Char → Prop
  | first {gap : List Char} (blank : Blank gap) : Lead true gap
  | comma {gap inner : List Char} (blank : Blank gap) (blank_inner : Blank inner) :
    Lead false (gap ++ ',' :: inner)

/-- Parts of a list or object up to its end, from the first part on or from behind one. -/
inductive Parts {α : Type} (spells : α → List Char → Prop) (closing : Char) :
    Bool → List α → List Char → Prop
  | done {first : Bool} {gap : List Char} (blank : Blank gap) :
    Parts spells closing first [] (gap ++ [closing])
  | part {first : Bool} {lead text rest : List Char} {part : α} {others : List α}
    (leads : Lead first lead) (spelled : spells part text)
    (more : Parts spells closing false others rest) :
    Parts spells closing first (part :: others) (lead ++ (text ++ rest))

/-- A field of an object: its key, a colon and its value. -/
inductive SpellsField {α : Type} (spells : α → List Char → Prop) :
    String × α → List Char → Prop
  | field {key : String} {value : α} {name gap inner text : List Char}
    (named : SpellsString key name) (blank : Blank gap) (blank_inner : Blank inner)
    (spelled : spells value text) :
    SpellsField spells (key, value) (name ++ (gap ++ ':' :: (inner ++ text)))

/-- The texts of a value, without blanks around it. -/
inductive Spells : Json → List Char → Prop
  | null : Spells .null ['n', 'u', 'l', 'l']
  | boolean (value : Bool) : Spells (.boolean value) (booleanLiteral value)
  | string {content : String} {text : List Char} (spelled : SpellsString content text) :
    Spells (.string content) text
  | list {items : List Json} {text : List Char} (parts : Parts Spells ']' true items text) :
    Spells (.list items) ('[' :: text)
  | object {fields : List (String × Json)} {text : List Char}
    (parts : Parts (SpellsField Spells) '\x7d' true fields text) :
    Spells (.object fields) ('\x7b' :: text)

/-- A whole text that is one value, with blanks around it. -/
inductive Document (value : Json) : List Char → Prop
  | text {before body after : List Char} (blank : Blank before) (spelled : Spells value body)
    (blank_after : Blank after) : Document value (before ++ (body ++ after))

/-! ## Blanks and parts -/

theorem skipBlanks_of_head {c : Char} (visible : isBlank c = false) (rest : List Char) :
    skipBlanks (c :: rest) = c :: rest :=
  List.dropWhile_cons_of_neg (by simp [visible])

theorem isBlank_iff {c : Char} : isBlank c = true ↔ c = ' ' ∨ c = '\n' ∨ c = '\t' ∨ c = '\r' := by
  simp [isBlank, or_assoc]

theorem blank_nil : Blank [] := List.forall_mem_nil _

theorem blank_gap (layout : Layout) (level : Nat) : Blank (layout.gap level) := by
  cases layout with
  | compact => exact blank_nil
  | indented =>
      intro c inside
      rcases List.mem_cons.mp inside with rfl | inside
      · exact Or.inr (Or.inl rfl)
      · exact Or.inl (List.eq_of_mem_replicate inside)

theorem Blank.skipBlanks_append {gap : List Char} (blank : Blank gap) (text : List Char) :
    skipBlanks (gap ++ text) = skipBlanks text :=
  List.dropWhile_append_of_pos fun c inside => isBlank_iff.mpr (blank c inside)

theorem skipBlanks_eq_nil_iff {text : List Char} : skipBlanks text = [] ↔ Blank text := by
  simp only [skipBlanks, List.dropWhile_eq_nil_iff, isBlank_iff]
  rfl

theorem skipBlanks_eq_cons_iff {text rest : List Char} {c : Char} :
    skipBlanks text = c :: rest ↔
      ∃ gap, Blank gap ∧ text = gap ++ c :: rest ∧ isBlank c = false := by
  constructor
  · intro begins
    have whole := @List.takeWhile_append_dropWhile _ isBlank text
    have stops := List.head?_dropWhile_not isBlank text
    rw [skipBlanks] at begins
    rw [begins] at whole stops
    exact ⟨_, fun c inside => isBlank_iff.mp (List.mem_takeWhile_imp inside), whole.symm, stops⟩
  · rintro ⟨gap, blank, rfl, visible⟩
    rw [blank.skipBlanks_append, skipBlanks_of_head visible]

/-- Parts are told apart by what they stand for only. -/
theorem parts_map_iff {α β : Type} {spells : β → List Char → Prop} {closing : Char} {f : α → β}
    {first : Bool} {parts : List α} {text : List Char} :
    Parts spells closing first (parts.map f) text ↔
      Parts (fun part => spells (f part)) closing first parts text := by
  constructor
  · intro all
    induction parts generalizing first text with
    | nil =>
        cases all with
        | done blank => exact .done blank
    | cons part others ih =>
        cases all with
        | part leads spelled more => exact .part leads spelled (ih more)
  · intro all
    induction all with
    | done blank => exact .done blank
    | part leads spelled more ih => exact .part leads spelled ih

/-- The text of a value begins with a character that is neither blank nor the end of a
list. -/
theorem Spells.exists_head {value : Json} {text : List Char} (spelled : Spells value text) :
    ∃ c rest, text = c :: rest ∧ isBlank c = false ∧ c ≠ ']' := by
  cases spelled with
  | null => exact ⟨_, _, rfl, by decide, by decide⟩
  | boolean value => cases value <;> exact ⟨_, _, rfl, by decide, by decide⟩
  | string spelled =>
      cases spelled
      exact ⟨_, _, rfl, by decide, by decide⟩
  | list parts => exact ⟨_, _, rfl, by decide, by decide⟩
  | object parts => exact ⟨_, _, rfl, by decide, by decide⟩

theorem SpellsString.exists_inner {content : String} {text : List Char}
    (spelled : SpellsString content text) : ∃ inner, text = '"' :: inner := by
  cases spelled
  exact ⟨_, rfl⟩

/-- Blanks in front of a part lead to it together with what leads there. -/
theorem Lead.append {first : Bool} {lead gap : List Char} (leads : Lead first lead)
    (blank : Blank gap) : Lead first (lead ++ gap) := by
  cases leads with
  | first before => exact .first (List.forall_mem_append.mpr ⟨before, blank⟩)
  | @comma before inner blank_before blank_inner =>
      rw [List.append_assoc, List.cons_append]
      exact .comma blank_before (List.forall_mem_append.mpr ⟨blank_inner, blank⟩)

/-- A list of strings is in the grammar as its elements are, one by one. -/
theorem spells_strings_iff {contents : List String} {text : List Char} :
    Spells (.list (contents.map Json.string)) text ↔
      ∃ inner, Parts SpellsString ']' true contents inner ∧ text = '[' :: inner := by
  have same : (fun content => Spells (.string content)) = SpellsString := by
    funext content text
    exact propext ⟨fun | .string spelled => spelled, .string⟩
  constructor
  · rintro (_ | _ | _ | parts | _)
    rw [parts_map_iff, same] at parts
    exact ⟨_, parts, rfl⟩
  · rintro ⟨inner, parts, rfl⟩
    rw [← same, ← parts_map_iff] at parts
    exact .list parts

end Json

end CacheManifest
