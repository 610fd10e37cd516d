/-
# Values that are written

What is written for a value, in either layout and at any level, is one of the texts that
the grammar has for it. A reader that is right for the grammar therefore reads it back.

In the compact layout the text is a single line: it has no blanks between its tokens, and a
line feed in a string is escaped.
-/

import CacheManifest.Proofs.Json.Strings

namespace CacheManifest

namespace Json

/-- A value without numbers in it. -/
inductive Numberless : Json → Prop where
  | null : Numberless .null
  | boolean (value : Bool) : Numberless (.boolean value)
  | string (value : String) : Numberless (.string value)
  | list (items : List Json) (each : ∀ item ∈ items, Numberless item) : Numberless (.list items)
  | object (fields : List (String × Json)) (each : ∀ field ∈ fields, Numberless field.2) :
    Numberless (.object fields)

theorem writeItems_eq (layout : Layout) (level : Nat) (items : List Json) :
    writeItems layout level items =
      items.flatMap fun item => ',' :: layout.gap level ++ write layout level item := by
  induction items with
  | nil => rw [writeItems, List.flatMap_nil]
  | cons item others ih => rw [writeItems, ih, List.flatMap_cons]

theorem writeFields_eq (layout : Layout) (level : Nat) (fields : List (String × Json)) :
    writeFields layout level fields =
      fields.flatMap fun field => ',' :: layout.gap level ++ writeField layout level field := by
  induction fields with
  | nil => rw [writeFields, List.flatMap_nil]
  | cons field others ih => rw [writeFields, ih, List.flatMap_cons]

/-- The parts that are written behind the first one, up to the end. -/
theorem parts_written {α : Type} {spells : α → List Char → Prop} {written : α → List Char}
    (closing : Char) (layout : Layout) (level outer : Nat) {parts : List α}
    (each : ∀ part ∈ parts, spells part (written part)) :
    Parts spells closing false parts
      (parts.flatMap (fun part => ',' :: layout.gap level ++ written part) ++
        (layout.gap outer ++ [closing])) := by
  induction parts with
  | nil => exact .done (blank_gap layout outer)
  | cons part others ih =>
      obtain ⟨here, later⟩ := List.forall_mem_cons.mp each
      have all := Parts.part (.comma blank_nil (blank_gap layout level)) here (ih later)
      simpa using all

theorem spellsField_written {layout : Layout} {level : Nat} {value : Json}
    (spelled : Spells value (write layout level value)) (key : String) :
    SpellsField Spells (key, value) (writeField layout level (key, value)) := by
  have named := spellsString_stringLiteral key
  have blank_space : Blank [' '] := List.forall_mem_singleton.mpr (Or.inl rfl)
  rw [writeField]
  cases layout with
  | compact => simpa [Layout.colon] using SpellsField.field named blank_nil blank_nil spelled
  | indented => simpa [Layout.colon] using SpellsField.field named blank_nil blank_space spelled

/-- What is written for a value is one of its texts. -/
theorem Numberless.spells {value : Json} (numberless : value.Numberless) (layout : Layout)
    (level : Nat) : Spells value (write layout level value) := by
  induction numberless generalizing level with
  | null =>
      rw [write]
      exact .null
  | boolean value =>
      rw [write]
      exact .boolean value
  | string text =>
      rw [write]
      exact .string (spellsString_stringLiteral text)
  | list items _ ih =>
      cases items with
      | nil =>
          rw [write]
          exact .list (.done blank_nil)
      | cons item others =>
          obtain ⟨here, later⟩ := List.forall_mem_cons.mp ih
          have parts := Parts.part (.first (blank_gap layout (level + 1))) (here (level + 1))
            (parts_written ']' layout (level + 1) level fun other inside =>
              later other inside (level + 1))
          rw [write, writeItems_eq]
          simpa using Spells.list parts
  | object fields _ ih =>
      cases fields with
      | nil =>
          rw [write]
          exact .object (.done blank_nil)
      | cons field others =>
          obtain ⟨here, later⟩ := List.forall_mem_cons.mp ih
          have parts := Parts.part (.first (blank_gap layout (level + 1)))
            (spellsField_written (here (level + 1)) field.1)
            (parts_written '\x7d' layout (level + 1) level fun other inside =>
              spellsField_written (later other inside (level + 1)) other.1)
          rw [write, writeFields_eq]
          simpa using Spells.object parts

theorem Numberless.exists_head {value : Json} (numberless : value.Numberless) (layout : Layout)
    (level : Nat) :
    ∃ c rest, write layout level value = c :: rest ∧ isBlank c = false ∧ c ≠ ']' :=
  (numberless.spells layout level).exists_head

/-- So a text that is written is a document, with blanks behind it or without. -/
theorem Numberless.document {value : Json} (numberless : value.Numberless) (layout : Layout)
    (level : Nat) {tail : List Char} (blank : Blank tail) :
    Document value (write layout level value ++ tail) :=
  .text blank_nil (numberless.spells layout level) blank

/-! ## Line feeds in compact texts -/

theorem newline_ne_hexDigit {value : Nat} (small : value < 16) :
    '\n' ≠ Quoted.hexDigit value := by
  have all : ∀ value : Fin 16, '\n' ≠ Quoted.hexDigit value.val := by decide
  exact all ⟨value, small⟩

theorem newline_not_mem_escaped (c : Char) : '\n' ∉ escaped c := by
  rw [escaped]
  split_ifs with reserved backspace tab line_feed form_feed carriage_return control
  · rcases reserved with rfl | rfl <;> decide
  · decide
  · decide
  · decide
  · decide
  · decide
  · have high : '\n' ≠ Quoted.hexDigit (c.toNat / 16) := newline_ne_hexDigit (by omega)
    have low : '\n' ≠ Quoted.hexDigit (c.toNat % 16) := newline_ne_hexDigit (by omega)
    simp [high, low]
  · simpa using Ne.symm line_feed

theorem newline_not_mem_stringLiteral (text : String) : '\n' ∉ stringLiteral text := by
  simp [stringLiteral, newline_not_mem_escaped]

theorem newline_not_mem_writeField {value : Json} {level : Nat}
    (plain : '\n' ∉ write .compact level value) (key : String) :
    '\n' ∉ writeField .compact level (key, value) := by
  simp [writeField, newline_not_mem_stringLiteral, Layout.colon, plain]

/-- A compact text is a single line. -/
theorem newline_not_mem_compact {value : Json} (numberless : value.Numberless) (level : Nat) :
    '\n' ∉ write .compact level value := by
  induction numberless generalizing level with
  | null => rw [write]; decide
  | boolean value => cases value <;> (rw [write]; decide)
  | string text =>
      rw [write]
      exact newline_not_mem_stringLiteral text
  | list items each ih =>
      cases items with
      | nil => rw [write]; decide
      | cons first others =>
          obtain ⟨here, later⟩ := List.forall_mem_cons.mp ih
          rw [write, writeItems_eq]
          simpa [Layout.gap, here] using fun item inside => later item inside (level + 1)
  | object fields each ih =>
      cases fields with
      | nil => rw [write]; decide
      | cons first others =>
          obtain ⟨here, later⟩ := List.forall_mem_cons.mp ih
          rw [write, writeFields_eq]
          simpa [Layout.gap, newline_not_mem_writeField (here (level + 1)) first.1] using
            fun key value inside =>
              newline_not_mem_writeField (later (key, value) inside (level + 1)) key

theorem ofList_write_ne_empty {value : Json} (numberless : value.Numberless)
    (layout : Layout) (level : Nat) : String.ofList (write layout level value) ≠ "" := by
  obtain ⟨c, rest, begins, -⟩ := numberless.exists_head layout level
  rw [begins]
  simp [← String.toList_eq_nil_iff]

end Json

end CacheManifest
