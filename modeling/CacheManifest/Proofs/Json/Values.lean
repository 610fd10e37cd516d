/-
# Whole JSON values

The program reads JSON only into settings and writes it only from entries. What a
written text means is told by a reader of its own, for all values there are: scalars
as the program reads them, lists and objects as the grammar has them, with blanks
between the tokens. It is a function, so a text has one meaning at most.

Each part of a value takes a character at least, so the length of a text bounds the
parts it can have.
-/

import CacheManifest.Proofs.Json.Layouts

namespace CacheManifest

namespace Json

/-- A scalar that was found at the front of a text. A number is kept as it is
written. -/
def ofFound? (text : List Char) : Found × List Char → Option (Json × List Char)
  | (.null, rest) => some (.null, rest)
  | (.boolean value, rest) => some (.boolean value, rest)
  | (.integer _, rest) => some (.number (text.take (text.length - rest.length)), rest)
  | (.decimal _ _, rest) => some (.number (text.take (text.length - rest.length)), rest)
  | (.string content, rest) => some (.string content, rest)
  | (.sequence, _) => none
  | (.mapping, _) => none

/-- What follows a character, if it is the first one of a text that is no blank. -/
def past? (token : Char) (text : List Char) : Option (List Char) :=
  match skipBlanks text with
  | [] => none
  | c :: rest => if c = token then some rest else none

section Parts

variable {α : Type} (closing : Char) (readPart : List Char → Option (α × List Char))

/-- Read the parts of a list or object after the first, up to its end. -/
def readOthers : Nat → List Char → Option (List α × List Char)
  | 0, _ => none
  | bound + 1, text =>
    match past? closing text with
    | some left => some ([], left)
    | none =>
      (past? ',' text).bind fun rest =>
        (readPart rest).bind fun part =>
          (readOthers bound part.2).map fun others => (part.1 :: others.1, others.2)

/-- Read the parts of a list or object, up to its end. -/
def readParts (bound : Nat) (text : List Char) : Option (List α × List Char) :=
  match past? closing text with
  | some left => some ([], left)
  | none =>
    (readPart text).bind fun first =>
      (readOthers closing readPart bound first.2).map fun others =>
        (first.1 :: others.1, others.2)

end Parts

/-- Read a field of an object, given how its value is read. -/
def readField (readValue : List Char → Option (Json × List Char)) (text : List Char) :
    Option ((String × Json) × List Char) :=
  (past? '"' text).bind fun quoted =>
    match readString quoted with
    | .error _ => none
    | .ok (key, left) =>
      (past? ':' left).bind fun rest =>
        (readValue rest).map fun value => ((key, value.1), value.2)

/-- Read a value, with blanks in front. -/
def readValue : Nat → List Char → Option (Json × List Char)
  | 0, _ => none
  | bound + 1, text =>
    match skipBlanks text with
    | [] => none
    | c :: rest =>
      if c = '[' then
        (readParts ']' (readValue bound) bound rest).map fun read => (.list read.1, read.2)
      else if c = '\x7b' then
        (readParts '\x7d' (readField (readValue bound)) bound rest).map fun read =>
          (.object read.1, read.2)
      else
        match found (c :: rest) with
        | .ok read => ofFound? (c :: rest) read
        | .error _ => none

/-- The value that a whole text spells, with blanks around it. -/
def parse? (text : List Char) : Option Json :=
  (readValue (text.length + 1) text).bind fun read =>
    if skipBlanks read.2 = [] then some read.1 else none

/-! ## Tokens -/

theorem exists_rest_of_colon (layout : Layout) (text : List Char) :
    ∃ rest, layout.colon ++ text = ':' :: rest ∧ skipBlanks rest = skipBlanks text := by
  cases layout with
  | compact => exact ⟨text, rfl, rfl⟩
  | indented => exact ⟨' ' :: text, rfl, List.dropWhile_cons_of_pos (by decide)⟩

theorem past?_of_head {token : Char} {text rest : List Char}
    (begins : skipBlanks text = token :: rest) : past? token text = some rest := by
  rw [past?, begins]
  exact if_pos rfl

theorem past?_eq_none {token c : Char} {text rest : List Char}
    (begins : skipBlanks text = c :: rest) (other : c ≠ token) : past? token text = none := by
  rw [past?, begins]
  exact if_neg other

/-! ## Parts that are written one after the other -/

section Written

variable {α : Type} {closing : Char} {readPart : List Char → Option (α × List Char)}
  {written : α → List Char} {layout : Layout} {level outer limit : Nat}

/-- The parts of a list or object after the first as they are written, its end, and
what follows it. -/
def remainder (written : α → List Char) (gap ending : List Char) (closing : Char)
    (parts : List α) (rest : List Char) : List Char :=
  parts.flatMap (fun part => ',' :: gap ++ written part) ++ (ending ++ closing :: rest)

theorem remainder_cons (gap ending : List Char) (part : α) (others : List α) (rest : List Char) :
    remainder written gap ending closing (part :: others) rest =
      ',' :: (gap ++ (written part ++ remainder written gap ending closing others rest)) := by
  simp [remainder]

/-- A part that is read back behind its gap, in a text that is not too long. -/
def ReadsBack (readPart : List Char → Option (α × List Char)) (written : α → List Char)
    (gap : List Char) (limit : Nat) (part : α) : Prop :=
  ∀ rest, (written part ++ rest).length < limit →
    readPart (gap ++ (written part ++ rest)) = some (part, rest)

/-- Parts behind commas are read up to the end of what they belong to. -/
theorem readOthers_remainder (visible : isBlank closing = false) (no_comma : ',' ≠ closing)
    {parts : List α}
    (reads : ∀ part ∈ parts, ReadsBack readPart written (layout.gap level) limit part)
    (rest : List Char) {bound : Nat}
    (enough : (remainder written (layout.gap level) (layout.gap outer) closing parts rest).length <
      bound)
    (short : (remainder written (layout.gap level) (layout.gap outer) closing parts rest).length <
      limit) :
    readOthers closing readPart bound
        (remainder written (layout.gap level) (layout.gap outer) closing parts rest) =
      some (parts, rest) := by
  induction parts generalizing bound with
  | nil =>
      cases bound with
      | zero => cases enough
      | succ bound =>
          have ends : skipBlanks (layout.gap outer ++ closing :: rest) = closing :: rest := by
            rw [(blank_gap _ _).skipBlanks_append, skipBlanks_of_head visible]
          rw [remainder, List.flatMap_nil, List.nil_append, readOthers, past?_of_head ends]
  | cons part others ih =>
      obtain ⟨here, later⟩ := List.forall_mem_cons.mp reads
      rw [remainder_cons] at enough short ⊢
      generalize remainder written (layout.gap level) (layout.gap outer) closing others rest = left
        at ih enough short ⊢
      simp only [List.length_cons, List.length_append] at enough short
      cases bound with
      | zero => cases enough
      | succ bound =>
          have comma := skipBlanks_of_head (show isBlank ',' = false by decide)
            (layout.gap level ++ (written part ++ left))
          have element := here left (by rw [List.length_append]; omega)
          have behind : readOthers closing readPart bound left = some (others, rest) :=
            ih later (by omega) (by omega)
          rw [readOthers, past?_eq_none comma no_comma, past?_of_head comma]
          simp only [Option.bind_some, element, behind, Option.map_some]

/-- So are all parts, if the first of them does not begin like that end. -/
theorem readParts_written (visible : isBlank closing = false) (no_comma : ',' ≠ closing)
    {first : α} {others : List α}
    (reads : ∀ part ∈ first :: others, ReadsBack readPart written (layout.gap level) limit part)
    {c : Char} {more : List Char} (begins : written first = c :: more)
    (begins_visible : isBlank c = false) (inside : c ≠ closing) (rest : List Char)
    {opening : Char} (enough : (opening :: (layout.gap level ++ (written first ++
      remainder written (layout.gap level) (layout.gap outer) closing others rest))).length <
        limit + 1) :
    readParts closing readPart limit (layout.gap level ++ (written first ++
        remainder written (layout.gap level) (layout.gap outer) closing others rest)) =
      some (first :: others, rest) := by
  obtain ⟨here, later⟩ := List.forall_mem_cons.mp reads
  have start : skipBlanks (layout.gap level ++ (written first ++
      remainder written (layout.gap level) (layout.gap outer) closing others rest)) =
      c :: (more ++
        remainder written (layout.gap level) (layout.gap outer) closing others rest) := by
    rw [(blank_gap _ _).skipBlanks_append, begins, List.cons_append, skipBlanks_of_head begins_visible]
  generalize left_def :
    remainder written (layout.gap level) (layout.gap outer) closing others rest = left at *
  simp only [List.length_cons, List.length_append] at enough
  have element := here left (by rw [List.length_append]; omega)
  have behind : readOthers closing readPart limit left = some (others, rest) := by
    subst left_def
    exact readOthers_remainder visible no_comma later rest (by omega) (by omega)
  rw [readParts, past?_eq_none start inside]
  simp only [element, Option.bind_some, behind, Option.map_some]

end Written

/-! ## Values that are written -/

/-- A value that is read back from its text, in any layout and whatever follows. -/
def Reads (value : Json) : Prop :=
  ∀ layout level bound text rest, skipBlanks text = write layout level value ++ rest →
    (write layout level value ++ rest).length < bound →
      readValue bound text = some (value, rest)

theorem reads_scalar {value : Json} (c : Char) (literal : List Char)
    (written : ∀ layout level, write layout level value = c :: literal)
    (no_list : c ≠ '[') (no_object : c ≠ '\x7b')
    (scalar : ∀ rest, ∃ read, found (c :: literal ++ rest) = .ok read ∧
      ofFound? (c :: literal ++ rest) read = some (value, rest)) : Reads value := by
  intro layout level bound text rest begins enough
  obtain ⟨read, finds, means⟩ := scalar rest
  rw [written] at begins enough
  cases bound with
  | zero => cases enough
  | succ bound =>
      rw [readValue, begins]
      simp only [List.cons_append, if_neg no_list, if_neg no_object] at finds means ⊢
      rw [finds]
      exact means

theorem reads_null : Reads .null := by
  apply reads_scalar 'n' ['u', 'l', 'l'] (fun layout level => by rw [write]) (by decide)
    (by decide)
  intro rest
  exact ⟨(.null, rest), by simp [found, readLiteral, Except.map], rfl⟩

theorem reads_boolean (value : Bool) : Reads (.boolean value) := by
  cases value with
  | true =>
      apply reads_scalar 't' ['r', 'u', 'e'] (fun layout level => by rw [write, booleanLiteral])
        (by decide) (by decide)
      intro rest
      exact ⟨(.boolean true, rest), by simp [found, readLiteral, Except.map], rfl⟩
  | false =>
      apply reads_scalar 'f' ['a', 'l', 's', 'e']
        (fun layout level => by rw [write, booleanLiteral]) (by decide) (by decide)
      intro rest
      exact ⟨(.boolean false, rest), by simp [found, readLiteral, Except.map], rfl⟩

theorem reads_string (content : String) : Reads (.string content) := by
  apply reads_scalar '"' (content.toList.flatMap escaped ++ ['"'])
    (fun layout level => by rw [write, stringLiteral]; rfl) (by decide) (by decide)
  intro rest
  refine ⟨(.string content, rest), ?_, rfl⟩
  have body : content.toList.flatMap escaped ++ ['"'] ++ rest =
      content.toList.flatMap escaped ++ '"' :: rest := by simp
  rw [List.cons_append, body]
  simp [found, readString_escaped, Except.map]

theorem Reads.readsBack {value : Json} (reads : Reads value) (numberless : value.Numberless)
    (layout : Layout) (level limit : Nat) :
    ReadsBack (readValue limit) (write layout level) (layout.gap level) limit value := by
  intro rest short
  obtain ⟨c, more, begins, visible, -⟩ := numberless.exists_head layout level
  refine reads layout level limit _ rest ?_ short
  rw [(blank_gap _ _).skipBlanks_append, begins, List.cons_append, skipBlanks_of_head visible]

theorem reads_list {items : List Json} (numberless : ∀ item ∈ items, Numberless item)
    (reads : ∀ item ∈ items, Reads item) : Reads (.list items) := by
  intro layout level bound text rest begins enough
  cases bound with
  | zero => cases enough
  | succ limit =>
      cases items with
      | nil =>
          rw [write, List.cons_append, List.singleton_append] at begins
          rw [readValue, begins]
          rfl
      | cons first others =>
          have shape : write layout level (.list (first :: others)) ++ rest =
              '[' :: (layout.gap (level + 1) ++ (write layout (level + 1) first ++
                remainder (write layout (level + 1)) (layout.gap (level + 1)) (layout.gap level)
                  ']' others rest)) := by
            rw [write, writeItems_eq]
            simp [remainder]
          obtain ⟨c, more, head, visible, inside⟩ :=
            (numberless first List.mem_cons_self).exists_head layout (level + 1)
          rw [shape] at begins enough
          have parts := readParts_written (show isBlank ']' = false by decide) (by decide)
            (fun item listed => (reads item listed).readsBack (numberless item listed) layout
              (level + 1) limit) head visible inside rest enough
          rw [readValue, begins]
          simp only [if_true, parts, Option.map_some]

/-- A field is read back from the way it is written. -/
theorem Reads.field {value : Json} (reads : Reads value) (numberless : value.Numberless)
    (key : String) (layout : Layout) (level limit : Nat) :
    ReadsBack (readField (readValue limit)) (writeField layout level) (layout.gap level) limit
      (key, value) := by
  intro rest short
  obtain ⟨behind, colon, blank⟩ :=
    exists_rest_of_colon layout (write layout level value ++ rest)
  obtain ⟨c, more, head, visible, -⟩ := numberless.exists_head layout level
  have text : writeField layout level (key, value) ++ rest =
      '"' :: (key.toList.flatMap escaped ++ '"' :: ':' :: behind) := by
    rw [writeField, List.append_assoc, List.append_assoc, colon, stringLiteral]
    simp
  have opens : skipBlanks (layout.gap level ++ (writeField layout level (key, value) ++ rest)) =
      '"' :: (key.toList.flatMap escaped ++ '"' :: ':' :: behind) := by
    rw [(blank_gap _ _).skipBlanks_append, text, skipBlanks_of_head (by decide)]
  have begins : skipBlanks behind = write layout level value ++ rest := by
    rw [blank, head, List.cons_append, skipBlanks_of_head visible]
  have value_short : (write layout level value ++ rest).length < limit := by
    rw [writeField] at short
    simp only [List.length_append] at short ⊢
    omega
  have element := reads layout level limit behind rest begins value_short
  rw [readField, past?_of_head opens]
  simp only [Option.bind_some, readString_escaped,
    past?_of_head (skipBlanks_of_head (show isBlank ':' = false by decide) behind), element,
    Option.map_some]

theorem reads_object {fields : List (String × Json)}
    (numberless : ∀ field ∈ fields, Numberless field.2)
    (reads : ∀ field ∈ fields, Reads field.2) : Reads (.object fields) := by
  intro layout level bound text rest begins enough
  cases bound with
  | zero => cases enough
  | succ limit =>
      cases fields with
      | nil =>
          rw [write, List.cons_append, List.singleton_append] at begins
          rw [readValue, begins]
          rfl
      | cons first others =>
          have shape : write layout level (.object (first :: others)) ++ rest =
              '\x7b' :: (layout.gap (level + 1) ++ (writeField layout (level + 1) first ++
                remainder (writeField layout (level + 1)) (layout.gap (level + 1))
                  (layout.gap level) '\x7d' others rest)) := by
            rw [write, writeFields_eq]
            simp [remainder]
          have head : writeField layout (level + 1) first =
              '"' :: (first.1.toList.flatMap escaped ++ ['"'] ++ layout.colon ++
                write layout (level + 1) first.2) := by
            rw [writeField, stringLiteral]
            simp
          rw [shape] at begins enough
          have parts := readParts_written (show isBlank '\x7d' = false by decide) (by decide)
            (fun field listed => (reads field listed).field (numberless field listed) field.1
              layout (level + 1) limit) head (by decide) (by decide) rest enough
          rw [readValue, begins]
          simp only [if_neg (show '\x7b' ≠ '[' by decide), if_true, parts, Option.map_some]

/-- Every value without numbers is read back from its text. -/
theorem Numberless.reads {value : Json} (numberless : value.Numberless) : Reads value := by
  induction numberless with
  | null => exact reads_null
  | boolean value => exact reads_boolean value
  | string content => exact reads_string content
  | list items each ih => exact reads_list each ih
  | object fields each ih => exact reads_object each ih

/-- A whole text spells the value it was written from, with blanks behind it. -/
theorem parse?_write {value : Json} (numberless : value.Numberless) (layout : Layout)
    (level : Nat) {tail : List Char} (blank : skipBlanks tail = []) :
    parse? (write layout level value ++ tail) = some value := by
  obtain ⟨c, more, head, visible, -⟩ := numberless.exists_head layout level
  have begins : skipBlanks (write layout level value ++ tail) =
      write layout level value ++ tail := by
    rw [head, List.cons_append, skipBlanks_of_head visible]
  have read := numberless.reads layout level _ _ tail begins (Nat.lt_succ_self _)
  simp only [parse?, read, Option.bind_some, blank, if_true]

end Json

end CacheManifest
