/-
# The texts that are read as settings

A setting is read exactly if its text is one of the grammar, with blanks in front, and has
the kind of value of the setting. Nothing is asked of what follows.

The elements of a list are read one after the other. What leads to an element is the same
for every reader: blanks, and a comma behind the first.
-/

import CacheManifest.Proofs.Config.Language
import CacheManifest.Proofs.Json.Escapes
import CacheManifest.Proofs.Results

namespace CacheManifest

namespace Config

open Json (Blank Document Lead Parts Spells SpellsField SpellsString isBlank skipBlanks
  skipBlanks_eq_cons_iff spells_strings_iff blank_nil)

variable {text rest start : List Char} {first : Bool} {config final : Config} {field : Field}

/-! ## Between the parts -/

/-- What is reached behind the blanks and the comma that may lead to a part. -/
theorem exists_lead_iff {c : Char} {others : List Char} :
    ((∃ lead, Lead first lead ∧ text = lead ++ c :: others) ∧ isBlank c = false) ↔
      if first then skipBlanks text = c :: others
      else ∃ after, skipBlanks text = ',' :: after ∧ skipBlanks after = c :: others := by
  cases first with
  | true =>
      rw [if_pos rfl, skipBlanks_eq_cons_iff]
      constructor
      · rintro ⟨⟨lead, leads, rfl⟩, visible⟩
        cases leads with
        | first blank => exact ⟨lead, blank, rfl, visible⟩
      · rintro ⟨gap, blank, rfl, visible⟩
        exact ⟨⟨gap, .first blank, rfl⟩, visible⟩
  | false =>
      rw [if_neg Bool.false_ne_true]
      simp only [skipBlanks_eq_cons_iff]
      constructor
      · rintro ⟨⟨lead, leads, rfl⟩, visible⟩
        cases leads with
        | @comma gap inner blank blank_inner =>
            exact ⟨inner ++ c :: others, ⟨gap, blank, by simp, by decide⟩, inner, blank_inner, rfl,
              visible⟩
      · rintro ⟨_, ⟨gap, blank, rfl, -⟩, inner, blank_inner, rfl, visible⟩
        exact ⟨⟨_, .comma blank blank_inner, by simp⟩, visible⟩

theorem nextElement_eq_end_iff :
    nextElement first text = .ok (.inl rest) ↔ ∃ gap, Blank gap ∧ text = gap ++ ']' :: rest := by
  have visible : isBlank ']' = false := by decide
  have ends : nextElement first text = .ok (.inl rest) ↔ skipBlanks text = ']' :: rest := by
    rw [nextElement]
    cases skipBlanks text with
    | nil => simp
    | cons c others => grind
  rw [ends, skipBlanks_eq_cons_iff]
  simp [visible]

theorem nextElement_eq_start_iff :
    nextElement first text = .ok (.inr start) ↔ ∃ c others, start = c :: others ∧ c ≠ ']' ∧
      (∃ lead, Lead first lead ∧ text = lead ++ c :: others) ∧ isBlank c = false := by
  simp only [exists_lead_iff]
  rw [nextElement]
  cases first with
  | true =>
      cases skipBlanks text with
      | nil => simp
      | cons c others => grind
  | false =>
      cases skipBlanks text with
      | nil => simp
      | cons c others =>
          cases behind : skipBlanks others <;> grind

theorem nextKey_eq_end_iff :
    nextKey first text = .ok (.inl rest) ↔ ∃ gap, Blank gap ∧ text = gap ++ '\x7d' :: rest := by
  have visible : isBlank '\x7d' = false := by decide
  have ends : nextKey first text = .ok (.inl rest) ↔ skipBlanks text = '\x7d' :: rest := by
    rw [nextKey]
    cases skipBlanks text with
    | nil => simp
    | cons c others => grind
  rw [ends, skipBlanks_eq_cons_iff]
  simp [visible]

theorem nextKey_eq_start_iff :
    nextKey first text = .ok (.inr start) ↔
      ∃ lead, Lead first lead ∧ text = lead ++ '"' :: start := by
  have visible : isBlank '"' = false := by decide
  have leads := @exists_lead_iff text first '"' start
  simp only [visible, and_true] at leads
  rw [leads, nextKey]
  cases first with
  | true =>
      cases skipBlanks text with
      | nil => simp
      | cons c others => grind
  | false =>
      cases skipBlanks text with
      | nil => simp
      | cons c others =>
          cases behind : skipBlanks others <;> grind

theorem nextElement_end {gap : List Char} (blank : Blank gap) (rest : List Char) :
    nextElement first (gap ++ ']' :: rest) = .ok (.inl rest) :=
  nextElement_eq_end_iff.mpr ⟨gap, blank, rfl⟩

theorem nextKey_end {gap : List Char} (blank : Blank gap) (rest : List Char) :
    nextKey first (gap ++ '\x7d' :: rest) = .ok (.inl rest) :=
  nextKey_eq_end_iff.mpr ⟨gap, blank, rfl⟩

/-- An element is found behind what leads to it. -/
theorem nextElement_part {lead body : List Char} (leads : Lead first lead)
    (begins : ∃ c others, body = c :: others ∧ isBlank c = false ∧ c ≠ ']') (rest : List Char) :
    nextElement first (lead ++ (body ++ rest)) = .ok (.inr (body ++ rest)) := by
  obtain ⟨c, others, rfl, visible, no_end⟩ := begins
  exact nextElement_eq_start_iff.mpr
    ⟨c, others ++ rest, rfl, no_end, ⟨lead, leads, rfl⟩, visible⟩

/-! ## Strings and lists of strings -/

/-- A string is read exactly if it is one of the grammar, whatever is wanted. -/
theorem readString_eq_ok_iff {wanted : Wanted} {content : String} :
    readString wanted text = .ok (content, rest) ↔
      ∃ gap body, Blank gap ∧ SpellsString content body ∧ text = gap ++ (body ++ rest) := by
  rw [readString]
  constructor
  · intro read
    split at read
    · cases read
    · next c others begins =>
        obtain ⟨gap, blank, rfl, -⟩ := skipBlanks_eq_cons_iff.mp begins
        split_ifs at read with quote
        subst quote
        obtain ⟨body, spelled, rfl⟩ := Json.readString_eq_ok_iff.mp (mapError_eq_ok_iff.mp read)
        exact ⟨gap, _, blank, spelled, rfl⟩
  · rintro ⟨gap, body, blank, spelled, rfl⟩
    obtain ⟨inner, rfl⟩ := spelled.exists_inner
    have begins : skipBlanks (gap ++ ('"' :: inner ++ rest)) = '"' :: (inner ++ rest) :=
      skipBlanks_eq_cons_iff.mpr ⟨gap, blank, rfl, by decide⟩
    simp only [begins, if_true]
    exact mapError_eq_ok_iff.mpr (Json.readString_eq_ok_iff.mpr ⟨inner, spelled, rfl⟩)

/-- What is read as a list of strings is one. -/
theorem parts_of_readElements {wanted : Wanted} {bound : Nat} {elements : List String}
    (read : readElements wanted bound first text = .ok (elements, rest)) :
    ∃ body, Parts SpellsString ']' first elements body ∧ text = body ++ rest := by
  induction bound generalizing first text elements with
  | zero => cases read
  | succ bound ih =>
      rw [readElements] at read
      split at read
      · cases read
      · next ending =>
          obtain ⟨gap, blank, rfl⟩ := nextElement_eq_end_iff.mp ending
          cases read
          exact ⟨_, .done blank, by simp⟩
      · next start begins =>
          obtain ⟨c, others, rfl, -, ⟨lead, leads, rfl⟩, -⟩ := nextElement_eq_start_iff.mp begins
          split at read
          · cases read
          · next element left found =>
              obtain ⟨gap, body, blank, spelled, whole⟩ := readString_eq_ok_iff.mp found
              split at read
              · cases read
              · next later _ read_on =>
                  cases read
                  obtain ⟨more, parts, rfl⟩ := ih read_on
                  refine ⟨_, .part (leads.append blank) spelled parts, ?_⟩
                  rw [whole]
                  simp

/-- A list of strings is read whole if the bound exceeds the length of its text. -/
theorem readElements_of_parts {wanted : Wanted} {bound : Nat} {elements : List String}
    {body : List Char} (parts : Parts SpellsString ']' first elements body)
    (enough : body.length < bound) (rest : List Char) :
    readElements wanted bound first (body ++ rest) = .ok (elements, rest) := by
  induction parts generalizing bound with
  | done blank =>
      obtain ⟨bound, rfl⟩ := Nat.exists_eq_add_one_of_ne_zero (Nat.ne_zero_of_lt enough)
      rw [List.append_assoc, List.singleton_append, readElements, nextElement_end blank]
  | @part first lead piece more element others leads spelled parts ih =>
      obtain ⟨bound, rfl⟩ := Nat.exists_eq_add_one_of_ne_zero (Nat.ne_zero_of_lt enough)
      obtain ⟨inner, begins⟩ := spelled.exists_inner
      have found : readString wanted (piece ++ (more ++ rest)) = .ok (element, more ++ rest) :=
        readString_eq_ok_iff.mpr ⟨[], piece, blank_nil, spelled, rfl⟩
      have shorter : more.length < bound := by
        simp only [begins, List.length_append, List.length_cons] at enough
        omega
      rw [List.append_assoc, List.append_assoc, readElements,
        nextElement_part leads ⟨_, _, begins, by decide, by decide⟩]
      simp only [found, ih shorter]

/-- A list of strings is read exactly if it is one of the grammar. -/
theorem readStrings_eq_ok_iff {wanted : Wanted} {contents : List String} :
    readStrings wanted text = .ok (contents, rest) ↔
      ∃ gap body, Blank gap ∧ Spells (.list (contents.map Json.string)) body ∧
        text = gap ++ (body ++ rest) := by
  rw [readStrings]
  constructor
  · intro read
    split at read
    · cases read
    · next c others begins =>
        obtain ⟨gap, blank, rfl, -⟩ := skipBlanks_eq_cons_iff.mp begins
        split_ifs at read with bracket
        subst bracket
        obtain ⟨body, parts, rfl⟩ := parts_of_readElements read
        exact ⟨gap, _, blank, spells_strings_iff.mpr ⟨body, parts, rfl⟩, rfl⟩
  · rintro ⟨gap, body, blank, spelled, rfl⟩
    obtain ⟨inner, parts, rfl⟩ := spells_strings_iff.mp spelled
    have begins : skipBlanks (gap ++ ('[' :: inner ++ rest)) = '[' :: (inner ++ rest) :=
      skipBlanks_eq_cons_iff.mpr ⟨gap, blank, rfl, by decide⟩
    simp only [begins, if_true]
    exact readElements_of_parts parts (by simp) rest

/-! ## Settings -/

/-- A reader of what a setting holds reads the setting, if what it reads is put into the
configuration. -/
theorem read_eq_ok_iff {α : Type} {reader : Json.Reader ReadError α} (encoded : α → Json)
    (put : α → Config)
    (reads : ∀ a, reader text = .ok (a, rest) ↔
      ∃ gap body, Blank gap ∧ Spells (encoded a) body ∧ text = gap ++ (body ++ rest))
    (denotes : ∀ value, ∀ next : Config, Denotes value (field.content next) ↔
      ∃ a, value = encoded a ∧ field.content next = field.content (put a))
    (kept : ∀ a, ∀ other ≠ field, other.content (put a) = other.content config) :
    ((reader text).map fun read => (put read.1, read.2)) = .ok (final, rest) ↔
      ∃ gap value body, Blank gap ∧ Spells value body ∧ text = gap ++ (body ++ rest) ∧
        Settles config [(field, value)] final := by
  rw [map_eq_ok_iff]
  constructor
  · rintro ⟨⟨a, left⟩, read, whole⟩
    cases whole
    obtain ⟨gap, body, blank, spelled, whole⟩ := (reads a).mp read
    exact ⟨gap, _, body, blank, spelled, whole, (settles_iff_exists encoded put denotes kept).mpr ⟨a, rfl, rfl⟩⟩
  · rintro ⟨gap, value, body, blank, spelled, whole, settles⟩
    obtain ⟨a, rfl, rfl⟩ := (settles_iff_exists encoded put denotes kept).mp settles
    exact ⟨(a, rest), (reads a).mpr ⟨gap, body, blank, spelled, whole⟩, rfl⟩

/-- A setting is read exactly if a value of its kind is there. -/
theorem readSetting_eq_ok_iff :
    readSetting field config text = .ok (final, rest) ↔
      ∃ gap value body, Blank gap ∧ Spells value body ∧ text = gap ++ (body ++ rest) ∧
        Settles config [(field, value)] final := by
  have string_iff : ∀ (content : String) (body : List Char),
      SpellsString content body ↔ Spells (.string content) body := by
    intro content body
    exact ⟨.string, fun | .string spelled => spelled⟩
  cases field with
  | output =>
      refine read_eq_ok_iff Json.string
        (fun text => { config with output := .ofString text }) ?_ ?_ ?_
      · intro content
        simp only [readString_eq_ok_iff, string_iff]
      · intro value next
        simp only [Field.content, denotes_path_iff, Content.path.injEq]
      · rintro a (_ | _) other <;> first | rfl | exact absurd rfl other
  | sourceDirs =>
      refine read_eq_ok_iff (fun texts => .list (texts.map Json.string))
        (fun texts : List String => { config with sourceDirs := texts.map Path.ofString })
        (fun _ => readStrings_eq_ok_iff) ?_ ?_
      · intro value next
        simp only [Field.content, denotes_paths_iff, Content.paths.injEq]
      · rintro a (_ | _) other <;> first | rfl | exact absurd rfl other
  | excludedExtensions =>
      refine read_eq_ok_iff (fun texts => .list (texts.map Json.string))
        (fun texts : List String => { config with excludedExtensions := texts })
        (fun _ => readStrings_eq_ok_iff) ?_ ?_
      · intro value next
        simp only [Field.content, denotes_texts_iff, Content.texts.injEq]
      · rintro a (_ | _) other <;> first | rfl | exact absurd rfl other
  | ignoredDirs =>
      refine read_eq_ok_iff (fun texts => .list (texts.map Json.string))
        (fun texts : List String => { config with ignoredDirs := texts })
        (fun _ => readStrings_eq_ok_iff) ?_ ?_
      · intro value next
        simp only [Field.content, denotes_texts_iff, Content.texts.injEq]
      · rintro a (_ | _) other <;> first | rfl | exact absurd rfl other
  | scriptDirs =>
      refine read_eq_ok_iff (fun texts => .list (texts.map Json.string))
        (fun texts : List String => { config with scriptDirs := texts })
        (fun _ => readStrings_eq_ok_iff) ?_ ?_
      · intro value next
        simp only [Field.content, denotes_texts_iff, Content.texts.injEq]
      · rintro a (_ | _) other <;> first | rfl | exact absurd rfl other

end Config

end CacheManifest
