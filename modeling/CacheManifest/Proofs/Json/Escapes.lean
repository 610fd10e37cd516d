/-
# Strings that are read

The reader of strings accepts the strings of the grammar and nothing else: whatever
spells a character is read as that character, with what follows left over, and what has
been read spells what came out of it.

An escape by number is where the two could differ. The reader takes one code unit or two,
and refuses a lone half of a pair; the grammar has the code units of a character, and no
character has such a half alone.
-/

import CacheManifest.Proofs.Json.Grammar

namespace CacheManifest

namespace Json

/-! ## Digits and code units -/

instance (value : Nat) (digit : Char) : Decidable (SpellsDigit value digit) := by
  unfold SpellsDigit
  infer_instance

theorem SpellsDigit.lt {value : Nat} {digit : Char} (spelled : SpellsDigit value digit) :
    value < 16 := by
  rcases spelled with lower | upper
  · exact (List.getElem?_eq_some_iff.mp lower).1
  · exact (List.getElem?_eq_some_iff.mp upper).1

/-- The digits that are read are those of the two rows. -/
theorem hexValue?_eq_some_iff {value : Nat} {digit : Char} :
    hexValue? digit = some value ↔ SpellsDigit value digit := by
  constructor
  · intro read
    have low : digit.toNat < 128 := by
      have same : digit.toNat = digit.val.toNat := rfl
      have nine : '9'.val.toNat = 57 := rfl
      have lower : 'f'.val.toNat = 102 := rfl
      have upper : 'F'.val.toNat = 70 := rfl
      simp only [hexValue?, Char.le_def, UInt32.le_iff_toNat_le] at read
      split_ifs at read
      all_goals omega
    have all : ∀ number : Fin 128, ∀ value ∈ hexValue? (Char.ofNat number),
        SpellsDigit value (Char.ofNat number) := by decide +kernel
    have here := all ⟨digit.toNat, low⟩ value
    simp only [Char.ofNat_toNat] at here
    exact here read
  · intro spelled
    have rows : ∀ value : Fin 16,
        ("0123456789abcdef".toList[value.val]?).bind hexValue? = some value.val ∧
          ("0123456789ABCDEF".toList[value.val]?).bind hexValue? = some value.val := by
      decide +kernel
    have here := rows ⟨value, spelled.lt⟩
    rcases spelled with lower | upper
    · simpa only [lower, Option.bind_some] using here.1
    · simpa only [upper, Option.bind_some] using here.2

theorem SpellsUnit.lt {unit : Nat} {four : List Char} (spelled : SpellsUnit unit four) :
    unit < 0x10000 := by
  obtain ⟨one, two, three, four⟩ := spelled
  have := one.lt
  have := two.lt
  have := three.lt
  have := four.lt
  omega

theorem SpellsUnit.length_eq {unit : Nat} {four : List Char} (spelled : SpellsUnit unit four) :
    four.length = 4 := by
  cases spelled
  rfl

theorem fourDigits?_eq_some_iff {text : List Char} {unit : Nat} :
    fourDigits? text = some unit ↔ ∃ four rest, SpellsUnit unit four ∧ text = four ++ rest := by
  constructor
  · intro read
    match text with
    | [] | [_] | [_, _] | [_, _, _] => cases read
    | a :: b :: c :: d :: rest =>
        rw [fourDigits?] at read
        split at read
        · next first second third fourth one two three four =>
            rw [hexValue?_eq_some_iff] at one two three four
            cases read
            have value : ((first * 16 + second) * 16 + third) * 16 + fourth =
                first * 4096 + second * 256 + third * 16 + fourth := by omega
            rw [value]
            exact ⟨[a, b, c, d], rest, .digits one two three four, rfl⟩
        · cases read
  · rintro ⟨four, rest, spelled, rfl⟩
    obtain ⟨one, two, three, four⟩ := spelled
    rw [← hexValue?_eq_some_iff] at one two three four
    simp only [List.cons_append, List.nil_append, fourDigits?, one, two, three, four,
      Option.some.injEq]
    omega

/-- Every character takes a byte at least. -/
theorem length_le_width (text : List Char) : text.length ≤ Utf8.width text := by
  induction text with
  | nil => exact Nat.le_refl 0
  | cons c rest ih =>
      have some_byte : 0 < (Utf8.encodeChar c).length := by
        simp only [Utf8.encodeChar]
        split_ifs <;> exact Nat.succ_pos _
      have whole : Utf8.width (c :: rest) = (Utf8.encodeChar c).length + Utf8.width rest := by
        simp [Utf8.width, Utf8.encodeChars]
      rw [whole, List.length_cons]
      omega

theorem codeUnit_eq_ok_iff {text : List Char} {unit : Nat} :
    codeUnit text = .ok unit ↔ ∃ four rest, SpellsUnit unit four ∧ text = four ++ rest := by
  rw [← fourDigits?_eq_some_iff, codeUnit]
  constructor
  · intro read
    split_ifs at read
    split at read
    · next found spelled =>
        cases read
        exact spelled
    · cases read
  · intro spelled
    obtain ⟨four, rest, digits, rfl⟩ := fourDigits?_eq_some_iff.mp spelled
    have wide := length_le_width (four ++ rest)
    rw [List.length_append, digits.length_eq] at wide
    rw [if_neg (by omega), spelled]

/-! ## Escapes -/

theorem isLeading_iff {unit : Nat} : isLeading unit = true ↔ 0xD800 ≤ unit ∧ unit ≤ 0xDBFF := by
  simp [isLeading]

theorem isTrailing_iff {unit : Nat} : isTrailing unit = true ↔ 0xDC00 ≤ unit ∧ unit ≤ 0xDFFF := by
  simp [isTrailing]

/-- A unit that is no half of a pair is a character of its own. -/
theorem codeUnits_ofNat {unit : Nat} (small : unit < 0x10000) (leads : isLeading unit = false)
    (trails : isTrailing unit = false) : codeUnits (Char.ofNat unit) = [unit] := by
  rw [Bool.eq_false_iff, Ne, isLeading_iff] at leads
  rw [Bool.eq_false_iff, Ne, isTrailing_iff] at trails
  have valid : unit.isValidChar := by
    rw [Nat.isValidChar]
    omega
  have number : (Char.ofNat unit).toNat = unit := by rw [Char.toNat_ofNat, if_pos valid]
  rw [codeUnits, number, if_pos small]

theorem codeUnits_pairValue {leading trailing : Nat} (leads : isLeading leading = true)
    (trails : isTrailing trailing = true) :
    codeUnits (pairValue leading trailing) = [leading, trailing] := by
  rw [isLeading_iff] at leads
  rw [isTrailing_iff] at trails
  have valid : ((leading - 0xD800) * 1024 + (trailing - 0xDC00) + 0x10000).isValidChar := by
    rw [Nat.isValidChar]
    omega
  have number : (pairValue leading trailing).toNat =
      (leading - 0xD800) * 1024 + (trailing - 0xDC00) + 0x10000 := by
    rw [pairValue, Char.toNat_ofNat, if_pos valid]
  have high : 0xD800 + ((leading - 0xD800) * 1024 + (trailing - 0xDC00) + 0x10000 - 0x10000) / 1024 =
      leading := by omega
  have low : 0xDC00 + ((leading - 0xD800) * 1024 + (trailing - 0xDC00) + 0x10000 - 0x10000) % 1024 =
      trailing := by omega
  rw [codeUnits, number, if_neg (by omega), high, low]

/-- The units of a character are either its number, which is no half of a pair, or a pair
that spells it. -/
theorem codeUnits_cases (c : Char) :
    (codeUnits c = [c.toNat] ∧ isLeading c.toNat = false ∧ isTrailing c.toNat = false) ∨
      ∃ leading trailing, codeUnits c = [leading, trailing] ∧ isLeading leading = true ∧
        isTrailing trailing = true ∧ c = pairValue leading trailing := by
  have bounds : c.toNat < 0xD800 ∨ 0xDFFF < c.toNat ∧ c.toNat < 0x110000 := c.valid
  rw [codeUnits]
  split_ifs with small
  · left
    rw [Bool.eq_false_iff, Bool.eq_false_iff, Ne, Ne, isLeading_iff, isTrailing_iff]
    exact ⟨rfl, by omega, by omega⟩
  · right
    refine ⟨_, _, rfl, isLeading_iff.mpr (by omega), isTrailing_iff.mpr (by omega), ?_⟩
    have number : (0xD800 + (c.toNat - 0x10000) / 1024 - 0xD800) * 1024 +
        (0xDC00 + (c.toNat - 0x10000) % 1024 - 0xDC00) + 0x10000 = c.toNat := by omega
    rw [pairValue, number, Char.ofNat_toNat]

theorem letterEscape?_eq_some_iff {letter c : Char} :
    letterEscape? letter = some c ↔ (letter, c) ∈ letters := by
  constructor
  · intro stands
    rw [letterEscape?] at stands
    split_ifs at stands with same
    · cases stands
      rcases same with rfl | rfl | rfl <;> decide
    all_goals
      cases stands
      subst letter
      decide
  · intro listed
    simp only [letters, List.mem_cons, Prod.mk.injEq, List.not_mem_nil, or_false] at listed
    rcases listed with ⟨rfl, rfl⟩ | ⟨rfl, rfl⟩ | ⟨rfl, rfl⟩ | ⟨rfl, rfl⟩ | ⟨rfl, rfl⟩ | ⟨rfl, rfl⟩ |
      ⟨rfl, rfl⟩ | ⟨rfl, rfl⟩
    all_goals decide

theorem trailingUnit_eq_ok_iff {text : List Char} {unit : Nat} :
    trailingUnit text = .ok unit ↔ isTrailing unit = true ∧
      ∃ four rest, SpellsUnit unit four ∧ text = '\\' :: 'u' :: (four ++ rest) := by
  constructor
  · intro read
    rw [trailingUnit.eq_def] at read
    split at read
    · cases read
    · cases read
    · next digits =>
        split at read
        · cases read
        · next found spelled =>
            split_ifs at read with trails
            cases read
            obtain ⟨four, rest, spells, rfl⟩ := codeUnit_eq_ok_iff.mp spelled
            exact ⟨trails, four, rest, spells, rfl⟩
    · cases read
    · cases read
  · rintro ⟨trails, four, rest, spells, rfl⟩
    have unit_read := codeUnit_eq_ok_iff.mpr ⟨four, rest, spells, rfl⟩
    simp only [trailingUnit, unit_read, trails, if_true]

theorem SpellsChar.unit {c : Char} {unit : Nat} {four : List Char} (units : codeUnits c = [unit])
    (spelled : SpellsUnit unit four) : SpellsChar c ('\\' :: 'u' :: four) := by
  have digits : List.Forall₂ SpellsUnit (codeUnits c) [four] := by
    rw [units]
    exact .cons spelled .nil
  simpa using SpellsChar.units digits

theorem SpellsChar.pair {c : Char} {leading trailing : Nat} {four more : List Char}
    (units : codeUnits c = [leading, trailing]) (spelled : SpellsUnit leading four)
    (spelled_more : SpellsUnit trailing more) :
    SpellsChar c ('\\' :: 'u' :: (four ++ '\\' :: 'u' :: more)) := by
  have digits : List.Forall₂ SpellsUnit (codeUnits c) [four, more] := by
    rw [units]
    exact .cons spelled (.cons spelled_more .nil)
  simpa using SpellsChar.units digits

/-- What is read as an escape spells its character. -/
theorem exists_of_escape {text : List Char} {c : Char} {length : Nat}
    (read : escape text = .ok (c, length)) :
    ∃ piece rest, text = piece ++ rest ∧ piece.length = length ∧ SpellsChar c ('\\' :: piece) := by
  cases text with
  | nil => cases read
  | cons letter digits =>
      rw [escape] at read
      split_ifs at read with unicode
      · subst unicode
        rw [unicodeEscape] at read
        split at read
        · cases read
        · next unit spelled =>
            obtain ⟨four, rest, spells, rfl⟩ := codeUnit_eq_ok_iff.mp spelled
            have behind : (four ++ rest).drop 4 = rest := by
              rw [← spells.length_eq, List.drop_left]
            rw [behind] at read
            dsimp only at read
            split_ifs at read with trails leads
            · split at read
              · cases read
              · next second spelled_second =>
                  obtain ⟨trails, more, others, spells_more, rfl⟩ :=
                    trailingUnit_eq_ok_iff.mp spelled_second
                  obtain ⟨rfl, rfl⟩ := Prod.mk.inj (Except.ok.inj read)
                  refine ⟨'u' :: (four ++ '\\' :: 'u' :: more), others, by simp, ?_,
                    .pair (codeUnits_pairValue leads trails) spells spells_more⟩
                  simp [spells.length_eq, spells_more.length_eq]
            · cases read
              rw [Bool.not_eq_true] at trails leads
              exact ⟨'u' :: four, rest, rfl, by simp [spells.length_eq],
                .unit (codeUnits_ofNat spells.lt leads trails) spells⟩
      · split at read
        · next value stands =>
            cases read
            exact ⟨[letter], digits, rfl, rfl, .letter (letterEscape?_eq_some_iff.mp stands)⟩
        · cases read

theorem escape_unit {c : Char} {unit : Nat} {four : List Char} (units : codeUnits c = [unit])
    (spelled : SpellsUnit unit four) (rest : List Char) :
    escape ('u' :: (four ++ rest)) = .ok (c, 5) := by
  have unit_read := codeUnit_eq_ok_iff.mpr ⟨four, rest, spelled, rfl⟩
  rcases codeUnits_cases c with ⟨single, leads, trails⟩ | ⟨_, _, pair, -⟩
  · cases single.symm.trans units
    simp only [escape, unicodeEscape, if_true, unit_read, leads, trails, Char.ofNat_toNat]
    rfl
  · cases pair.symm.trans units

theorem escape_pair {c : Char} {leading trailing : Nat} {four more : List Char}
    (units : codeUnits c = [leading, trailing]) (spelled : SpellsUnit leading four)
    (spelled_more : SpellsUnit trailing more) (rest : List Char) :
    escape ('u' :: (four ++ '\\' :: 'u' :: (more ++ rest))) = .ok (c, 11) := by
  have unit_read := codeUnit_eq_ok_iff.mpr
    ⟨four, '\\' :: 'u' :: (more ++ rest), spelled, rfl⟩
  have behind : (four ++ '\\' :: 'u' :: (more ++ rest)).drop 4 = '\\' :: 'u' :: (more ++ rest) := by
    rw [← spelled.length_eq, List.drop_left]
  rcases codeUnits_cases c with ⟨single, -⟩ | ⟨_, _, pair, leads, trails, value⟩
  · cases single.symm.trans units
  · cases pair.symm.trans units
    have second_read := trailingUnit_eq_ok_iff.mpr ⟨trails, more, rest, spelled_more, rfl⟩
    have no_trailing : isTrailing leading = false := by
      rw [isLeading_iff] at leads
      rw [Bool.eq_false_iff, Ne, isTrailing_iff]
      omega
    simp only [escape, unicodeEscape, if_true, unit_read, behind, leads, no_trailing, second_read,
      value]
    rfl

/-! ## Strings -/

/-- An escape is read as a whole, and reading goes on behind it. -/
theorem stringFrom_backslash {text : List Char} {c : Char} {length : Nat}
    (escapes : escape text = .ok (c, length)) :
    stringFrom 0 ('\\' :: text) = prepend c (stringFrom length text) := by
  rw [stringFrom, if_neg (by decide), if_pos rfl, escapes]

theorem stringFrom_letter {letter c : Char} (other : letter ≠ 'u')
    (stands : letterEscape? letter = some c) (rest : List Char) :
    stringFrom 0 ('\\' :: letter :: rest) = prepend c (stringFrom 0 rest) := by
  rw [stringFrom_backslash (show escape (letter :: rest) = .ok (c, 1) by
    simp only [escape, if_neg other, stands])]
  rw [stringFrom]

theorem stringFrom_skip (piece rest : List Char) :
    stringFrom piece.length (piece ++ rest) = stringFrom 0 rest := by
  induction piece with
  | nil => rfl
  | cons c others ih => rwa [List.length_cons, List.cons_append, stringFrom]

/-- A character is read from any of its spellings. -/
theorem stringFrom_spelled {c : Char} {piece : List Char} (spelled : SpellsChar c piece)
    (rest : List Char) : stringFrom 0 (piece ++ rest) = prepend c (stringFrom 0 rest) := by
  cases spelled with
  | plain no_quote no_backslash visible =>
      rw [List.singleton_append, stringFrom, if_neg no_quote, if_neg no_backslash,
        if_neg (by omega)]
  | @letter letter stands =>
      have other : letter ≠ 'u' := by
        rintro rfl
        simp [letters] at stands
      exact stringFrom_letter other (letterEscape?_eq_some_iff.mpr stands) rest
  | units spelled =>
      rcases codeUnits_cases c with ⟨single, -⟩ | ⟨leading, trailing, pair, -⟩
      · rw [single] at spelled
        obtain _ | ⟨one, ⟨⟩⟩ := spelled
        rename_i four
        have text : [four].flatMap (fun four => '\\' :: 'u' :: four) ++ rest =
            '\\' :: 'u' :: (four ++ rest) := by simp
        rw [text, stringFrom_backslash (escape_unit single one rest)]
        have skipped := stringFrom_skip ('u' :: four) rest
        rw [List.length_cons, one.length_eq] at skipped
        exact congrArg (prepend c) skipped
      · rw [pair] at spelled
        obtain _ | ⟨one, _ | ⟨two, ⟨⟩⟩⟩ := spelled
        rename_i four more
        have text : [four, more].flatMap (fun four => '\\' :: 'u' :: four) ++ rest =
            '\\' :: 'u' :: (four ++ '\\' :: 'u' :: (more ++ rest)) := by simp
        rw [text, stringFrom_backslash (escape_pair pair one two rest)]
        have skipped := stringFrom_skip ('u' :: (four ++ '\\' :: 'u' :: more)) rest
        simp only [List.length_cons, List.length_append, one.length_eq, two.length_eq,
          List.cons_append, List.append_assoc] at skipped
        exact congrArg (prepend c) skipped

theorem exists_of_prepend {c : Char} {content rest : List Char}
    {read : Except (Fault SyntaxError) (List Char × List Char)}
    (read_on : prepend c read = .ok (content, rest)) :
    ∃ others, read = .ok (others, rest) ∧ content = c :: others := by
  rcases read with fault | ⟨others, left⟩
  · cases read_on
  · cases read_on
    exact ⟨others, rfl, rfl⟩

/-- The content of a string is what is spelled up to its closing quote. -/
theorem stringFrom_eq_ok_iff {text content rest : List Char} :
    stringFrom 0 text = .ok (content, rest) ↔
      ∃ pieces, List.Forall₂ SpellsChar content pieces ∧ text = pieces.flatten ++ '"' :: rest := by
  constructor
  · -- What is left behind a character is shorter, by the whole escape if it is one.
    induction bound : text.length using Nat.strong_induction_on generalizing text content with
    | _ bound ih =>
    intro read
    subst bound
    cases text with
    | nil => cases read
    | cons first others =>
        rw [stringFrom] at read
        split_ifs at read with quote backslash control
        · cases read
          exact ⟨[], .nil, by rw [quote]; rfl⟩
        · split at read
          · cases read
          · next value length escaped =>
              obtain ⟨piece, left, rfl, rfl, spelled⟩ := exists_of_escape escaped
              obtain ⟨more, behind, rfl⟩ := exists_of_prepend read
              rw [stringFrom_skip] at behind
              obtain ⟨pieces, spells, rfl⟩ := ih left.length (by simp) rfl behind
              exact ⟨('\\' :: piece) :: pieces, .cons spelled spells, by simp [backslash]⟩
        · obtain ⟨more, behind, rfl⟩ := exists_of_prepend read
          obtain ⟨pieces, spells, rfl⟩ := ih others.length (by simp) rfl behind
          exact ⟨[first] :: pieces, .cons (.plain quote backslash (by omega)) spells, rfl⟩
  · rintro ⟨pieces, spells, rfl⟩
    induction spells with
    | nil => rfl
    | cons spelled _ ih =>
        rw [List.flatten_cons, List.append_assoc, stringFrom_spelled spelled, ih]
        rfl

/-- A string is read exactly if its text is one of the grammar. The quote that opens it
has been read. -/
theorem readString_eq_ok_iff {text rest : List Char} {content : String} :
    readString text = .ok (content, rest) ↔
      ∃ body, SpellsString content ('"' :: body) ∧ text = body ++ rest := by
  constructor
  · intro read
    rw [readString] at read
    split at read
    · next chars left found =>
        cases read
        obtain ⟨pieces, spells, rfl⟩ := stringFrom_eq_ok_iff.mp found
        refine ⟨pieces.flatten ++ ['"'], .quoted ?_, by simp⟩
        rwa [String.toList_ofList]
    · cases read
  · rintro ⟨body, spelled, rfl⟩
    obtain ⟨spells⟩ := spelled
    rename_i pieces
    have found : stringFrom 0 (pieces.flatten ++ ['"'] ++ rest) = .ok (content.toList, rest) :=
      stringFrom_eq_ok_iff.mpr ⟨pieces, spells, by simp⟩
    simp only [readString, found, String.ofList_toList]

end Json

end CacheManifest
