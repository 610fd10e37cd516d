/-
# Text that is written as bytes

The bytes of a character are read as this character, whatever follows them. The first byte
opens a sequence of the right length; its bits and those of the bytes behind it are the
digits of the character's number in base 64. What makes the first byte open the sequence,
and the second one carry it on, is that the number is that of a character: it needs all its
bytes, and it is no surrogate.

So a text is read from its bytes, and only from them.
-/

import CacheManifest.Proofs.Text.WellFormed

namespace CacheManifest

namespace Utf8

variable {c : Char} {rest : Bytes}

/-! ## Sequences that are under way -/

section Sequence

variable {seen : Bytes} {bits further low high digit : Nat}

theorem toNat_ofNat_digit (small : digit < 64) :
    (UInt8.ofNat (0x80 + digit)).toNat = 0x80 + digit := by
  simp
  omega

/-- The byte that ends a sequence, by the six bits in it. -/
theorem piecesFrom_last (small : digit < 64) (above : low ≤ 0x80 + digit)
    (below : 0x80 + digit ≤ high) :
    piecesFrom (some ⟨seen, bits, 0, low, high⟩) (UInt8.ofNat (0x80 + digit) :: rest) =
      .char (Char.ofNat (bits * 64 + digit)) :: pieces rest := by
  have six : (0x80 + digit) % 64 = digit := by omega
  simp only [piecesFrom, Pending.continued, toNat_ofNat_digit small, if_pos (And.intro above below),
    six, pieces]

/-- A byte that carries a sequence on, by the six bits in it. -/
theorem piecesFrom_next (small : digit < 64) (above : low ≤ 0x80 + digit)
    (below : 0x80 + digit ≤ high) :
    piecesFrom (some ⟨seen, bits, further + 1, low, high⟩) (UInt8.ofNat (0x80 + digit) :: rest) =
      piecesFrom (some ⟨seen ++ [UInt8.ofNat (0x80 + digit)], bits * 64 + digit, further, 0x80,
        0xBF⟩) rest := by
  have six : (0x80 + digit) % 64 = digit := by omega
  simp only [piecesFrom, Pending.continued, toNat_ofNat_digit small, if_pos (And.intro above below),
    six]

end Sequence

theorem pieces_of_opening {byte : UInt8} {pending : Pending}
    (opened : opening byte = .inr pending) :
    pieces (byte :: rest) = piecesFrom (some pending) rest := by
  rw [pieces, piecesFrom, opened]

/-! ## Characters by their number of bytes -/

theorem toNat_lt_or_lt (c : Char) : c.toNat < 0xD800 ∨ 0xDFFF < c.toNat ∧ c.toNat < 0x110000 :=
  c.valid

theorem opening_two (low : 0x80 ≤ c.toNat) (high : c.toNat < 0x800) :
    opening (UInt8.ofNat (0xC0 + c.toNat / 64)) =
      .inr ⟨[UInt8.ofNat (0xC0 + c.toNat / 64)], c.toNat / 64, 0, 0x80, 0xBF⟩ := by
  have value : (UInt8.ofNat (0xC0 + c.toNat / 64)).toNat = 0xC0 + c.toNat / 64 := by
    simp
    omega
  have bits : (0xC0 + c.toNat / 64) % 32 = c.toNat / 64 := by omega
  rw [opening, value]
  simp only [bits]
  rw [if_neg (by omega), if_neg (by omega), if_pos (by omega)]

theorem opening_three (low : 0x800 ≤ c.toNat) (high : c.toNat < 0x10000) :
    ∃ least greatest, opening (UInt8.ofNat (0xE0 + c.toNat / 4096)) =
        .inr ⟨[UInt8.ofNat (0xE0 + c.toNat / 4096)], c.toNat / 4096, 1, least, greatest⟩ ∧
      least ≤ 0x80 + c.toNat / 64 % 64 ∧ 0x80 + c.toNat / 64 % 64 ≤ greatest := by
  have value : (UInt8.ofNat (0xE0 + c.toNat / 4096)).toNat = 0xE0 + c.toNat / 4096 := by
    simp
    omega
  have valid := toNat_lt_or_lt c
  rw [opening, value]
  -- The least and the greatest leading byte of this length need a narrower second byte.
  split_ifs with one two three four five six
  all_goals try omega
  · exact ⟨_, _, by rw [show c.toNat / 4096 = 0 by omega], by omega, by omega⟩
  · exact ⟨_, _, by rw [show c.toNat / 4096 = 13 by omega], by omega, by omega⟩
  · exact ⟨_, _, by rw [show (0xE0 + c.toNat / 4096) % 16 = c.toNat / 4096 by omega], by omega,
      by omega⟩

theorem opening_four (low : 0x10000 ≤ c.toNat) :
    ∃ least greatest, opening (UInt8.ofNat (0xF0 + c.toNat / 262144)) =
        .inr ⟨[UInt8.ofNat (0xF0 + c.toNat / 262144)], c.toNat / 262144, 2, least, greatest⟩ ∧
      least ≤ 0x80 + c.toNat / 4096 % 64 ∧ 0x80 + c.toNat / 4096 % 64 ≤ greatest := by
  have valid := toNat_lt_or_lt c
  have value : (UInt8.ofNat (0xF0 + c.toNat / 262144)).toNat = 0xF0 + c.toNat / 262144 := by
    simp
    omega
  rw [opening, value]
  split_ifs with one two three four five six seven eight nine
  all_goals try omega
  · exact ⟨_, _, by rw [show c.toNat / 262144 = 0 by omega], by omega, by omega⟩
  · exact ⟨_, _, by rw [show (0xF0 + c.toNat / 262144) % 8 = c.toNat / 262144 by omega], by omega,
      by omega⟩
  · exact ⟨_, _, by rw [show c.toNat / 262144 = 4 by omega], by omega, by omega⟩

/-- The bytes of a character are a piece of their own: this character. -/
theorem pieces_encodeChar_append (c : Char) (rest : Bytes) :
    pieces (encodeChar c ++ rest) = .char c :: pieces rest := by
  have small (number : Nat) : number % 64 < 64 := Nat.mod_lt number (by decide)
  have inside (number : Nat) : 0x80 ≤ 0x80 + number % 64 ∧ 0x80 + number % 64 ≤ 0xBF := by omega
  rw [encodeChar]
  split_ifs with one two three
  · have value : (UInt8.ofNat c.toNat).toNat = c.toNat := by
      simp
      omega
    simp only [pieces, List.singleton_append, piecesFrom, opening, value, if_pos one,
      Char.ofNat_toNat]
  · have number : c.toNat / 64 * 64 + c.toNat % 64 = c.toNat := by omega
    rw [List.cons_append, List.singleton_append,
      pieces_of_opening (opening_two (not_lt.mp one) two),
      piecesFrom_last (small _) (inside _).1 (inside _).2, number, Char.ofNat_toNat]
  · have number : (c.toNat / 4096 * 64 + c.toNat / 64 % 64) * 64 + c.toNat % 64 = c.toNat := by
      omega
    obtain ⟨least, greatest, opened, above, below⟩ := opening_three (not_lt.mp two) three
    rw [List.cons_append, List.cons_append, List.singleton_append, pieces_of_opening opened,
      piecesFrom_next (small _) above below, piecesFrom_last (small _) (inside _).1 (inside _).2,
      number, Char.ofNat_toNat]
  · have number : ((c.toNat / 262144 * 64 + c.toNat / 4096 % 64) * 64 + c.toNat / 64 % 64) * 64 +
        c.toNat % 64 = c.toNat := by
      omega
    obtain ⟨least, greatest, opened, above, below⟩ := opening_four (not_lt.mp three)
    rw [List.cons_append, List.cons_append, List.cons_append, List.singleton_append,
      pieces_of_opening opened, piecesFrom_next (small _) above below,
      piecesFrom_next (small _) (inside _).1 (inside _).2,
      piecesFrom_last (small _) (inside _).1 (inside _).2, number, Char.ofNat_toNat]

/-! ## Texts -/

theorem pieces_encodeChars (text : List Char) : pieces (encodeChars text) = text.map .char := by
  induction text with
  | nil => rfl
  | cons c others ih =>
      rw [encodeChars, List.flatMap_cons, pieces_encodeChar_append]
      exact congrArg (List.cons _) ih

theorem lossyChars_encodeChars (text : List Char) : lossyChars (encodeChars text) = text := by
  rw [lossyChars, pieces_encodeChars, List.map_map]
  exact List.map_id _

theorem chars?_eq_some_iff {bytes : Bytes} {text : List Char} :
    chars? bytes = some text ↔ pieces bytes = text.map .char := by
  rw [chars?]
  induction pieces bytes generalizing text with
  | nil => cases text <;> simp
  | cons piece others ih =>
      rw [List.mapM_cons]
      cases piece with
      | broken bytes => cases text <;> simp [Piece.char?]
      | char c =>
          cases text with
          | nil => cases others.mapM Piece.char? <;> simp [Piece.char?]
          | cons first rest =>
              have behind := @ih rest
              cases read : others.mapM Piece.char? <;> simp_all [Piece.char?]

/-- Bytes are read as a text exactly if they are its bytes. -/
theorem decode?_eq_some_iff {bytes : Bytes} {text : String} :
    decode? bytes = some text ↔ bytes = encode text := by
  have chars : decode? bytes = some text ↔ pieces bytes = text.toList.map .char := by
    rw [← chars?_eq_some_iff, decode?, Option.map_eq_some_iff]
    constructor
    · rintro ⟨chars, read, rfl⟩
      rw [read, String.toList_ofList]
    · intro read
      exact ⟨_, read, String.ofList_toList⟩
  rw [chars]
  constructor
  · intro whole
    have wellFormed : WellFormed bytes := by
      rw [WellFormed, chars.mpr whole, Option.isSome_some]
    rw [← encodeChars_lossyChars wellFormed, lossyChars, whole, List.map_map, encode]
    exact congrArg encodeChars (List.map_id _)
  · rintro rfl
    exact pieces_encodeChars _

end Utf8

end CacheManifest
