/-
# ASCII in bytes and in text

An ASCII character is one byte, and no other character has that byte among its
own. Text therefore has an ASCII character exactly where its bytes have one, in
both directions: the lossy reading neither hides one nor makes one up, and what
stands before and after it is read by itself.

The reading needs an invariant for this. A sequence that is under way has already
gathered enough bits, or will with the next byte, that it cannot end in a
character of the ASCII range. The zero byte is left out: its character is also
what a number stands for that is no character.
-/

import Mathlib
import CacheManifest.Path

namespace CacheManifest

namespace Utf8

/-- A character of one byte, the zero byte excepted. -/
structure OneByte (letter : Char) : Prop where
  low : 0 < letter.toNat
  high : letter.toNat < 0x80

/-- The byte of a character of one byte. -/
def byteOf (letter : Char) : UInt8 := UInt8.ofNat letter.toNat

variable {letter : Char}

theorem eq_byteOf_iff (ascii : OneByte letter) {byte : UInt8} :
    byte = byteOf letter ↔ byte.toNat = letter.toNat := by
  have small : letter.toNat < UInt8.size := ascii.high.trans (by decide)
  rw [← UInt8.toNat_inj, byteOf, UInt8.toNat_ofNat_of_lt' small]

theorem byteOf_eq_ofNat_iff (ascii : OneByte letter) {value : Nat} :
    byteOf letter = UInt8.ofNat value ↔ value % 256 = letter.toNat := by
  rw [eq_comm, eq_byteOf_iff ascii]
  simp

theorem ofNat_eq_iff (ascii : OneByte letter) {value : Nat} :
    Char.ofNat value = letter ↔ value = letter.toNat := by
  have positive := ascii.low
  constructor
  · rintro rfl
    rw [Char.toNat_ofNat] at positive ⊢
    split_ifs at positive ⊢
    · rfl
    · exact absurd positive (Nat.lt_irrefl 0)
  · rintro rfl
    exact Char.ofNat_toNat letter

theorem replacement_ne (ascii : OneByte letter) : replacement ≠ letter := by
  rintro rfl
  exact absurd ascii.high (by decide)

/-! ## Writing text as bytes -/

theorem encode_append (front rest : String) :
    encode (front ++ rest) = encode front ++ encode rest := by
  simp [encode, encodeChars]

/-- The bytes of a character that is no ASCII character are no ASCII bytes. -/
theorem byteOf_mem_encodeChar (ascii : OneByte letter) {c : Char} :
    byteOf letter ∈ encodeChar c ↔ c = letter := by
  have bound : c.toNat < 0x110000 := by
    have same : c.toNat = c.val.toNat := rfl
    rcases c.valid with low | high <;> omega
  have small := ascii.high
  rw [← Char.toNat_inj, encodeChar]
  split_ifs <;>
    simp only [List.mem_cons, List.not_mem_nil, or_false, byteOf_eq_ofNat_iff ascii] <;> omega

theorem byteOf_mem_encodeChars (ascii : OneByte letter) {text : List Char} :
    byteOf letter ∈ encodeChars text ↔ letter ∈ text := by
  simp [encodeChars, byteOf_mem_encodeChar ascii]

theorem byteOf_mem_encode (ascii : OneByte letter) {text : String} :
    byteOf letter ∈ encode text ↔ letter ∈ text.toList :=
  byteOf_mem_encodeChars ascii

/-! ## Reading bytes as text -/

/-- A sequence that is too far on to end in an ASCII character: its bits already
exceed one byte of them, or they will after a byte that is still to come. -/
structure Pending.Advanced (pending : Pending) : Prop where
  low : 0x80 ≤ pending.low
  high : pending.high ≤ 0xBF
  bits : 2 ≤ pending.bits ∨ 0 < pending.further ∧ (1 ≤ pending.bits ∨ 0x90 ≤ pending.low)

theorem advanced_of_opening {byte : UInt8} {pending : Pending}
    (opened : opening byte = .inr pending) : pending.Advanced ∧ 0x80 ≤ byte.toNat := by
  rw [opening] at opened
  split_ifs at opened
  all_goals
    cases opened
    refine ⟨⟨by simp, by simp, ?_⟩, by omega⟩
    dsimp only
    omega

theorem shown_of_opening (ascii : OneByte letter) {byte : UInt8} {piece : Piece}
    (opened : opening byte = .inl piece) : piece.shown = letter ↔ byte = byteOf letter := by
  have small := ascii.high
  rw [opening] at opened
  rw [eq_byteOf_iff ascii]
  split_ifs at opened
  all_goals cases opened
  · exact ofNat_eq_iff ascii
  all_goals
    apply iff_of_false
    · exact replacement_ne ascii
    · omega

/-- A byte that carries a sequence on keeps it too far on. -/
theorem advanced_of_continued {pending next : Pending} {byte : UInt8}
    (advanced : pending.Advanced) (carried : pending.continued byte = some (.inr next)) :
    next.Advanced ∧ 0x80 ≤ byte.toNat := by
  obtain ⟨low, high, bits⟩ := advanced
  rw [Pending.continued] at carried
  split at carried
  · next range =>
      cases further : pending.further with
      | zero => simp [further] at carried
      | succ more =>
          simp only [further, Option.some.injEq, Sum.inr.injEq] at carried
          subst carried
          refine ⟨⟨by simp, by simp, Or.inl ?_⟩, by omega⟩
          dsimp only
          omega
  · cases carried

theorem shown_of_continued (ascii : OneByte letter) {pending : Pending} {piece : Piece}
    {byte : UInt8} (advanced : pending.Advanced)
    (carried : pending.continued byte = some (.inl piece)) :
    piece.shown ≠ letter ∧ 0x80 ≤ byte.toNat := by
  have small := ascii.high
  obtain ⟨low, high, bits⟩ := advanced
  rw [Pending.continued] at carried
  split at carried
  · next range =>
      cases further : pending.further with
      | zero =>
          simp only [further, Option.some.injEq, Sum.inl.injEq] at carried
          subst carried
          rw [Piece.shown, ne_eq, ofNat_eq_iff ascii]
          omega
      | succ more => simp [further] at carried
  · cases carried

theorem byteOf_ne_of_le (ascii : OneByte letter) {byte : UInt8} (far : 0x80 ≤ byte.toNat) :
    byteOf letter ≠ byte := by
  intro same
  have value := (eq_byteOf_iff ascii).mp same.symm
  have small := ascii.high
  omega

/-- A byte that breaks a sequence off is read as if none had been under way. -/
theorem piecesFrom_broken {pending : Pending} {byte : UInt8} {rest : Bytes}
    (broken : pending.continued byte = none) :
    piecesFrom (some pending) (byte :: rest) =
      .broken pending.seen :: piecesFrom none (byte :: rest) := by
  simp only [piecesFrom, broken]

theorem mem_shown_piecesFrom (ascii : OneByte letter) {bytes : Bytes} {state : Option Pending}
    (advanced : ∀ pending ∈ state, pending.Advanced) :
    letter ∈ (piecesFrom state bytes).map Piece.shown ↔ byteOf letter ∈ bytes := by
  induction bytes generalizing state with
  | nil =>
      cases state with
      | none => simp [piecesFrom]
      | some pending => simpa [piecesFrom, Piece.shown] using (replacement_ne ascii).symm
  | cons byte rest ih =>
      have opens : letter ∈ (piecesFrom none (byte :: rest)).map Piece.shown ↔
          byteOf letter ∈ byte :: rest := by
        rw [piecesFrom, List.mem_cons]
        cases opened : opening byte with
        | inl piece =>
            rw [List.map_cons, List.mem_cons, ih (by simp), eq_comm,
              shown_of_opening ascii opened, eq_comm]
        | inr pending =>
            obtain ⟨next, far⟩ := advanced_of_opening opened
            rw [or_iff_right (byteOf_ne_of_le ascii far)]
            exact ih (by simpa using next)
      cases state with
      | none => exact opens
      | some pending =>
          have under_way := advanced pending rfl
          cases carried : pending.continued byte with
          | none =>
              rw [piecesFrom_broken carried, List.map_cons, List.mem_cons, opens]
              exact or_iff_right (replacement_ne ascii).symm
          | some result =>
              cases result with
              | inl piece =>
                  obtain ⟨shown, far⟩ := shown_of_continued ascii under_way carried
                  simp only [piecesFrom, carried, List.map_cons, List.mem_cons]
                  rw [or_iff_right shown.symm, or_iff_right (byteOf_ne_of_le ascii far)]
                  exact ih (by simp)
              | inr next =>
                  obtain ⟨further, far⟩ := advanced_of_continued under_way carried
                  simp only [piecesFrom, carried, List.mem_cons]
                  rw [or_iff_right (byteOf_ne_of_le ascii far)]
                  exact ih (by simpa using further)

/-- The lossy reading has an ASCII character exactly if the bytes have its byte. -/
theorem mem_lossyChars (ascii : OneByte letter) {bytes : Bytes} :
    letter ∈ lossyChars bytes ↔ byteOf letter ∈ bytes :=
  mem_shown_piecesFrom ascii (by simp)

/-! ## Cutting at ASCII -/

theorem opening_of_lt {byte : UInt8} (ascii : byte.toNat < 0x80) :
    opening byte = .inl (.char (Char.ofNat byte.toNat)) := by
  rw [opening, if_pos ascii]

theorem continued_of_lt {pending : Pending} (low : 0x80 ≤ pending.low) {byte : UInt8}
    (ascii : byte.toNat < 0x80) : pending.continued byte = none := by
  rw [Pending.continued, if_neg]
  omega

/-- An ASCII byte is a piece of its own: it ends what is under way before it, and
what is behind it is read by itself. -/
theorem piecesFrom_append_cons {byte : UInt8} (ascii : byte.toNat < 0x80) (front rest : Bytes)
    {state : Option Pending} (advanced : ∀ pending ∈ state, pending.Advanced) :
    piecesFrom state (front ++ byte :: rest) =
      piecesFrom state front ++ .char (Char.ofNat byte.toNat) :: pieces rest := by
  induction front generalizing state with
  | nil =>
      cases state with
      | none => simp only [List.nil_append, piecesFrom, opening_of_lt ascii, pieces]
      | some pending =>
          rw [List.nil_append, piecesFrom_broken (continued_of_lt (advanced pending rfl).low ascii)]
          simp only [piecesFrom, opening_of_lt ascii, pieces, List.singleton_append]
  | cons first front ih =>
      have opens : piecesFrom none (first :: (front ++ byte :: rest)) =
          piecesFrom none (first :: front) ++ .char (Char.ofNat byte.toNat) :: pieces rest := by
        cases opened : opening first with
        | inl piece =>
            simp only [piecesFrom, opened, @ih none (by simp), List.cons_append]
        | inr pending =>
            obtain ⟨next, -⟩ := advanced_of_opening opened
            simp only [piecesFrom, opened, @ih (some pending) (by simpa using next)]
      rw [List.cons_append]
      cases state with
      | none => exact opens
      | some pending =>
          have under_way := advanced pending rfl
          cases carried : pending.continued first with
          | none =>
              rw [piecesFrom_broken carried, piecesFrom_broken carried, opens, List.cons_append]
          | some result =>
              cases result with
              | inl piece =>
                  simp only [piecesFrom, carried, @ih none (by simp), List.cons_append]
              | inr next =>
                  obtain ⟨further, -⟩ := advanced_of_continued under_way carried
                  simp only [piecesFrom, carried, @ih (some next) (by simpa using further)]

theorem pieces_append_cons {byte : UInt8} (ascii : byte.toNat < 0x80) (front rest : Bytes) :
    pieces (front ++ byte :: rest) =
      pieces front ++ .char (Char.ofNat byte.toNat) :: pieces rest :=
  piecesFrom_append_cons ascii front rest (by simp)

/-- An ASCII character stands in the lossy reading where its byte stands, with the
readings of what is before and behind it around it. -/
theorem lossyChars_append_cons (ascii : OneByte letter) (front rest : Bytes) :
    lossyChars (front ++ byteOf letter :: rest) =
      lossyChars front ++ letter :: lossyChars rest := by
  have value : (byteOf letter).toNat = letter.toNat := (eq_byteOf_iff ascii).mp rfl
  rw [lossyChars, pieces_append_cons (value ▸ ascii.high), List.map_append, List.map_cons,
    value, Piece.shown, Char.ofNat_toNat]
  rfl

/-! ## Line feeds, separators and dots -/

/-- The byte that ends a line. -/
def lineFeed : UInt8 := 0x0A

theorem oneByte_newline : OneByte '\n' := ⟨by decide, by decide⟩

theorem oneByte_slash : OneByte '/' := ⟨by decide, by decide⟩

theorem oneByte_backslash : OneByte '\\' := ⟨by decide, by decide⟩

theorem oneByte_dot : OneByte '.' := ⟨by decide, by decide⟩

theorem lineFeed_mem_encode {text : String} : lineFeed ∈ encode text ↔ '\n' ∈ text.toList :=
  byteOf_mem_encode oneByte_newline

theorem newline_mem_lossyChars {bytes : Bytes} : '\n' ∈ lossyChars bytes ↔ lineFeed ∈ bytes :=
  mem_lossyChars oneByte_newline

theorem slash_mem_lossyChars {bytes : Bytes} : '/' ∈ lossyChars bytes ↔ Path.slash ∈ bytes :=
  mem_lossyChars oneByte_slash

theorem backslash_mem_lossyChars {bytes : Bytes} :
    '\\' ∈ lossyChars bytes ↔ Path.backslash ∈ bytes :=
  mem_lossyChars oneByte_backslash

end Utf8

end CacheManifest
