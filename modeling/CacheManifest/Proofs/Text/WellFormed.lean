/-
# Bytes that are text

Bytes are text if no piece of them is broken. Then the lossy reading is the
strict one, and writing what was read gives the bytes back, so text tells its
bytes apart.

The bits of a sequence that is under way belong to the bytes seen. This is said
for all ways in which the sequence may be carried on to its end, which makes it
an invariant of the reading at once; what is left are the numbers of characters
with two, three and four bytes.
-/

import CacheManifest.Proofs.Text.Ascii

namespace CacheManifest

namespace Utf8

/-- Bytes that spell text: no piece of them is broken. -/
def WellFormed (bytes : Bytes) : Prop := (decode? bytes).isSome = true

instance (bytes : Bytes) : Decidable (WellFormed bytes) := by
  unfold WellFormed
  infer_instance

theorem wellFormed_iff {bytes : Bytes} :
    WellFormed bytes ↔ ∀ piece ∈ pieces bytes, ∃ c, piece = .char c := by
  have each (piece : Piece) : piece.char?.isSome = true ↔ ∃ c, piece = .char c := by
    cases piece <;> simp [Piece.char?]
  have all (shown : List Piece) :
      (shown.mapM Piece.char?).isSome = true ↔ ∀ piece ∈ shown, piece.char?.isSome = true := by
    induction shown with
    | nil => simp
    | cons piece others ih =>
        rw [List.mapM_cons, List.forall_mem_cons, ← ih]
        cases piece.char? <;> cases others.mapM Piece.char? <;> simp
  rw [WellFormed, decode?, Option.isSome_map, chars?, all]
  simp only [each]

/-- Bytes whose lossy reading has no replacement are text. -/
theorem wellFormed_of_replacement_not_mem {bytes : Bytes}
    (whole : replacement ∉ lossyChars bytes) : WellFormed bytes := by
  apply wellFormed_iff.mpr
  intro piece inside
  cases piece with
  | char c => exact ⟨c, rfl⟩
  | broken seen => exact absurd (List.mem_map_of_mem inside) whole

/-- What is left and right of an ASCII byte is text if the whole is. -/
theorem wellFormed_append_cons {byte : UInt8} (ascii : byte.toNat < 0x80) {front rest : Bytes} :
    WellFormed (front ++ byte :: rest) ↔ WellFormed front ∧ WellFormed rest := by
  simp only [wellFormed_iff, pieces_append_cons ascii, List.forall_mem_append,
    List.forall_mem_cons]
  simp

/-- The bits of a sequence belong to the bytes seen: however it is carried on to
its end, the character it comes to has just these bytes. -/
def FaithfulFrom : Nat → Bytes → Nat → Nat → Nat → Prop
  | 0, seen, bits, low, high =>
    ∀ byte : UInt8, low ≤ byte.toNat → byte.toNat ≤ high →
      encodeChar (Char.ofNat (bits * 64 + byte.toNat % 64)) = seen ++ [byte]
  | further + 1, seen, bits, low, high =>
    ∀ byte : UInt8, low ≤ byte.toNat → byte.toNat ≤ high →
      FaithfulFrom further (seen ++ [byte]) (bits * 64 + byte.toNat % 64) 0x80 0xBF

/-- A sequence whose bits belong to its bytes. -/
def Pending.Faithful (pending : Pending) : Prop :=
  FaithfulFrom pending.further pending.seen pending.bits pending.low pending.high

/-! ## Characters by their number -/

theorem ofNat_eq_of_toNat {byte : UInt8} {value : Nat} (same : value = byte.toNat) :
    UInt8.ofNat value = byte := by
  rw [same, UInt8.ofNat_toNat]

theorem encodeChar_ofNat_two {value : Nat} {first second : UInt8} (low : 0x80 ≤ value)
    (high : value < 0x800) (head : 0xC0 + value / 64 = first.toNat)
    (last : 0x80 + value % 64 = second.toNat) :
    encodeChar (Char.ofNat value) = [first, second] := by
  have valid : value.isValidChar := Or.inl (by omega)
  rw [encodeChar, Char.toNat_ofNat, if_pos valid]
  simp only [if_neg (show ¬ value < 0x80 by omega), if_pos high, ofNat_eq_of_toNat head,
    ofNat_eq_of_toNat last]

theorem encodeChar_ofNat_three {value : Nat} {first second third : UInt8}
    (low : 0x800 ≤ value) (high : value < 0x10000) (valid : value < 0xD800 ∨ 0xDFFF < value)
    (head : 0xE0 + value / 4096 = first.toNat) (next : 0x80 + value / 64 % 64 = second.toNat)
    (last : 0x80 + value % 64 = third.toNat) :
    encodeChar (Char.ofNat value) = [first, second, third] := by
  have valid : value.isValidChar := valid.imp_right fun past => ⟨past, by omega⟩
  rw [encodeChar, Char.toNat_ofNat, if_pos valid]
  simp only [if_neg (show ¬ value < 0x80 by omega), if_neg (show ¬ value < 0x800 by omega),
    if_pos high, ofNat_eq_of_toNat head, ofNat_eq_of_toNat next, ofNat_eq_of_toNat last]

theorem encodeChar_ofNat_four {value : Nat} {first second third fourth : UInt8}
    (low : 0x10000 ≤ value) (high : value < 0x110000)
    (head : 0xF0 + value / 262144 = first.toNat) (next : 0x80 + value / 4096 % 64 = second.toNat)
    (more : 0x80 + value / 64 % 64 = third.toNat) (last : 0x80 + value % 64 = fourth.toNat) :
    encodeChar (Char.ofNat value) = [first, second, third, fourth] := by
  have valid : value.isValidChar := Or.inr ⟨by omega, high⟩
  rw [encodeChar, Char.toNat_ofNat, if_pos valid]
  simp only [if_neg (show ¬ value < 0x80 by omega), if_neg (show ¬ value < 0x800 by omega),
    if_neg (show ¬ value < 0x10000 by omega), ofNat_eq_of_toNat head, ofNat_eq_of_toNat next,
    ofNat_eq_of_toNat more, ofNat_eq_of_toNat last]

/-! ## Reading and writing again -/

theorem faithful_of_opening {byte : UInt8} {pending : Pending}
    (opened : opening byte = .inr pending) : pending.Faithful ∧ pending.seen = [byte] := by
  rw [opening] at opened
  split_ifs at opened
  all_goals
    cases opened
    refine ⟨?_, rfl⟩
    simp only [Pending.Faithful, FaithfulFrom, List.cons_append, List.nil_append]
    intros
  · apply encodeChar_ofNat_two <;> omega
  · apply encodeChar_ofNat_three <;> omega
  · apply encodeChar_ofNat_three <;> omega
  · apply encodeChar_ofNat_three <;> omega
  · apply encodeChar_ofNat_four <;> omega
  · apply encodeChar_ofNat_four <;> omega
  · apply encodeChar_ofNat_four <;> omega

theorem encodeChar_of_opening {byte : UInt8} {c : Char}
    (opened : opening byte = .inl (.char c)) : encodeChar c = [byte] := by
  rw [opening] at opened
  split_ifs at opened
  all_goals cases opened
  rename_i ascii
  have valid : byte.toNat.isValidChar := Or.inl (by omega)
  rw [encodeChar, Char.toNat_ofNat, if_pos valid]
  simp only [if_pos ascii, UInt8.ofNat_toNat]

theorem encodeChar_of_continued {pending : Pending} {byte : UInt8} {c : Char}
    (faithful : pending.Faithful) (carried : pending.continued byte = some (.inl (.char c))) :
    encodeChar c = pending.seen ++ [byte] := by
  rw [Pending.continued] at carried
  rw [Pending.Faithful] at faithful
  split at carried
  · next range =>
      cases further : pending.further with
      | zero =>
          simp only [further, Option.some.injEq, Sum.inl.injEq, Piece.char.injEq] at carried
          rw [further] at faithful
          rw [← carried]
          exact faithful byte range.1 range.2
      | succ more => simp [further] at carried
  · cases carried

theorem faithful_of_continued {pending next : Pending} {byte : UInt8}
    (faithful : pending.Faithful) (carried : pending.continued byte = some (.inr next)) :
    next.Faithful ∧ next.seen = pending.seen ++ [byte] := by
  rw [Pending.continued] at carried
  rw [Pending.Faithful] at faithful
  split at carried
  · next range =>
      cases further : pending.further with
      | zero => simp [further] at carried
      | succ more =>
          simp only [further, Option.some.injEq, Sum.inr.injEq] at carried
          rw [further] at faithful
          subst carried
          exact ⟨faithful byte range.1 range.2, rfl⟩
  · cases carried

/-- Pieces that are all characters have the bytes they were cut from. -/
theorem encodeChars_shown_piecesFrom {bytes : Bytes} {state : Option Pending}
    (faithful : ∀ pending ∈ state, pending.Faithful)
    (whole : ∀ piece ∈ piecesFrom state bytes, ∃ c, piece = .char c) :
    encodeChars ((piecesFrom state bytes).map Piece.shown) =
      (state.map Pending.seen).getD [] ++ bytes := by
  induction bytes generalizing state with
  | nil =>
      cases state with
      | none => rfl
      | some pending => simp [piecesFrom] at whole
  | cons byte rest ih =>
      cases state with
      | none =>
          cases opened : opening byte with
          | inl piece =>
              simp only [piecesFrom, opened, List.forall_mem_cons] at whole ⊢
              obtain ⟨⟨c, rfl⟩, others⟩ := whole
              have tail := @ih none (by simp) others
              simp only [encodeChars, List.map_cons, List.flatMap_cons] at tail ⊢
              rw [tail, Piece.shown, encodeChar_of_opening opened]
              rfl
          | inr pending =>
              obtain ⟨faithful, seen⟩ := faithful_of_opening opened
              simp only [piecesFrom, opened] at whole ⊢
              rw [@ih (some pending) (by simpa using faithful) whole]
              simp [seen]
      | some pending =>
          have under_way := faithful pending rfl
          cases carried : pending.continued byte with
          | none =>
              rw [piecesFrom_broken carried] at whole
              simp at whole
          | some result =>
              cases result with
              | inl piece =>
                  simp only [piecesFrom, carried, List.forall_mem_cons] at whole ⊢
                  obtain ⟨⟨c, rfl⟩, others⟩ := whole
                  have tail := @ih none (by simp) others
                  simp only [encodeChars, List.map_cons, List.flatMap_cons] at tail ⊢
                  rw [tail, Piece.shown, encodeChar_of_continued under_way carried]
                  simp
              | inr next =>
                  obtain ⟨further, seen⟩ := faithful_of_continued under_way carried
                  simp only [piecesFrom, carried] at whole ⊢
                  rw [@ih (some next) (by simpa using further) whole]
                  simp [seen]

/-- Text that is read from bytes is written as these bytes again. -/
theorem encodeChars_lossyChars {bytes : Bytes} (text : WellFormed bytes) :
    encodeChars (lossyChars bytes) = bytes :=
  encodeChars_shown_piecesFrom (by simp) (wellFormed_iff.mp text)

theorem map_encodeChars_lossyChars {names : List Bytes}
    (text : ∀ name ∈ names, WellFormed name) :
    (names.map lossyChars).map encodeChars = names := by
  rw [List.map_map]
  exact (List.map_congr_left fun name inside => encodeChars_lossyChars (text name inside)).trans
    (List.map_id _)

end Utf8

end CacheManifest
