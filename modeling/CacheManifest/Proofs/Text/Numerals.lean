/-
# Numerals of a fixed width

A numeral of a width is the number in decimal digits, with zeros in front up to the
width and none beyond it. Numerals that fit their width are all as long as it, so of
two texts that start with such numerals the numbers decide first which text comes before
the other, and what stands behind them only where the numbers are the same.
-/

import Mathlib
import CacheManifest.Timestamp

namespace CacheManifest

/-- Digits that stand for a number: at least so many, and where there are more the first
of them counts. -/
structure Numeral (width value : Nat) (digits : List Char) : Prop where
  isDigit : ∀ c ∈ digits, c.isDigit = true
  reads : Nat.ofDigitChars 10 digits 0 = value
  width_le : width ≤ digits.length
  le_of_longer : width < digits.length → 10 ^ (digits.length - 1) ≤ value

/-! ## The order of digits -/

theorem isDigit_iff_exists_lt_ten {c : Char} :
    c.isDigit = true ↔ ∃ digit < 10, c.toNat = '0'.toNat + digit := by
  have nine : '9'.toNat = '0'.toNat + 9 := rfl
  rw [Char.isDigit_iff_toNat, nine]
  constructor
  · rintro ⟨low, high⟩
    exact ⟨c.toNat - '0'.toNat, by omega, by omega⟩
  · rintro ⟨digit, small, shown⟩
    omega

theorem ofDigitChars_cons_zero (c : Char) (digits : List Char) :
    Nat.ofDigitChars 10 (c :: digits) 0 =
      10 ^ digits.length * (c.toNat - '0'.toNat) + Nat.ofDigitChars 10 digits 0 := by
  rw [Nat.ofDigitChars_cons, Nat.ofDigitChars_eq_ofDigitChars_zero, Nat.mul_zero, Nat.zero_add]

theorem ofDigitChars_lt_pow {digits : List Char} (isDigit : ∀ c ∈ digits, c.isDigit = true) :
    Nat.ofDigitChars 10 digits 0 < 10 ^ digits.length := by
  induction digits with
  | nil => simp
  | cons c digits ih =>
      obtain ⟨first, others⟩ := List.forall_mem_cons.mp isDigit
      obtain ⟨digit, small, shown⟩ := isDigit_iff_exists_lt_ten.mp first
      have front : 10 ^ digits.length * digit ≤ 10 ^ digits.length * 9 :=
        Nat.mul_le_mul_left _ (Nat.le_of_lt_succ small)
      have rest := ih others
      rw [ofDigitChars_cons_zero, shown, Nat.add_sub_cancel_left, List.length_cons, pow_succ]
      omega

/-- A number in digits is decided by the first place where the digits differ. -/
theorem mul_add_lt_mul_add_iff {base first second rest other : Nat} (rest_lt : rest < base)
    (other_lt : other < base) :
    base * first + rest < base * second + other ↔
      first < second ∨ first = second ∧ rest < other := by
  rcases lt_trichotomy first second with less | rfl | more
  · have step : base * (first + 1) ≤ base * second := Nat.mul_le_mul_left _ less
    rw [Nat.mul_succ] at step
    omega
  · omega
  · have step : base * (second + 1) ≤ base * first := Nat.mul_le_mul_left _ more
    rw [Nat.mul_succ] at step
    omega

/-- Digits in equal number are in the order of what they stand for. -/
theorem digits_lt_iff {first second : List Char} (first_digit : ∀ c ∈ first, c.isDigit = true)
    (second_digit : ∀ c ∈ second, c.isDigit = true) (same : first.length = second.length) :
    first < second ↔ Nat.ofDigitChars 10 first 0 < Nat.ofDigitChars 10 second 0 := by
  induction first generalizing second with
  | nil =>
      obtain rfl := List.length_eq_zero_iff.mp same.symm
      simp
  | cons c first ih =>
      cases second with
      | nil => simp at same
      | cons d second =>
          obtain ⟨c_digit, first_digit⟩ := List.forall_mem_cons.mp first_digit
          obtain ⟨d_digit, second_digit⟩ := List.forall_mem_cons.mp second_digit
          obtain ⟨_, _, c_shown⟩ := isDigit_iff_exists_lt_ten.mp c_digit
          obtain ⟨_, _, d_shown⟩ := isDigit_iff_exists_lt_ten.mp d_digit
          have by_number : c < d ↔ c.toNat < d.toNat := Iff.rfl
          have as_long : first.length = second.length := Nat.succ_inj.mp same
          have second_lt := ofDigitChars_lt_pow second_digit
          rw [← as_long] at second_lt
          rw [List.cons_lt_cons_iff, ih first_digit second_digit as_long, ofDigitChars_cons_zero,
            ofDigitChars_cons_zero, ← as_long,
            mul_add_lt_mul_add_iff (ofDigitChars_lt_pow first_digit) second_lt, by_number,
            ← Char.toNat_inj]
          omega

theorem append_lt_append_iff {first second : List Char} (same : first.length = second.length)
    (rest other : List Char) :
    first ++ rest < second ++ other ↔ first < second ∨ first = second ∧ rest < other := by
  induction first generalizing second with
  | nil =>
      obtain rfl := List.length_eq_zero_iff.mp same.symm
      simp
  | cons c first ih =>
      cases second with
      | nil => simp at same
      | cons d second =>
          rw [List.cons_append, List.cons_append, List.cons_lt_cons_iff, List.cons_lt_cons_iff,
            ih (Nat.succ_inj.mp same), List.cons.injEq]
          tauto

namespace Numeral

variable {width value other : Nat} {digits others : List Char}

/-- A number is written with its digits and zeros in front. -/
theorem padded (width_pos : 0 < width) (value : Nat) :
    Numeral width value (Instant.padded width value) := by
  have short := @Nat.length_toDigits_le_iff 10 value
  constructor
  · intro c inside
    rcases List.mem_append.mp inside with zero | digit
    · rw [List.eq_of_mem_replicate zero]
      rfl
    · exact Nat.isDigit_of_mem_toDigits (by decide) le_rfl digit
  · rw [Instant.padded, Nat.ofDigitChars_append, Nat.ofDigitChars_replicate_zero, Nat.mul_zero,
      Nat.ofDigitChars_ten_toDigits]
  · rw [Instant.padded, List.length_append, List.length_replicate]
    omega
  · rw [Instant.padded, List.length_append, List.length_replicate]
    intro longer
    have many : ¬(Nat.toDigits 10 value).length ≤ (Nat.toDigits 10 value).length - 1 := by omega
    rw [short (by decide) (by omega), not_lt] at many
    rwa [show width - (Nat.toDigits 10 value).length = 0 by omega, Nat.zero_add]

/-- A number below the power of the width needs no more digits. -/
theorem length_eq (numeral : Numeral width value digits) (fits : value < 10 ^ width) :
    digits.length = width := by
  by_contra different
  have longer : width < digits.length := lt_of_le_of_ne numeral.width_le (Ne.symm different)
  have more : 10 ^ width ≤ 10 ^ (digits.length - 1) :=
    Nat.pow_le_pow_right (by decide) (Nat.le_sub_one_of_lt longer)
  exact absurd (more.trans (numeral.le_of_longer longer)) (not_le.mpr fits)

/-- A number has no longer digits of a width than any others it has. -/
theorem length_le (numeral : Numeral width value digits)
    (numeral_other : Numeral width value others) : others.length ≤ digits.length := by
  by_contra longer
  have first_counts := numeral_other.le_of_longer (numeral.width_le.trans_lt (not_le.mp longer))
  have small := ofDigitChars_lt_pow numeral.isDigit
  rw [numeral.reads] at small
  have power : 10 ^ digits.length ≤ 10 ^ (others.length - 1) :=
    Nat.pow_le_pow_right (by decide) (Nat.le_sub_one_of_lt (not_le.mp longer))
  exact absurd (power.trans first_counts) (not_le.mpr small)

/-- A number has one numeral of a width. -/
theorem unique (numeral : Numeral width value digits)
    (numeral_other : Numeral width value others) : digits = others := by
  have as_long := le_antisymm (numeral_other.length_le numeral) (numeral.length_le numeral_other)
  have order := digits_lt_iff numeral.isDigit numeral_other.isDigit as_long
  have converse := digits_lt_iff numeral_other.isDigit numeral.isDigit as_long.symm
  rw [numeral.reads, numeral_other.reads] at order converse
  by_contra different
  rcases lt_or_gt_of_ne different with less | more
  · exact absurd (order.mp less) (lt_irrefl _)
  · exact absurd (converse.mp more) (lt_irrefl _)

/-- Two numbers of one width in front of two texts: the numbers come first. -/
theorem append_lt_append_iff (numeral : Numeral width value digits) (fits : value < 10 ^ width)
    (numeral_other : Numeral width other others) (other_fits : other < 10 ^ width)
    (rest rest_other : List Char) :
    digits ++ rest < others ++ rest_other ↔
      value < other ∨ value = other ∧ rest < rest_other := by
  have as_long : digits.length = others.length :=
    (numeral.length_eq fits).trans (numeral_other.length_eq other_fits).symm
  have order := digits_lt_iff numeral.isDigit numeral_other.isDigit as_long
  have same : digits = others ↔ value = other := by
    constructor
    · rintro rfl
      exact numeral.reads.symm.trans numeral_other.reads
    · rintro rfl
      exact numeral.unique numeral_other
  rw [numeral.reads, numeral_other.reads] at order
  rw [CacheManifest.append_lt_append_iff as_long, order, same]

end Numeral

/-! ## Fields -/

/-- A number in its place in a text, behind a mark. -/
structure Field where
  mark : Char
  width : Nat
  value : Nat

namespace Field

/-- The width of the field is enough for its number. -/
def Fits (field : Field) : Prop := field.value < 10 ^ field.width

/-- All of a field that does not depend on its number. -/
def layout (field : Field) : Char × Nat := (field.mark, field.width)

end Field

/-- A text of fields, one after the other. -/
inductive Shown : List Field → List Char → Prop
  | nil : Shown [] []
  | cons {field : Field} {fields : List Field} {digits rest : List Char} :
      Numeral field.width field.value digits → Shown fields rest →
        Shown (field :: fields) (field.mark :: (digits ++ rest))

namespace Shown

variable {fields others : List Field} {text other : List Char}

theorem padded (wide : ∀ field ∈ fields, 0 < field.width) :
    Shown fields
      (fields.flatMap fun field => field.mark :: Instant.padded field.width field.value) := by
  induction fields with
  | nil => exact .nil
  | cons field fields ih =>
      obtain ⟨first, rest⟩ := List.forall_mem_cons.mp wide
      exact .cons (Numeral.padded first field.value) (ih rest)

theorem mem (shown : Shown fields text) {c : Char} (inside : c ∈ text) :
    c.isDigit = true ∨ c ∈ fields.map Field.mark := by
  induction shown with
  | nil => simp at inside
  | cons numeral _ ih =>
      rcases List.mem_cons.mp inside with rfl | behind
      · exact .inr List.mem_cons_self
      · rcases List.mem_append.mp behind with digit | later
        · exact .inl (numeral.isDigit c digit)
        · exact (ih later).imp_right (List.mem_cons_of_mem _)

/-- Fields of one layout are as long as each other. -/
theorem length_eq (shown : Shown fields text) (shown_other : Shown others other)
    (fit : ∀ field ∈ fields, field.Fits) (others_fit : ∀ field ∈ others, field.Fits)
    (alike : fields.map Field.layout = others.map Field.layout) :
    text.length = other.length := by
  induction shown generalizing others other with
  | nil =>
      cases shown_other with
      | nil => rfl
      | cons => simp at alike
  | cons numeral _ ih =>
      cases shown_other with
      | nil => simp at alike
      | cons numeral_other shown_other =>
          obtain ⟨fits, fit⟩ := List.forall_mem_cons.mp fit
          obtain ⟨other_fits, others_fit⟩ := List.forall_mem_cons.mp others_fit
          simp only [List.map_cons, List.cons.injEq, Field.layout, Prod.mk.injEq] at alike
          rw [List.length_cons, List.length_cons, List.length_append, List.length_append,
            numeral.length_eq fits, numeral_other.length_eq other_fits, alike.1.2,
            ih shown_other fit others_fit alike.2]

/-- Fields of one layout are in the order of their numbers, the first that differ deciding. -/
theorem lt_iff (shown : Shown fields text) (shown_other : Shown others other)
    (fit : ∀ field ∈ fields, field.Fits) (others_fit : ∀ field ∈ others, field.Fits)
    (alike : fields.map Field.layout = others.map Field.layout) :
    text < other ↔ fields.map Field.value < others.map Field.value := by
  induction shown generalizing others other with
  | nil =>
      cases shown_other with
      | nil => simp
      | cons => simp at alike
  | cons numeral _ ih =>
      cases shown_other with
      | nil => simp at alike
      | cons numeral_other shown_other =>
          obtain ⟨fits, fit⟩ := List.forall_mem_cons.mp fit
          obtain ⟨other_fits, others_fit⟩ := List.forall_mem_cons.mp others_fit
          simp only [List.map_cons, List.cons.injEq, Field.layout, Prod.mk.injEq] at alike
          rw [Field.Fits, ← alike.1.2] at other_fits
          rw [← alike.1.2] at numeral_other
          rw [← alike.1.1, List.cons_lt_cons_self,
            numeral.append_lt_append_iff fits numeral_other other_fits,
            ih shown_other fit others_fit alike.2, List.map_cons, List.map_cons,
            List.cons_lt_cons_iff]

/-- A text shows its numbers only. -/
theorem values_eq (shown : Shown fields text) (shown_other : Shown others text)
    (fit : ∀ field ∈ fields, field.Fits) (others_fit : ∀ field ∈ others, field.Fits)
    (alike : fields.map Field.layout = others.map Field.layout) :
    fields.map Field.value = others.map Field.value := by
  have before := shown.lt_iff shown_other fit others_fit alike
  have after := shown_other.lt_iff shown others_fit fit alike.symm
  by_contra different
  rcases lt_or_gt_of_ne different with less | more
  · exact absurd (before.mpr less) (lt_irrefl _)
  · exact absurd (after.mpr more) (lt_irrefl _)

end Shown

end CacheManifest
