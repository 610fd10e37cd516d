/-
# Strings that are written

A string is written with some of its characters escaped, and that is one of its texts: a
quote, a backslash and five of the control characters are given by a letter, the other
control characters by their number, and all other characters stand for themselves. So it is
read back as it was, whatever follows it.
-/

import CacheManifest.Proofs.Json.Escapes

namespace CacheManifest

namespace Json

theorem spellsDigit_hexDigit {value : Nat} (small : value < 16) :
    SpellsDigit value (Quoted.hexDigit value) := by
  have all : ∀ value : Fin 16, SpellsDigit value.val (Quoted.hexDigit value.val) := by decide
  exact all ⟨value, small⟩

theorem spellsChar_escaped (c : Char) : SpellsChar c (escaped c) := by
  rw [escaped]
  split_ifs with reserved backspace tab line_feed form_feed carriage_return control
  · refine .letter ?_
    rcases reserved with rfl | rfl <;> decide
  · exact .letter (by subst backspace; decide)
  · exact .letter (by subst tab; decide)
  · exact .letter (by subst line_feed; decide)
  · exact .letter (by subst form_feed; decide)
  · exact .letter (by subst carriage_return; decide)
  · have unit := SpellsUnit.digits (spellsDigit_hexDigit (show 0 < 16 by decide))
      (spellsDigit_hexDigit (show 0 < 16 by decide))
      (spellsDigit_hexDigit (show c.toNat / 16 < 16 by omega))
      (spellsDigit_hexDigit (show c.toNat % 16 < 16 by omega))
    have value : 0 * 4096 + 0 * 256 + c.toNat / 16 * 16 + c.toNat % 16 = c.toNat := by omega
    rw [value] at unit
    exact .unit (if_pos (by omega)) unit
  · rw [not_or] at reserved
    exact .plain reserved.1 reserved.2 (by omega)

theorem spellsString_stringLiteral (text : String) : SpellsString text (stringLiteral text) := by
  have each : List.Forall₂ SpellsChar text.toList (text.toList.map escaped) := by
    rw [List.forall₂_map_right_iff, List.forall₂_same]
    exact fun c _ => spellsChar_escaped c
  have spelled := SpellsString.quoted each
  rwa [← List.flatMap_def] at spelled

/-- A string is read back as it was, and what follows it is left. -/
theorem readString_escaped (text : String) (rest : List Char) :
    readString (text.toList.flatMap escaped ++ '"' :: rest) = .ok (text, rest) :=
  readString_eq_ok_iff.mpr ⟨_, spellsString_stringLiteral text, by simp⟩

end Json

end CacheManifest
