/-
# Pieces and separators

A text may be written piece by piece, with the separator behind each piece, as
lines are, or before each piece, as the segments of an address are. Cutting the
text at its separators gives the pieces back if none of them has a separator of
its own, and in the first case only then.
-/

import Mathlib

namespace CacheManifest

namespace Pieces

variable {α : Type} {separator : α}

/-- Pieces one after the other, each with the separator behind it. -/
def terminated (separator : α) (pieces : List (List α)) : List α :=
  pieces.flatMap fun piece => piece ++ [separator]

/-- Pieces one after the other, each with the separator before it. -/
def led (separator : α) (pieces : List (List α)) : List α :=
  pieces.flatMap fun piece => separator :: piece

theorem led_cons (piece : List α) (others : List (List α)) :
    led separator (piece :: others) = separator :: piece ++ led separator others := rfl

theorem led_append (front rest : List (List α)) :
    led separator (front ++ rest) = led separator front ++ led separator rest :=
  List.flatMap_append

/-- Separators before the pieces are those between them, and one in front. -/
theorem led_eq_cons_intercalate {pieces : List (List α)} (some_piece : pieces ≠ []) :
    led separator pieces = separator :: [separator].intercalate pieces := by
  induction pieces with
  | nil => exact absurd rfl some_piece
  | cons piece others ih =>
      cases others with
      | nil => simp [led, List.intercalate]
      | cons next more =>
          rw [led_cons, ih (by simp)]
          simp [List.intercalate]

variable [DecidableEq α]

/-- No piece has the separator it was cut at. -/
theorem not_mem_of_mem_splitOn {text piece : List α} (inside : piece ∈ text.splitOn separator) :
    separator ∉ piece := by
  induction text generalizing piece with
  | nil =>
      obtain rfl : piece = [] := by simpa using inside
      exact List.not_mem_nil
  | cons first rest ih =>
      obtain ⟨head, others, cut⟩ :=
        List.exists_cons_of_ne_nil (List.splitOn_ne_nil separator rest)
      rw [List.splitOn_cons_eq_if_modifyHead, cut] at inside
      rw [cut] at ih
      split at inside
      · rcases List.mem_cons.mp inside with rfl | inside
        · exact List.not_mem_nil
        · exact ih inside
      · next other =>
          rcases List.mem_cons.mp inside with rfl | inside
          · have different : separator ≠ first := fun same => other (by simp [same])
            exact List.not_mem_cons_of_ne_of_not_mem different (ih List.mem_cons_self)
          · exact ih (List.mem_cons_of_mem _ inside)

/-- Terminated pieces come back from their text exactly if none of them has the
separator in it. What is behind the last separator is the empty piece. -/
theorem splitOn_terminated_iff {pieces : List (List α)} :
    (terminated separator pieces).splitOn separator = pieces ++ [[]] ↔
      ∀ piece ∈ pieces, separator ∉ piece := by
  constructor
  · intro cut piece inside
    apply not_mem_of_mem_splitOn
    rw [cut]
    exact List.mem_append_left _ inside
  · intro whole
    induction pieces with
    | nil => rfl
    | cons piece others ih =>
        obtain ⟨here, rest⟩ := List.forall_mem_cons.mp whole
        have shape : terminated separator (piece :: others) =
            piece ++ separator :: terminated separator others := by
          simp [terminated]
        rw [shape, List.splitOn_append_cons_self_of_not_mem here, ih rest]
        rfl

/-- A text with the separator in front of it, cut at its separators, begins with
the empty piece. -/
theorem splitOn_separator_cons (text : List α) :
    (separator :: text).splitOn separator = [] :: text.splitOn separator := by
  rw [List.splitOn_cons_eq_if_modifyHead, if_pos (beq_self_eq_true separator)]

/-- Led pieces come back from their text, behind the empty piece that stands before
the first separator. -/
theorem splitOn_led {pieces : List (List α)} (whole : ∀ piece ∈ pieces, separator ∉ piece) :
    (led separator pieces).splitOn separator = [] :: pieces := by
  induction pieces with
  | nil => rfl
  | cons piece others ih =>
      obtain ⟨here, rest⟩ := List.forall_mem_cons.mp whole
      have behind := ih rest
      rw [led_cons, List.cons_append, splitOn_separator_cons]
      cases others with
      | nil => rw [led, List.flatMap_nil, List.append_nil, List.splitOn_eq_singleton here]
      | cons next more =>
          rw [led_cons, List.cons_append, splitOn_separator_cons] at behind
          rw [led_cons, List.cons_append, List.splitOn_append_cons_self_of_not_mem here,
            List.tail_eq_of_cons_eq behind]

/-- Pieces without separators are told by the text they lead to. -/
theorem led_injOn :
    Set.InjOn (led separator) { pieces | ∀ piece ∈ pieces, separator ∉ piece } := by
  intro first whole second other same
  have cut := splitOn_led whole
  rw [same, splitOn_led other] at cut
  exact (List.tail_eq_of_cons_eq cut).symm

/-- A text is led by its pieces, the separator before it. -/
theorem led_splitOn (text : List α) :
    led separator (text.splitOn separator) = separator :: text := by
  rw [led_eq_cons_intercalate (List.splitOn_ne_nil separator text), List.intercalate_splitOn]

end Pieces

end CacheManifest
