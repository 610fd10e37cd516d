/-
# Results that may be failures

When a computation made of others succeeds: each of its parts does, and the result is made
of theirs.
-/

import Mathlib

namespace CacheManifest

variable {Cause Other α β : Type} {first : Except Cause α}

theorem bind_eq_ok_iff {next : α → Except Cause β} {result : β} :
    first >>= next = .ok result ↔ ∃ value, first = .ok value ∧ next value = .ok result := by
  cases first <;> simp [bind, Except.bind]

theorem map_eq_ok_iff {f : α → β} {result : β} :
    first.map f = .ok result ↔ ∃ value, first = .ok value ∧ f value = result := by
  cases first <;> simp [Except.map]

theorem mapError_eq_ok_iff {f : Cause → Other} {result : α} :
    first.mapError f = .ok result ↔ first = .ok result := by
  cases first <;> simp [Except.mapError]

/-- The items of a list are mapped one by one. -/
theorem mapM_eq_ok_iff {f : α → Except Cause β} {items : List α} {results : List β} :
    items.mapM f = .ok results ↔
      List.Forall₂ (fun item result => f item = .ok result) items results := by
  induction items generalizing results with
  | nil =>
      rw [List.mapM_nil, List.forall₂_nil_left_iff]
      exact ⟨fun same => by cases same; rfl, fun same => by rw [same]; rfl⟩
  | cons item others ih =>
      rw [List.mapM_cons]
      simp only [bind_eq_ok_iff, ih]
      constructor
      · rintro ⟨value, here, values, later, whole⟩
        cases whole
        exact .cons here later
      · rintro (_ | ⟨here, later⟩)
        exact ⟨_, here, _, later, rfl⟩

end CacheManifest
