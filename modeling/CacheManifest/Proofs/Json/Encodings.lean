/-
# What has a JSON form

Lists and records have a JSON form exactly if their parts have, and it is made of those of
the parts. A path has the form of the text that it is.
-/

import CacheManifest.Json.Encoding
import CacheManifest.Proofs.Results
import CacheManifest.Proofs.Text.Encoded

namespace CacheManifest

namespace Json

variable {value : Json}

theorem ofPath_eq_ok_iff {path : Path} :
    ofPath path = .ok value ↔ ∃ text, path = .ofString text ∧ value = .string text := by
  have spelled (text : String) : Utf8.decode? path.bytes = some text ↔ path = .ofString text := by
    rw [Utf8.decode?_eq_some_iff, Path.ofString]
    cases path
    simp
  simp only [← spelled, ofPath]
  cases Utf8.decode? path.bytes <;> simp [eq_comm]

theorem ofItems_eq_ok_iff {α : Type} {encode : α → Except EncodeError Json} {items : List α} :
    ofItems encode items = .ok value ↔ ∃ values, value = .list values ∧
      List.Forall₂ (fun item value => encode item = .ok value) items values := by
  simp only [ofItems, map_eq_ok_iff, mapM_eq_ok_iff]
  exact exists_congr fun values => by rw [and_comm, eq_comm]

theorem ofFields_eq_ok_iff {fields : List (String × Except EncodeError Json)} :
    ofFields fields = .ok value ↔ ∃ values, value = .object values ∧
      List.Forall₂ (fun field value => field.1 = value.1 ∧ field.2 = .ok value.2) fields
        values := by
  have each (field : String × Except EncodeError Json) (value : String × Json) :
      ofField field = .ok value ↔ field.1 = value.1 ∧ field.2 = .ok value.2 := by
    rw [ofField, map_eq_ok_iff]
    constructor
    · rintro ⟨held, encoded, rfl⟩
      exact ⟨rfl, encoded⟩
    · rintro ⟨name, encoded⟩
      exact ⟨value.2, encoded, by rw [name]⟩
  simp only [ofFields, map_eq_ok_iff, mapM_eq_ok_iff, each]
  exact exists_congr fun values => by rw [and_comm, eq_comm]

end Json

end CacheManifest
