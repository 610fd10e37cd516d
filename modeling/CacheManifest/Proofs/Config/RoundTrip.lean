/-
# Configurations that are written and loaded

A configuration is written as values that denote what its settings hold. So the value that
is written gives the configuration, whichever order the keys are in, and any of its texts
is loaded as the configuration.

A path can be written only if it is text. Nothing else stands in the way.
-/

import CacheManifest.Proofs.Config.Loading
import CacheManifest.Proofs.Json.Encodings
import CacheManifest.Proofs.Json.Layouts

namespace CacheManifest

namespace Config

open Json (Numberless)

variable {config : Config} {value : Json} {content : Content} {order : List Field}

/-! ## What settings hold -/

/-- What a setting holds can be written if its paths are text. -/
def Content.Textual : Content → Prop
  | .path held => Utf8.WellFormed held.bytes
  | .paths held => ∀ path ∈ held, Utf8.WellFormed path.bytes
  | .texts _ => True

/-- A configuration can be written if its paths are text. -/
structure Textual (config : Config) : Prop where
  output : Utf8.WellFormed config.output.bytes
  sourceDirs : ∀ directory ∈ config.sourceDirs, Utf8.WellFormed directory.bytes

theorem textual_iff_forall : config.Textual ↔ ∀ field : Field, (field.content config).Textual := by
  constructor
  · rintro ⟨output, sourceDirs⟩ (_ | _)
    exacts [output, sourceDirs, trivial, trivial, trivial]
  · intro each
    exact ⟨each .output, each .sourceDirs⟩

theorem wellFormed_iff_exists_ofString {path : Path} :
    Utf8.WellFormed path.bytes ↔ ∃ text, path = .ofString text := by
  rw [Utf8.WellFormed, Option.isSome_iff_exists]
  simp only [Utf8.decode?_eq_some_iff, Path.ofString]
  cases path
  simp

/-- What can be written is denoted by a value, and nothing else is. -/
theorem exists_denotes_iff : (∃ value, Denotes value content) ↔ content.Textual := by
  cases content with
  | path held =>
      simp only [denotes_path_iff, Content.Textual, wellFormed_iff_exists_ofString]
      exact ⟨fun ⟨_, text, _, same⟩ => ⟨text, same⟩, fun ⟨text, same⟩ => ⟨_, text, rfl, same⟩⟩
  | paths held =>
      simp only [denotes_paths_iff, Content.Textual, wellFormed_iff_exists_ofString]
      constructor
      · rintro ⟨_, texts, rfl, rfl⟩ path inside
        obtain ⟨text, -, rfl⟩ := List.mem_map.mp inside
        exact ⟨text, rfl⟩
      · intro each
        obtain ⟨texts, rfl⟩ : ∃ texts : List String, texts.map Path.ofString = held :=
          (Set.ext_iff.mp (Set.range_list_map Path.ofString) held).mpr fun path inside =>
            (each path inside).imp fun _ => Eq.symm
        exact ⟨_, texts, rfl, rfl⟩
  | texts held => exact ⟨fun _ => trivial, fun _ => ⟨_, .texts held⟩⟩

theorem forall₂_images_iff {α β γ : Type} {f : γ → α} {g : γ → β} {first : List α}
    {second : List β} :
    List.Forall₂ (fun a b => ∃ c, a = f c ∧ b = g c) first second ↔
      ∃ sources : List γ, first = sources.map f ∧ second = sources.map g := by
  constructor
  · intro pairs
    induction pairs with
    | nil => exact ⟨[], rfl, rfl⟩
    | cons here _ ih =>
        obtain ⟨c, rfl, rfl⟩ := here
        obtain ⟨sources, rfl, rfl⟩ := ih
        exact ⟨c :: sources, rfl, rfl⟩
  · rintro ⟨sources, rfl, rfl⟩
    rw [List.forall₂_map_left_iff, List.forall₂_map_right_iff, List.forall₂_same]
    exact fun c _ => ⟨c, rfl, rfl⟩

/-- What a setting holds is written as the value that denotes it. -/
theorem encoded_eq_ok_iff : content.encoded = .ok value ↔ Denotes value content := by
  cases content with
  | path held =>
      rw [Content.encoded, Json.ofPath_eq_ok_iff, denotes_path_iff]
      exact exists_congr fun text => and_comm
  | paths held =>
      rw [Content.encoded, Json.ofItems_eq_ok_iff, denotes_paths_iff]
      simp only [Json.ofPath_eq_ok_iff, forall₂_images_iff]
      constructor
      · rintro ⟨_, rfl, texts, rfl, rfl⟩
        exact ⟨texts, rfl, rfl⟩
      · rintro ⟨texts, rfl, rfl⟩
        exact ⟨_, rfl, texts, rfl, rfl⟩
  | texts held =>
      have string_iff (values : List Json) :
          List.Forall₂ (fun text value => Json.ofText text = .ok value) held values ↔
            held.map Json.string = values := by
        rw [← List.forall₂_eq_eq_eq, List.forall₂_map_left_iff]
        simp only [Json.ofText, Except.ok.injEq]
      rw [Content.encoded, Json.ofItems_eq_ok_iff, denotes_texts_iff]
      simp only [string_iff]
      constructor
      · rintro ⟨_, rfl, rfl⟩
        exact ⟨held, rfl, rfl⟩
      · rintro ⟨texts, rfl, rfl⟩
        exact ⟨_, rfl, rfl⟩

theorem Denotes.numberless (denotes : Denotes value content) : value.Numberless := by
  have strings (texts : List String) : ∀ item ∈ texts.map Json.string, item.Numberless :=
    List.forall_mem_map.mpr fun text _ => .string text
  cases denotes with
  | path text => exact .string text
  | paths texts | texts => exact .list _ (strings _)

/-! ## Whole configurations -/

/-- A configuration is written as an object with a field for each setting, and the value of
the field denotes what the setting holds. -/
theorem encoded_config_eq_ok_iff :
    config.encoded order = .ok value ↔ ∃ given : List (Field × Json), given.map Prod.fst = order ∧
      value = .object (given.map fun pair => (pair.1.name, pair.2)) ∧
        ∀ pair ∈ given, Denotes pair.2 (pair.1.content config) := by
  rw [encoded, Json.ofFields_eq_ok_iff]
  simp only [List.forall₂_map_left_iff, encoded_eq_ok_iff]
  constructor
  · rintro ⟨fields, rfl, pairs⟩
    induction pairs with
    | nil => exact ⟨[], rfl, rfl, List.forall_mem_nil _⟩
    | @cons field written _ _ here _ ih =>
        obtain ⟨name, value⟩ := written
        obtain ⟨rfl, denotes⟩ := here
        obtain ⟨given, rfl, same, each⟩ := ih
        cases same
        exact ⟨(field, value) :: given, rfl, rfl, List.forall_mem_cons.mpr ⟨denotes, each⟩⟩
  · rintro ⟨given, rfl, rfl, each⟩
    refine ⟨_, rfl, ?_⟩
    rw [List.forall₂_map_left_iff, List.forall₂_map_right_iff, List.forall₂_same]
    exact fun pair inside => ⟨rfl, each pair inside⟩

/-- A configuration can be written exactly if its paths are text. -/
theorem exists_encoded_iff (whole : order.Perm Field.all) :
    (∃ value, config.encoded order = .ok value) ↔ config.Textual := by
  have inside (field : Field) : field ∈ order := whole.mem_iff.mpr field.mem_all
  simp only [encoded_config_eq_ok_iff, textual_iff_forall, ← exists_denotes_iff]
  constructor
  · rintro ⟨_, given, rfl, rfl, each⟩ field
    obtain ⟨pair, member, rfl⟩ := List.mem_map.mp (inside field)
    exact ⟨pair.2, each pair member⟩
  · intro each
    choose values denotes using each
    refine ⟨_, order.map fun field => (field, values field), ?_, rfl, ?_⟩
    · rw [List.map_map]
      exact List.map_id order
    · exact List.forall_mem_map.mpr fun field _ => denotes field

/-- What is written for a configuration gives it, and has no numbers. -/
theorem gives_of_encoded (whole : order.Perm Field.all)
    (encoded : config.encoded order = .ok value) : Gives value config ∧ value.Numberless := by
  obtain ⟨given, rfl, rfl, each⟩ := encoded_config_eq_ok_iff.mp encoded
  refine ⟨.object (whole.nodup_iff.mpr Field.nodup_all) ⟨each, ?_⟩, .object _ ?_⟩
  · intro field absent
    exact absurd (whole.mem_iff.mpr field.mem_all) absent
  · rw [List.forall_mem_map]
    exact fun pair inside => (each pair inside).numberless

/-- A configuration whose paths are text can be written with its keys in any order, and is
loaded from what is written, in either layout. -/
theorem load_encoded (whole : order.Perm Field.all) (textual : config.Textual) :
    ∃ value, config.encoded order = .ok value ∧
      ∀ (layout : Json.Layout) (fs : Filesystem) (path : Path),
        fs.read path = .ok (Utf8.encode (String.ofList (value.write layout 0))) →
          load fs path = .ok config := by
  obtain ⟨value, encoded⟩ := (exists_encoded_iff whole).mpr textual
  obtain ⟨gives, numberless⟩ := gives_of_encoded whole encoded
  refine ⟨value, encoded, fun layout fs path stored => ?_⟩
  have document := numberless.document layout 0 Json.blank_nil
  rw [List.append_nil] at document
  refine (load_eq_ok_iff stored).mpr ⟨value, holds_encode_iff.mpr ?_, gives⟩
  rwa [String.toList_ofList]

/-- A configuration with characters that have to be escaped, an empty text and no source
directories. -/
def quotedConfig : Config where
  output := .ofString "a\"b\n.appcache"
  sourceDirs := []
  excludedExtensions := ["", ".\\\x1f"]
  ignoredDirs := [String.ofList [Char.ofNat 0x7F, Char.ofNat 0x1F600]]
  scriptDirs := []

/-- With its keys in the reverse order it is loaded from the root directory. -/
theorem load_encoded_quoted :
    ∃ value, quotedConfig.encoded Field.all.reverse = .ok value ∧
      ∀ layout : Json.Layout,
        load (configured (Utf8.encode (String.ofList (value.write layout 0))))
          (.ofString "/mkappcache.json") = .ok quotedConfig := by
  have textual : quotedConfig.Textual := ⟨by decide +kernel, List.forall_mem_nil _⟩
  obtain ⟨value, encoded, loads⟩ := load_encoded (List.reverse_perm Field.all) textual
  exact ⟨value, encoded, fun layout => loads layout _ _ rfl⟩

end Config

end CacheManifest
