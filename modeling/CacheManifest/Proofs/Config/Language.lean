/-
# The configurations that JSON values give

A JSON value gives a configuration if it is an object whose keys are the names of distinct
settings, or a list with values for settings in their fixed order. Each value has to be of
the kind that its setting has: a string for the output, a list of strings for the others.
What is not given is as in the default configuration.

Which settings are given matters, and not in which order. Settings that are read one after
the other into a configuration therefore come to what they give together.
-/

import CacheManifest.Config.Writing
import CacheManifest.Proofs.Json.Grammar

namespace CacheManifest

namespace Config

variable {start next final : Config} {field : Field} {value : Json}
  {given others : List (Field × Json)}

/-! ## Values of settings -/

/-- What a setting holds, as a JSON value. -/
inductive Denotes : Json → Content → Prop
  | path (text : String) : Denotes (.string text) (.path (.ofString text))
  | paths (texts : List String) :
    Denotes (.list (texts.map Json.string)) (.paths (texts.map Path.ofString))
  | texts (texts : List String) : Denotes (.list (texts.map Json.string)) (.texts texts)

/-- The kind of value that a setting has. -/
inductive Admits : Field → Json → Prop
  | output (text : String) : Admits .output (.string text)
  | several {field : Field} (other : field ≠ .output) (texts : List String) :
    Admits field (.list (texts.map Json.string))

/-- A configuration in which some settings have the values that are given, and the others
are as they were. -/
structure Settles (start : Config) (given : List (Field × Json)) (final : Config) : Prop where
  holds : ∀ pair ∈ given, Denotes pair.2 (pair.1.content final)
  kept : ∀ field, field ∉ given.map Prod.fst → field.content final = field.content start

/-- The configuration that a JSON value gives. -/
inductive Gives : Json → Config → Prop
  | object {given : List (Field × Json)} {config : Config}
    (distinct : (given.map Prod.fst).Nodup) (settles : Settles default given config) :
    Gives (.object (given.map fun pair => (pair.1.name, pair.2))) config
  | list {values : List Json} {config : Config} (few : values.length ≤ Field.all.length)
    (settles : Settles default (Field.all.zip values) config) : Gives (.list values) config

/-- A JSON value that gives a configuration, told by the kinds of its parts alone. -/
inductive Admissible : Json → Prop
  | object {given : List (Field × Json)} (distinct : (given.map Prod.fst).Nodup)
    (each : ∀ pair ∈ given, Admits pair.1 pair.2) :
    Admissible (.object (given.map fun pair => (pair.1.name, pair.2)))
  | list {values : List Json} (few : values.length ≤ Field.all.length)
    (each : ∀ pair ∈ Field.all.zip values, Admits pair.1 pair.2) : Admissible (.list values)

/-! ## Settings one by one -/

theorem Field.mem_all (field : Field) : field ∈ all := by cases field <;> decide

theorem Field.nodup_all : all.Nodup := by decide

theorem Field.name_injective : Function.Injective name := by
  intro first second
  cases first <;> cases second <;> decide

theorem Field.ofName?_eq_some_iff {key : String} : ofName? key = some field ↔ field.name = key := by
  constructor
  · intro known
    simpa using List.find?_some known
  · rintro rfl
    cases field <;> decide

/-- A configuration is told by what its settings hold. -/
theorem eq_of_content (same : ∀ field : Field, field.content start = field.content final) :
    start = final := by
  have output := same .output
  have sourceDirs := same .sourceDirs
  have excludedExtensions := same .excludedExtensions
  have ignoredDirs := same .ignoredDirs
  have scriptDirs := same .scriptDirs
  simp only [Field.content, Content.path.injEq, Content.paths.injEq, Content.texts.injEq] at *
  cases start
  cases final
  simp_all

/-- One setting can be taken over from another configuration. -/
theorem exists_transferred (field : Field) (start source : Config) :
    ∃ next : Config, field.content next = field.content source ∧
      ∀ other ≠ field, other.content next = other.content start := by
  cases field with
  | output =>
      exact ⟨{ start with output := source.output }, rfl, by rintro (_ | _) <;> simp [Field.content]⟩
  | sourceDirs =>
      exact ⟨{ start with sourceDirs := source.sourceDirs }, rfl,
        by rintro (_ | _) <;> simp [Field.content]⟩
  | excludedExtensions =>
      exact ⟨{ start with excludedExtensions := source.excludedExtensions }, rfl,
        by rintro (_ | _) <;> simp [Field.content]⟩
  | ignoredDirs =>
      exact ⟨{ start with ignoredDirs := source.ignoredDirs }, rfl,
        by rintro (_ | _) <;> simp [Field.content]⟩
  | scriptDirs =>
      exact ⟨{ start with scriptDirs := source.scriptDirs }, rfl,
        by rintro (_ | _) <;> simp [Field.content]⟩

theorem settles_nil_iff : Settles start [] final ↔ final = start := by
  constructor
  · intro settles
    exact eq_of_content fun field => settles.kept field (List.not_mem_nil)
  · rintro rfl
    exact ⟨List.forall_mem_nil _, fun field _ => rfl⟩

/-- Settings that are given together may be given one after the other. -/
theorem settles_cons_iff (fresh : field ∉ others.map Prod.fst) :
    Settles start ((field, value) :: others) final ↔
      ∃ next, Settles start [(field, value)] next ∧ Settles next others final := by
  constructor
  · intro all
    obtain ⟨here, later⟩ := List.forall_mem_cons.mp all.holds
    obtain ⟨next, taken, frame⟩ := exists_transferred field start final
    refine ⟨next, ⟨?_, ?_⟩, later, ?_⟩
    · rw [List.forall_mem_singleton, taken]
      exact here
    · intro other absent
      exact frame other (by simpa using absent)
    · intro other absent
      by_cases same : other = field
      · rw [same, taken]
      · rw [frame other same]
        exact all.kept other (by simp_all)
  · rintro ⟨next, first, rest⟩
    refine ⟨?_, ?_⟩
    · have here : Denotes value (field.content next) := first.holds _ List.mem_cons_self
      rw [← rest.kept field fresh] at here
      exact List.forall_mem_cons.mpr ⟨here, rest.holds⟩
    · intro other absent
      simp only [List.map_cons, List.mem_cons, not_or] at absent
      rw [rest.kept other absent.2, first.kept other (by simpa using absent.1)]

/-- In whichever order settings are given, they come to the same. -/
theorem Settles.of_perm (settles : Settles start given final) (same : given.Perm others) :
    Settles start others final where
  holds pair inside := settles.holds pair (same.mem_iff.mpr inside)
  kept field absent := settles.kept field (mt (same.map Prod.fst).mem_iff.mp absent)

theorem denotes_path_iff {held : Path} :
    Denotes value (.path held) ↔ ∃ text, value = .string text ∧ held = .ofString text := by
  constructor
  · rintro ⟨text⟩
    exact ⟨text, rfl, rfl⟩
  · rintro ⟨text, rfl, rfl⟩
    exact .path text

theorem denotes_paths_iff {held : List Path} : Denotes value (.paths held) ↔
    ∃ texts : List String, value = .list (texts.map Json.string) ∧
      held = texts.map Path.ofString := by
  constructor
  · rintro (_ | ⟨texts⟩)
    exact ⟨texts, rfl, rfl⟩
  · rintro ⟨texts, rfl, rfl⟩
    exact .paths texts

theorem denotes_texts_iff {held : List String} :
    Denotes value (.texts held) ↔ ∃ texts, value = .list (texts.map Json.string) ∧ held = texts := by
  constructor
  · rintro (_ | _ | ⟨texts⟩)
    exact ⟨held, rfl, rfl⟩
  · rintro ⟨texts, rfl, rfl⟩
    exact .texts held

/-- What one setting comes to, where `put` puts what it holds into a configuration. -/
theorem settles_iff_exists {α : Type} (encoded : α → Json) (put : α → Config)
    (denotes : ∀ value, ∀ next : Config, Denotes value (field.content next) ↔
      ∃ a, value = encoded a ∧ field.content next = field.content (put a))
    (kept : ∀ a, ∀ other ≠ field, other.content (put a) = other.content start) :
    Settles start [(field, value)] final ↔ ∃ a, value = encoded a ∧ final = put a := by
  constructor
  · intro settles
    obtain ⟨a, rfl, held⟩ := (denotes value final).mp (settles.holds _ List.mem_cons_self)
    refine ⟨a, rfl, eq_of_content fun other => ?_⟩
    by_cases same : other = field
    · rw [same, held]
    · rw [kept a other same]
      exact settles.kept other (by simpa using same)
  · rintro ⟨a, rfl, rfl⟩
    constructor
    · rw [List.forall_mem_singleton]
      exact (denotes _ _).mpr ⟨a, rfl, rfl⟩
    · intro other absent
      exact kept a other (by simpa using absent)

theorem exists_perm_of_map {α β : Type} {f : α → β} {items : List α} {mapped : List β}
    (same : (items.map f).Perm mapped) : ∃ others, items.Perm others ∧ mapped = others.map f := by
  have images : List.Forall₂ (fun b a => b = f a) (items.map f) items := by
    rw [List.forall₂_map_left_iff, List.forall₂_same]
    exact fun _ _ => rfl
  obtain ⟨others, pairs, perm⟩ := List.perm_comp_forall₂ same.symm images
  rw [← List.forall₂_map_right_iff, List.forall₂_eq_eq_eq] at pairs
  exact ⟨others, perm.symm, pairs⟩

/-- The order of the fields of an object does not matter. -/
theorem Gives.of_perm {fields others : List (String × Json)}
    (gives : Gives (.object fields) final) (same : fields.Perm others) :
    Gives (.object others) final := by
  generalize whole : Json.object fields = value at gives
  cases gives with
  | object distinct settles =>
      cases whole
      obtain ⟨given, perm, rfl⟩ := exists_perm_of_map same
      exact .object ((perm.map Prod.fst).nodup_iff.mp distinct) (settles.of_perm perm)
  | list few settles => cases whole

/-! ## Which values give a configuration -/

theorem admits_iff_exists_denotes :
    Admits field value ↔ ∃ config : Config, Denotes value (field.content config) := by
  constructor
  · rintro (⟨text⟩ | ⟨other, texts⟩)
    · exact ⟨{ default with output := .ofString text }, .path text⟩
    · cases field with
      | output => exact absurd rfl other
      | sourceDirs =>
          exact ⟨{ default with sourceDirs := texts.map Path.ofString }, .paths texts⟩
      | excludedExtensions =>
          exact ⟨{ default with excludedExtensions := texts }, .texts texts⟩
      | ignoredDirs => exact ⟨{ default with ignoredDirs := texts }, .texts texts⟩
      | scriptDirs => exact ⟨{ default with scriptDirs := texts }, .texts texts⟩
  · rintro ⟨config, denotes⟩
    generalize held : field.content config = content at denotes
    cases denotes with
    | path text =>
        cases field
        case output => exact .output text
        all_goals cases held
    | paths texts | texts texts =>
        refine .several ?_ texts
        rintro rfl
        cases held

/-- Distinct settings with values of their kinds can be given to any configuration. -/
theorem exists_settles (start : Config) (distinct : (given.map Prod.fst).Nodup)
    (each : ∀ pair ∈ given, Admits pair.1 pair.2) : ∃ final, Settles start given final := by
  induction given generalizing start with
  | nil => exact ⟨start, settles_nil_iff.mpr rfl⟩
  | cons pair others ih =>
      obtain ⟨fresh, distinct⟩ := List.nodup_cons.mp distinct
      obtain ⟨here, later⟩ := List.forall_mem_cons.mp each
      obtain ⟨source, denotes⟩ := admits_iff_exists_denotes.mp here
      obtain ⟨next, taken, frame⟩ := exists_transferred pair.1 start source
      obtain ⟨final, settles⟩ := ih next distinct later
      refine ⟨final, (settles_cons_iff fresh).mpr ⟨next, ⟨?_, ?_⟩, settles⟩⟩
      · rw [List.forall_mem_singleton, taken]
        exact denotes
      · intro other absent
        exact frame other (by simpa using absent)

theorem Settles.admits (settles : Settles start given final) :
    ∀ pair ∈ given, Admits pair.1 pair.2 :=
  fun pair inside => admits_iff_exists_denotes.mpr ⟨final, settles.holds pair inside⟩

theorem mem_of_mem_zip {fields : List Field} {values : List Json}
    (inside : field ∈ (fields.zip values).map Prod.fst) : field ∈ fields := by
  obtain ⟨pair, member, rfl⟩ := List.mem_map.mp inside
  exact (List.of_mem_zip member).1

theorem nodup_zip {fields : List Field} (distinct : fields.Nodup) (values : List Json) :
    ((fields.zip values).map Prod.fst).Nodup := by
  induction fields generalizing values with
  | nil => exact List.nodup_nil
  | cons field others ih =>
      obtain ⟨fresh, distinct⟩ := List.nodup_cons.mp distinct
      cases values with
      | nil => exact List.nodup_nil
      | cons value rest =>
          rw [List.zip_cons_cons, List.map_cons, List.nodup_cons]
          exact ⟨mt mem_of_mem_zip fresh, ih distinct rest⟩

/-- A value gives a configuration exactly if all of its parts are of their kinds. -/
theorem exists_gives_iff : (∃ config, Gives value config) ↔ Admissible value := by
  constructor
  · rintro ⟨config, gives⟩
    cases gives with
    | object distinct settles => exact .object distinct settles.admits
    | list few settles => exact .list few settles.admits
  · intro admissible
    cases admissible with
    | object distinct each =>
        obtain ⟨config, settles⟩ := exists_settles default distinct each
        exact ⟨config, .object distinct settles⟩
    | list few each =>
        obtain ⟨config, settles⟩ := exists_settles default (nodup_zip Field.nodup_all _) each
        exact ⟨config, .list few settles⟩

end Config

end CacheManifest
