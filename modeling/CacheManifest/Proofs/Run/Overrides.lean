/-
# Settings that the command line overrules

An accepted command line gives values to the repeatable parameters, in an order. Source
directories that are given replace those of the configuration, and exclusions are added
to its own.

What takes effect are the values behind the command word, if there are any, and else
those in front of it. So all of them do exactly if no parameter has values on both
sides.
-/

import CacheManifest.Run
import CacheManifest.Proofs.CommandLine.Levels
import CacheManifest.Proofs.Scan.Exactness

namespace CacheManifest

open CommandLine (Arguments Item Parameter Prevail Spelled prevailing values)
open Config (Project)
open Scan (linked)

namespace Run

/-- Settings as they are with values given to the repeatable parameters. -/
structure Overruled (loaded effective : Config) (given : Parameter → List Bytes) : Prop where
  sourceDirs : effective.sourceDirs =
    if given .dir = [] then loaded.sourceDirs else (given .dir).map Path.mk
  excludedExtensions : ∃ texts, texts.map some = (given .exclude).map Utf8.decode? ∧
    effective.excludedExtensions = loaded.excludedExtensions ++ texts
  ignoredDirs : ∃ texts, texts.map some = (given .ignoreDir).map Utf8.decode? ∧
    effective.ignoredDirs = loaded.ignoredDirs ++ texts

/-- The parameters that may be repeated. -/
def repeatable : List Parameter := [.dir, .exclude, .ignoreDir]

variable {loaded effective : Config} {given other : Parameter → List Bytes}

theorem Overruled.congr (overruled : Overruled loaded effective given)
    (same : ∀ parameter ∈ repeatable, given parameter = other parameter) :
    Overruled loaded effective other := by
  obtain ⟨sourceDirs, excludedExtensions, ignoredDirs⟩ := overruled
  rw [same .dir (by decide)] at sourceDirs
  rw [same .exclude (by decide)] at excludedExtensions
  rw [same .ignoreDir (by decide)] at ignoredDirs
  exact ⟨sourceDirs, excludedExtensions, ignoredDirs⟩

theorem length_eq_of_texts {lists effective : List String} {first second : List Bytes}
    (one : ∃ texts, texts.map some = first.map Utf8.decode? ∧ effective = lists ++ texts)
    (two : ∃ texts, texts.map some = second.map Utf8.decode? ∧ effective = lists ++ texts) :
    first.length = second.length := by
  obtain ⟨texts, decoded, rfl⟩ := one
  obtain ⟨again, decoded_again, same⟩ := two
  rw [List.append_cancel_left same] at decoded
  have lengths := congrArg List.length (decoded.symm.trans decoded_again)
  simpa using lengths

/-- Two ways to come to the same source directories give as many of them, if both give any. -/
theorem Overruled.length_eq (overruled : Overruled loaded effective given)
    (again : Overruled loaded effective other) (some_dir : given .dir ≠ [])
    (some_other : other .dir ≠ []) : (given .dir).length = (other .dir).length := by
  have same := overruled.sourceDirs.symm.trans again.sourceDirs
  rw [if_neg some_dir, if_neg some_other] at same
  simpa using congrArg List.length same

theorem length_prevailing_eq_iff {α : Type} {inner outer : List α} :
    (prevailing inner outer).length = (outer ++ inner).length ↔ outer = [] ∨ inner = [] := by
  cases inner <;> simp [prevailing]

theorem prevailing_of_nil {α : Type} {inner outer : List α} (one : outer = [] ∨ inner = []) :
    prevailing inner outer = outer ++ inner := by
  rcases one with rfl | rfl
  · cases inner <;> rfl
  · simp [prevailing]

theorem values_append (parameter : Parameter) (before after : List Item) :
    values parameter (before ++ after) = values parameter before ++ values parameter after :=
  List.filterMap_append

/-- Where the values behind the command word prevail, all take effect exactly if no
parameter has values on both sides of it. -/
theorem overruled_append_iff {before after : List Item}
    (overruled : Overruled loaded effective fun parameter =>
      prevailing (values parameter after) (values parameter before)) :
    (Overruled loaded effective fun parameter => values parameter (before ++ after)) ↔
      ∀ parameter ∈ repeatable, values parameter before = [] ∨ values parameter after = [] := by
  constructor
  · intro all parameter member
    simp only [repeatable, List.mem_cons, List.not_mem_nil, or_false] at member
    rcases member with rfl | rfl | rfl
    · by_contra! both
      have lengths := overruled.length_eq all
        (by cases shape : values .dir after <;> simp_all [prevailing])
        (by simp [values_append, both.1])
      rw [values_append, length_prevailing_eq_iff] at lengths
      exact lengths.elim both.1 both.2
    · have lengths := length_eq_of_texts overruled.excludedExtensions all.excludedExtensions
      rwa [values_append, length_prevailing_eq_iff] at lengths
    · have lengths := length_eq_of_texts overruled.ignoredDirs all.ignoredDirs
      rwa [values_append, length_prevailing_eq_iff] at lengths
  · intro apart
    refine overruled.congr fun parameter member => ?_
    rw [values_append, prevailing_of_nil (apart parameter member)]

theorem overruled_of_prevail {asked : Arguments} {before after : List Item}
    (prevail : Prevail asked before after) (config : Config) :
    Overruled config (overruled config asked) fun parameter =>
      prevailing (values parameter after) (values parameter before) where
  sourceDirs := by
    rw [overruled, prevail.dirs]
    simp only [List.isEmpty_map, List.isEmpty_iff]
  excludedExtensions := ⟨asked.excludes, prevail.excludes, rfl⟩
  ignoredDirs := ⟨asked.ignoreDirs, prevail.ignoreDirs, rfl⟩

/-- An accepted command line is spelled in some way. In whichever way it is, the settings
of the run are those that were loaded with the prevailing values given, and they are
those with all values given exactly if no parameter has values on both sides of the
command word. -/
theorem resolve_overrules {fs : Filesystem} {arguments : List Bytes} {setting : Option Bytes}
    {asked : Arguments} {loaded : Project}
    (accepted : CommandLine.read arguments setting = .ok asked)
    (found : discovered fs asked = .ok loaded) :
    ∃ project, resolve fs asked = .ok project ∧ project.root = loaded.root ∧
      (∃ before after, Spelled arguments before after) ∧
      ∀ before after, Spelled arguments before after →
        (Overruled loaded.config project.config fun parameter =>
          prevailing (values parameter after) (values parameter before)) ∧
        ((Overruled loaded.config project.config fun parameter =>
            values parameter (before ++ after)) ↔
          ∀ parameter ∈ repeatable,
            values parameter before = [] ∨ values parameter after = []) := by
  refine ⟨⟨loaded.root, overruled loaded.config asked⟩, ?_, rfl,
    CommandLine.exists_spelled accepted, fun before after spelled => ?_⟩
  · rw [resolve, found]
    rfl
  · have takes_effect :=
      overruled_of_prevail (CommandLine.prevail_of_spelled accepted spelled) loaded.config
    exact ⟨takes_effect, overruled_append_iff takes_effect⟩

/-- The arguments of a call for a listing, with one source directory and one exclusion in
front of the command word, and more behind it. -/
def listingWith (more : List String) : List Bytes :=
  (["-d", "src", "-x", ".map", "list"] ++ more).map Utf8.encode

/-- The items in front of the command word in such arguments. -/
def givenBefore : List Item :=
  [.given .dir (Utf8.encode "src"), .given .exclude (Utf8.encode ".map")]

theorem written_before : CommandLine.Written .program none
    (["-d", "src", "-x", ".map"].map Utf8.encode) givenBefore :=
  .letters (List.cons_ne_nil _ _) (.waiting (by decide)) <| .value (by decide) <|
    .letters (List.cons_ne_nil _ _) (.waiting (by decide)) <| .value (by decide) .done

theorem spelled_listingWith {more : List String} {after : List Item}
    (written : CommandLine.Written .list none (more.map Utf8.encode) after) :
    Spelled (listingWith more) givenBefore after := by
  have named : CommandLine.CommandWord.ofBytes? (Utf8.encode "list") = some .list := by decide
  have spelled := Spelled.command written_before named rfl written (Or.inl rfl)
  rw [List.append_nil] at spelled
  exact spelled

/-- With a source directory and an exclusion in front of the command word and an ignored
directory behind it, all three take effect. -/
theorem resolve_overrules_apart :
    let after : List Item := [.given .ignoreDir (Utf8.encode "tmp")]
    let effective : Config :=
      { Config.default with
        sourceDirs := [.ofString "src"]
        excludedExtensions := Config.default.excludedExtensions ++ [".map"]
        ignoredDirs := [".svn", "tmp"] }
    Spelled (listingWith ["--ignore-dir=tmp"]) givenBefore after ∧
      Overruled .default effective fun parameter => values parameter (givenBefore ++ after) := by
  intro after effective
  have written : CommandLine.Written .list none (["--ignore-dir=tmp"].map Utf8.encode) after :=
    .equated (by decide : CommandLine.Scope.long? .list (Utf8.encode "ignore-dir") = _) .done
  have spelled := spelled_listingWith written
  let asked : Arguments :=
    ⟨none, none, none, [.ofString "src"], [".map"], ["tmp"], false, false, some (.list "text")⟩
  have accepted : CommandLine.read (listingWith ["--ignore-dir=tmp"]) none = .ok asked := by
    decide +kernel
  have found : discovered linked asked = .ok ⟨.ofString "/", .default⟩ := by decide +kernel
  obtain ⟨project, resolved, -, -, all⟩ := resolve_overrules accepted found
  have settings : resolve linked asked = .ok ⟨.ofString "/", effective⟩ := by decide +kernel
  cases resolved.symm.trans settings
  exact ⟨spelled, (all givenBefore after spelled).2.mpr (by decide)⟩

/-- With an exclusion on either side of the command word, the one in front of it is
lost. -/
theorem resolve_loses :
    let after : List Item := [.given .exclude (Utf8.encode ".txt")]
    ∃ asked loaded project,
      CommandLine.read (listingWith ["-x", ".txt"]) none = .ok asked ∧
      discovered linked asked = .ok loaded ∧ resolve linked asked = .ok project ∧
      Spelled (listingWith ["-x", ".txt"]) givenBefore after ∧
      project.config.excludedExtensions = loaded.config.excludedExtensions ++ [".txt"] ∧
      ¬ Overruled loaded.config project.config fun parameter =>
        values parameter (givenBefore ++ after) := by
  intro after
  have written : CommandLine.Written .list none (["-x", ".txt"].map Utf8.encode) after :=
    .letters (List.cons_ne_nil _ _) (.waiting (by decide)) (.value (by decide) .done)
  let asked : Arguments :=
    ⟨none, none, none, [.ofString "src"], [".txt"], [], false, false, some (.list "text")⟩
  refine ⟨asked, ⟨.ofString "/", .default⟩, ⟨.ofString "/", overruled .default asked⟩,
    by decide +kernel, by decide +kernel, by decide +kernel, spelled_listingWith written, rfl,
    fun all => ?_⟩
  obtain ⟨texts, decoded, same⟩ := all.excludedExtensions
  have lost : [".txt"] = texts := List.append_cancel_left same
  rw [← lost] at decoded
  cases congrArg List.length decoded

end Run

end CacheManifest
