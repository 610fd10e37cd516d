/-
# Exclusions on top of a configuration

The command line adds exclusions to those of the configuration. A scan then comes to what it
came to before without the files they concern: those with an added extension, and those
below a directory with an added name. Nothing else about the result changes, and its order
stays.

A directory that is newly ignored is not entered, so a scan that failed there may succeed.
Extensions are asked for when a directory has been listed, and added ones leave every
failure as it is.
-/

import CacheManifest.Proofs.Scan.Canonical
import CacheManifest.Proofs.Scan.Relisting
import CacheManifest.Run

namespace CacheManifest

open CommandLine (Arguments)
open Scan (Entered Fault FirstUnlistable Listable Listing Sound Unwanted besides relativePath
  scriptName shortName)

namespace Run

variable {fs : Filesystem} {root directory origin : Path} {config : Config}
  {base place : Location}

/-- A place that exclusions keep out: the file has one of the extensions, or a directory on
the way to it has one of the names. -/
def Withheld (extensions names : List String) (place : Location) : Prop :=
  (∃ name ∈ place.getLast?, ∃ extension ∈ extensions,
      Config.extension? name.text = some extension) ∨
    ∃ name ∈ place.dropLast, name.text ∈ names

instance (extensions names : List String) (place : Location) :
    Decidable (Withheld extensions names place) := by
  unfold Withheld
  infer_instance

section Overruled

variable (arguments : Arguments)

/-! ## What is entered and listed -/

/-- Names on the way that are not ignored were not ignored before, and none was added. -/
theorem unpruned_overruled_iff {front : Location} :
    (∀ name ∈ front, name.text ∉ (overruled config arguments).ignoredDirs) ↔
      (∀ name ∈ front, name.text ∉ config.ignoredDirs) ∧
        ∀ name ∈ front, name.text ∉ arguments.ignoreDirs := by
  simp only [overruled, List.mem_append, not_or]
  exact forall₂_and

theorem entered_of_overruled (entered : Entered fs (overruled config arguments) base place) :
    Entered fs config base place where
  directory := entered.directory
  unpruned := ((unpruned_overruled_iff arguments).mp entered.unpruned).1

theorem listable_overruled_iff :
    Listable fs (overruled config arguments) origin base place ↔
      Listable fs config origin base place ∧
        ∀ name ∈ place.dropLast, name.text ∉ arguments.ignoreDirs := by
  refine ⟨fun listable => ?_, fun ⟨listable, added⟩ => ?_⟩
  · obtain ⟨kept, added⟩ := (unpruned_overruled_iff arguments).mp listable.unpruned
    exact ⟨⟨listable.below, listable.kind, kept⟩, added⟩
  · exact ⟨listable.below, listable.kind,
      (unpruned_overruled_iff arguments).mpr ⟨listable.unpruned, added⟩⟩

theorem unwanted_overruled_iff :
    Unwanted (overruled config arguments) place ↔
      Unwanted config place ∨ ∃ name ∈ place.getLast?, ∃ extension ∈ arguments.excludes,
        Config.extension? name.text = some extension := by
  simp only [Unwanted, Config.excludes_iff, overruled, List.mem_append, or_and_right, exists_or,
    and_or_left, Option.mem_def]

/-- What is listed with more exclusions is what was listed and is not withheld. -/
theorem listed_overruled_iff :
    (Listable fs (overruled config arguments) origin base place ∧
        ¬ Unwanted (overruled config arguments) place) ↔
      (Listable fs config origin base place ∧ ¬ Unwanted config place) ∧
        ¬ Withheld arguments.excludes arguments.ignoreDirs place := by
  have no_ignored : (¬ ∃ name ∈ place.dropLast, name.text ∈ arguments.ignoreDirs) ↔
      ∀ name ∈ place.dropLast, name.text ∉ arguments.ignoreDirs := by
    simp only [not_exists, not_and]
  rw [listable_overruled_iff, unwanted_overruled_iff, Withheld, not_or, not_or, no_ignored]
  tauto

/-- A listing without what is withheld is a listing, in the order it had. -/
theorem listing_overruled {places : List Location}
    (listing : Listing fs config origin base places) :
    Listing fs (overruled config arguments) origin base
      (places.filter fun place =>
        ¬ Withheld arguments.excludes arguments.ignoreDirs place) where
  ordered := listing.ordered.filter _
  mem_iff place := by
    rw [List.mem_filter, listing.mem_iff, listed_overruled_iff, decide_eq_true_eq]

/-! ## Successes and failures -/

/-- Fewer directories are entered, so a sound source directory stays sound. -/
theorem sound_overruled (sound : Sound fs config origin) :
    Sound fs (overruled config arguments) origin where
  directory := sound.directory
  listed base place located entered :=
    sound.listed base place located (entered_of_overruled arguments entered)

theorem scan_overruled_of_ok (absolute : root.isAbsolute = true) {found : List Entry}
    (succeeded : (scan fs root directory config).outcome = .ok found) :
    ∃ base places, fs.locate (root.join directory) = .ok base ∧
      Listing fs config (root.join directory) base places ∧
      found = (places.map fun place => Entry.ofFile directory (relativePath place)) ∧
      (scan fs root directory (overruled config arguments)).outcome =
        .ok ((places.filter fun place =>
            ¬ Withheld arguments.excludes arguments.ignoreDirs place).map fun place =>
          Entry.ofFile directory (relativePath place)) := by
  obtain ⟨base, places, located, listing, same⟩ := Scan.exists_listing absolute succeeded
  have sound := (Scan.scan_eq_ok_iff absolute).mp ⟨found, succeeded⟩
  have succeeded_again := Scan.scan_of_listing absolute (sound_overruled arguments sound) located
    (listing_overruled arguments listing)
  exact ⟨base, places, located, listing, same, succeeded_again⟩

end Overruled

/-- What is wrong with a source directory depends on the ignored directories alone. -/
theorem fault_of_ignoredDirs_eq {other : Config} {failure : Failure}
    (same : other.ignoredDirs = config.ignoredDirs) (at_fault : Fault fs config origin failure) :
    Fault fs other origin failure := by
  have entered_iff {base place : Location} :
      Entered fs other base place ↔ Entered fs config base place :=
    ⟨fun entered => ⟨entered.directory, same ▸ entered.unpruned⟩,
      fun entered => ⟨entered.directory, same ▸ entered.unpruned⟩⟩
  cases at_fault with
  | missing lookup => exact .missing lookup
  | unreachable cause lookup differs => exact .unreachable cause lookup differs
  | misplaced node lookup kind => exact .misplaced node lookup kind
  | unlistable base place cause located first =>
      have still_first : FirstUnlistable fs other origin base place cause :=
        ⟨entered_iff.mpr first.entered, first.refused, fun earlier reason entered =>
          first.first earlier reason (entered_iff.mp entered)⟩
      exact .unlistable base place cause located still_first

theorem scan_overruled_eq_error_iff (absolute : root.isAbsolute = true) {arguments : Arguments}
    (none_added : arguments.ignoreDirs = []) {failure : Failure} :
    (scan fs root directory (overruled config arguments)).outcome = .error failure ↔
      (scan fs root directory config).outcome = .error failure := by
  have same : (overruled config arguments).ignoredDirs = config.ignoredDirs := by
    rw [overruled, none_added, List.append_nil]
  rw [Scan.scan_eq_error_iff absolute, Scan.scan_eq_error_iff absolute]
  exact ⟨fault_of_ignoredDirs_eq same.symm, fault_of_ignoredDirs_eq same⟩

/-- What becomes of a scan with the exclusions of the command line. If it succeeded, it
succeeds with the same files in the same order but for those withheld. If no ignored
directory is added, it fails if it failed and for the same reason. And of the exclusions it
matters only which ones there are. -/
structure Narrows (fs : Filesystem) (root directory : Path) (config : Config)
    (arguments : Arguments) : Prop where
  succeeds : ∀ found, (scan fs root directory config).outcome = .ok found →
    ∃ base places, fs.locate (root.join directory) = .ok base ∧
      Listing fs config (root.join directory) base places ∧
      found = (places.map fun place => Entry.ofFile directory (relativePath place)) ∧
      (scan fs root directory (overruled config arguments)).outcome =
        .ok ((places.filter fun place =>
            ¬ Withheld arguments.excludes arguments.ignoreDirs place).map fun place =>
          Entry.ofFile directory (relativePath place))
  fails : arguments.ignoreDirs = [] → ∀ failure,
    (scan fs root directory (overruled config arguments)).outcome = .error failure ↔
      (scan fs root directory config).outcome = .error failure
  sets : ∀ other : Config,
    (∀ extension,
      extension ∈ other.excludedExtensions ↔ extension ∈ config.excludedExtensions) →
    (∀ name, name ∈ other.ignoredDirs ↔ name ∈ config.ignoredDirs) →
    scan fs root directory other = scan fs root directory config

/-- Exclusions that are added take away the files they concern and do nothing else. -/
theorem scan_narrows (absolute : root.isAbsolute = true) (fs : Filesystem) (directory : Path)
    (config : Config) (arguments : Arguments) : Narrows fs root directory config arguments where
  succeeds _ succeeded := scan_overruled_of_ok arguments absolute succeeded
  fails none_added _ := scan_overruled_eq_error_iff absolute none_added
  sets _ extensions directories :=
    Scan.scan_of_reordered (.refl fs.top) (Or.inl absolute) directory
      (Config.sameExclusions_of_mem_iff extensions directories)

/-- The arguments of a call that adds an extension to the exclusions, and directory names. -/
def excluding (extension : String) (names : List String) : Arguments :=
  ⟨none, none, none, [], [extension], names, false, false, none⟩

/-- A source directory with a script, and another one in a directory beside it. -/
def twoScripts : Filesystem := besides [shortName, scriptName] (by decide)

/-- With the directory ignored, the script in it is withheld and the other one is listed. An
added extension withholds both, and a missing source directory stays missing. -/
theorem scan_narrows_besides :
    (scan twoScripts (.ofString "/") (.ofString "src") .default).outcome =
        .ok [⟨"src", "/src/a/a.js"⟩, ⟨"src", "/src/a.js"⟩] ∧
      (scan twoScripts (.ofString "/") (.ofString "src")
          (overruled .default (excluding ".map" ["a"]))).outcome =
        .ok [⟨"src", "/src/a.js"⟩] ∧
      (∃ base places, twoScripts.locate (.ofString "/src") = .ok base ∧
        Listing twoScripts .default (.ofString "/src") base places ∧
        [⟨"src", "/src/a.js"⟩] = (places.filter fun place =>
            ¬ Withheld [".map"] ["a"] place).map fun place =>
          Entry.ofFile (.ofString "src") (relativePath place)) ∧
      (scan twoScripts (.ofString "/") (.ofString "js")
          (overruled .default (excluding ".js" []))).outcome =
        .error (.directoryNotFound (.ofString "/js")) := by
  have succeeded : (scan twoScripts (.ofString "/") (.ofString "src") .default).outcome =
      .ok [⟨"src", "/src/a/a.js"⟩, ⟨"src", "/src/a.js"⟩] := by rfl
  have narrowed : (scan twoScripts (.ofString "/") (.ofString "src")
      (overruled .default (excluding ".map" ["a"]))).outcome = .ok [⟨"src", "/src/a.js"⟩] := by
    rfl
  have failed : (scan twoScripts (.ofString "/") (.ofString "js") .default).outcome =
      .error (.directoryNotFound (.ofString "/js")) := by rfl
  have absolute : (Path.ofString "/").isAbsolute = true := by decide
  obtain ⟨base, places, located, listing, -, remaining⟩ :=
    (scan_narrows absolute twoScripts (.ofString "src") .default
      (excluding ".map" ["a"])).succeeds _ succeeded
  have kept := Except.ok.inj (narrowed.symm.trans remaining)
  have still_missing := ((scan_narrows absolute twoScripts (.ofString "js") .default
    (excluding ".js" [])).fails rfl _).mpr failed
  exact ⟨succeeded, narrowed, ⟨base, places, located, listing, kept⟩, still_missing⟩

end Run

end CacheManifest
