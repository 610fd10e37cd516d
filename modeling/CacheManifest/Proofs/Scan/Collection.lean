/-
# Collecting from several source directories

The source directories are scanned in the order they are configured in. What is
collected is what the scans answer with, one after the other, and the first scan
that fails ends the work with its failure. The directories behind it are not
looked at, so nothing about them matters.
-/

import CacheManifest.Proofs.Scan.Exactness

namespace CacheManifest

namespace Scan

variable {fs : Filesystem} {config : Config} {root : Path}

/-- One scan, and then the others if it succeeds. -/
theorem outcome_collectFrom_cons (directory : Path) (others : List Path) :
    (collectFrom fs root config (directory :: others)).outcome =
      match (scan fs root directory config).outcome with
      | .error failure => .error failure
      | .ok found => (collectFrom fs root config others).outcome.map (found ++ ·) := by
  rw [collectFrom]
  cases (scan fs root directory config).outcome <;> rfl

/-- What is collected is what the scans find, one after the other. -/
theorem collectFrom_eq_ok_iff {directories : List Path} {collected : List Entry} :
    (collectFrom fs root config directories).outcome = .ok collected ↔
      ∃ parts, List.Forall₂
        (fun directory part => (scan fs root directory config).outcome = .ok part)
        directories parts ∧ collected = parts.flatten := by
  induction directories generalizing collected with
  | nil =>
      refine ⟨?_, ?_⟩
      · rintro ⟨⟩
        exact ⟨[], .nil, rfl⟩
      · rintro ⟨parts, each, rfl⟩
        cases each
        rfl
  | cons directory others ih =>
      rw [outcome_collectFrom_cons]
      refine ⟨?_, ?_⟩
      · intro succeeded
        cases here : (scan fs root directory config).outcome with
        | error failure => simp [here] at succeeded
        | ok part =>
            cases rest : (collectFrom fs root config others).outcome with
            | error failure => simp [here, rest, Except.map] at succeeded
            | ok more =>
                obtain ⟨parts, each, rfl⟩ := ih.mp rest
                simp only [here, rest, Except.map] at succeeded
                cases succeeded
                exact ⟨part :: parts, .cons here each, rfl⟩
      · rintro ⟨parts, each, rfl⟩
        cases each with
        | cons here each =>
            have rest := ih.mpr ⟨_, each, rfl⟩
            simp only [here, rest, Except.map, List.flatten_cons]

/-- What is collected are the entries of the files below the source directories. -/
theorem mem_collectFrom_iff (absolute : root.isAbsolute = true) {directories : List Path}
    {collected : List Entry}
    (succeeded : (collectFrom fs root config directories).outcome = .ok collected)
    {entry : Entry} :
    entry ∈ collected ↔ ∃ directory ∈ directories, ∃ base place,
      fs.locate (root.join directory) = .ok base ∧
        (Listable fs config (root.join directory) base place ∧ ¬ Unwanted config place) ∧
          entry = Entry.ofFile directory (relativePath place) := by
  obtain ⟨parts, each, rfl⟩ := collectFrom_eq_ok_iff.mp succeeded
  rw [List.mem_flatten]
  clear succeeded
  induction each with
  | nil => simp
  | cons here each ih =>
      obtain ⟨base, places, located, listing, rfl⟩ := exists_listing absolute here
      simp only [List.mem_cons, exists_eq_or_imp, ih, List.mem_map, listing.mem_iff]
      apply or_congr_left
      refine ⟨?_, ?_⟩
      · rintro ⟨place, listed, rfl⟩
        exact ⟨base, place, located, listed, rfl⟩
      · rintro ⟨other, place, again, listed, rfl⟩
        cases located.symm.trans again
        exact ⟨place, listed, rfl⟩

/-- A collection succeeds if every scan does. -/
theorem collectFrom_succeeds_iff {directories : List Path} :
    (∃ collected, (collectFrom fs root config directories).outcome = .ok collected) ↔
      ∀ directory ∈ directories, ∃ found, (scan fs root directory config).outcome = .ok found := by
  induction directories with
  | nil => simp [collectFrom]
  | cons directory others ih =>
      rw [outcome_collectFrom_cons, List.forall_mem_cons, ← ih]
      cases (scan fs root directory config).outcome with
      | error failure => simp
      | ok part => cases (collectFrom fs root config others).outcome <;> simp [Except.map]

/-- The failure of a collection is that of the first scan that fails. -/
theorem collectFrom_eq_error_iff {directories : List Path} {failure : Failure} :
    (collectFrom fs root config directories).outcome = .error failure ↔
      ∃ earlier directory later, directories = earlier ++ directory :: later ∧
        (∀ other ∈ earlier, ∃ found, (scan fs root other config).outcome = .ok found) ∧
          (scan fs root directory config).outcome = .error failure := by
  induction directories with
  | nil => simp [collectFrom]
  | cons first others ih =>
      rw [outcome_collectFrom_cons]
      cases here : (scan fs root first config).outcome with
      | error reason =>
          refine ⟨?_, ?_⟩
          · rintro ⟨⟩
            exact ⟨[], first, others, rfl, by simp, here⟩
          · rintro ⟨earlier, directory, later, same, sound, failed⟩
            cases earlier with
            | nil =>
                cases same
                exact here.symm.trans failed
            | cons other more =>
                cases same
                obtain ⟨found, succeeded⟩ := sound first List.mem_cons_self
                cases here.symm.trans succeeded
      | ok part =>
          have onward : (collectFrom fs root config others).outcome.map (part ++ ·) =
              .error failure ↔ (collectFrom fs root config others).outcome = .error failure := by
            cases (collectFrom fs root config others).outcome <;> simp [Except.map]
          dsimp only
          rw [onward, ih]
          refine ⟨?_, ?_⟩
          · rintro ⟨earlier, directory, later, rfl, sound, failed⟩
            have all_sound : ∀ other ∈ first :: earlier,
                ∃ found, (scan fs root other config).outcome = .ok found := by
              intro other inside
              rcases List.mem_cons.mp inside with rfl | inside
              · exact ⟨part, here⟩
              · exact sound other inside
            exact ⟨first :: earlier, directory, later, rfl, all_sound, failed⟩
          · rintro ⟨earlier, directory, later, same, sound, failed⟩
            cases earlier with
            | nil =>
                cases same
                cases here.symm.trans failed
            | cons other more =>
                cases same
                exact ⟨more, directory, later, rfl,
                  fun other inside => sound other (List.mem_cons_of_mem _ inside), failed⟩

/-- A scan succeeds exactly if its source directory is sound. -/
theorem scan_eq_ok_iff (absolute : root.isAbsolute = true) {directory : Path} :
    (∃ found, (scan fs root directory config).outcome = .ok found) ↔
      Sound fs config (root.join directory) := by
  have verdict := verdict_scan fs config directory absolute
  refine ⟨?_, ?_⟩
  · rintro ⟨found, succeeded⟩
    rw [succeeded] at verdict
    cases verdict with
    | sound base start located begins inside listed =>
        refine ⟨?_, ?_⟩
        · simp only [Filesystem.isDirectory, Filesystem.metadata_of_locate located begins, inside]
        · intro other place again
          cases located.symm.trans again
          exact listed place
  · intro sound
    cases outcome : (scan fs root directory config).outcome with
    | ok found => exact ⟨found, rfl⟩
    | error failure =>
        rw [outcome] at verdict
        cases verdict with
        | fault failure at_fault => exact absurd sound at_fault.not_sound

/-- A scan fails exactly with what is wrong with its source directory. -/
theorem scan_eq_error_iff (absolute : root.isAbsolute = true) {directory : Path}
    {failure : Failure} :
    (scan fs root directory config).outcome = .error failure ↔
      Fault fs config (root.join directory) failure := by
  have verdict := verdict_scan fs config directory absolute
  refine ⟨?_, ?_⟩
  · intro failed
    rw [failed] at verdict
    cases verdict with
    | fault failure at_fault => exact at_fault
  · intro at_fault
    cases outcome : (scan fs root directory config).outcome with
    | ok found => exact absurd ((scan_eq_ok_iff absolute).mp ⟨found, outcome⟩) at_fault.not_sound
    | error reason =>
        rw [outcome] at verdict
        cases verdict with
        | fault reason found => rw [at_fault.unique found]

/-- Collecting succeeds exactly if all source directories are sound, and then
answers with their scans in order. Otherwise it fails with what is wrong with the
first one that is not sound, whatever the later ones are. -/
theorem collect_exact (fs : Filesystem) (config : Config) (absolute : root.isAbsolute = true) :
    ((∃ collected, (collect fs root config).outcome = .ok collected) ↔
      ∀ directory ∈ config.sourceDirs, Sound fs config (root.join directory)) ∧
    (∀ collected, (collect fs root config).outcome = .ok collected ↔
      ∃ parts, List.Forall₂
        (fun directory part => (scan fs root directory config).outcome = .ok part)
        config.sourceDirs parts ∧ collected = parts.flatten) ∧
    ∀ failure, (collect fs root config).outcome = .error failure ↔
      ∃ earlier directory later, config.sourceDirs = earlier ++ directory :: later ∧
        (∀ other ∈ earlier, Sound fs config (root.join other)) ∧
          Fault fs config (root.join directory) failure := by
  refine ⟨?_, fun collected => collectFrom_eq_ok_iff, fun failure => ?_⟩
  · simp only [collect, collectFrom_succeeds_iff, scan_eq_ok_iff absolute]
  · simp only [collect, collectFrom_eq_error_iff, scan_eq_ok_iff absolute,
      scan_eq_error_iff absolute]

/-- With one of the default source directories there, the next one is missing. -/
theorem collect_exact_linked :
    (collect linked (.ofString "/") .default).outcome =
        .error (.directoryNotFound (.ofString "/styles")) ∧
      ∃ earlier directory later, Config.default.sourceDirs = earlier ++ directory :: later ∧
        (∀ other ∈ earlier, Sound linked .default (Path.join (.ofString "/") other)) ∧
          Fault linked .default (Path.join (.ofString "/") directory)
            (.directoryNotFound (.ofString "/styles")) := by
  have failed : (collect linked (.ofString "/") .default).outcome =
      .error (.directoryNotFound (.ofString "/styles")) := by rfl
  exact ⟨failed, ((collect_exact linked .default (by decide)).2.2 _).mp failed⟩

end Scan

end CacheManifest
