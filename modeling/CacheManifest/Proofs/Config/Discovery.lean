/-
# The project of a directory

The search for a project from a directory, case by case. A directory with a
configuration file is a root. In one without, its name and the settings of its parent
decide, and the result is one of the two directories with the settings that are found
in it.

The search reads files by absolute paths only, so it comes to the same wherever the
process stands.
-/

import CacheManifest.Config.Discovery
import CacheManifest.Proofs.Filesystem.Standpoint

namespace CacheManifest

namespace Filesystem

variable {fs : Filesystem} {path : Path}

theorem isFile_eq_false_of_metadata {cause : SystemError}
    (refused : fs.metadata path = .error cause) : fs.isFile path = false := by
  rw [isFile, refused]

theorem readText_of_metadata {cause : SystemError} (refused : fs.metadata path = .error cause) :
    fs.readText path = .error cause := by
  rw [readText, read, refused]

/-- Reading finds nothing only where there is nothing. -/
theorem readText_eq_notFound_iff :
    fs.readText path = .error .notFound ↔ fs.metadata path = .error .notFound := by
  refine ⟨fun missing => ?_, readText_of_metadata⟩
  cases found : fs.metadata path with
  | error cause =>
      cases (readText_of_metadata found).symm.trans missing
      rfl
  | ok node =>
      rw [readText, read, found] at missing
      cases node <;> grind

end Filesystem

namespace Config

variable {fs : Filesystem} {root : Path} {front place : Location} {name : Name}

/-- A directory in which it is clear whether there is a configuration file: a regular
file, or nothing. -/
def Settled (fs : Filesystem) (directory : Path) : Prop :=
  fs.isFile (directory.join fileName) = true ∨
    fs.metadata (directory.join fileName) = .error .notFound

/-! ## The settings of one directory -/

theorem discover_of_missing (missing : fs.metadata (root.join fileName) = .error .notFound) :
    discover fs root = .ok default := by
  rw [discover, Filesystem.readText_of_metadata missing]

/-- The configuration file of a directory is loaded if there is anything at its path. -/
theorem discover_of_present (present : fs.metadata (root.join fileName) ≠ .error .notFound) :
    discover fs root = load fs (root.join fileName) := by
  have read : fs.readText (root.join fileName) ≠ .error .notFound :=
    mt Filesystem.readText_eq_notFound_iff.mp present
  rw [discover, load]
  grind

/-! ## The names of script directories -/

theorem isScriptDir_path_concat {scriptDirs : List String} :
    isScriptDir scriptDirs (front ++ [name] : Location).path = true ↔
      ∃ text, Utf8.decode? name.bytes = some text ∧ text ∈ scriptDirs := by
  rw [isScriptDir, Location.fileName_path_concat, Option.bind_some]
  cases Utf8.decode? name.bytes <;> simp

theorem projectRoot_path_concat (front : Location) (name : Name) (scriptDirs : List String) :
    projectRoot (front ++ [name] : Location).path scriptDirs =
      if isScriptDir scriptDirs (front ++ [name] : Location).path then front.path
      else (front ++ [name] : Location).path := by
  rw [projectRoot, Location.parent_path_concat]

/-! ## The search from a directory -/

theorem discoverFrom_of_isFile (own : fs.isFile (root.join fileName) = true) :
    discoverFrom fs root = (discover fs root).map (⟨root, ·⟩) := by
  rw [discoverFrom, if_pos own]

theorem discoverFrom_top
    (without : fs.isFile ((Location.path []).join fileName) = false) :
    discoverFrom fs (Location.path []) = .ok ⟨Location.path [], default⟩ := by
  rw [discoverFrom, if_neg (by simp [without]), Location.parent_path_nil]

/-- Without a file of its own a directory is a root with the defaults, unless the parent
knows it as a script directory. -/
theorem discoverFrom_below
    (without : fs.isFile ((front ++ [name] : Location).path.join fileName) = false) :
    discoverFrom fs (front ++ [name] : Location).path = (discover fs front.path).map fun config =>
      if isScriptDir config.scriptDirs (front ++ [name] : Location).path then ⟨front.path, config⟩
      else ⟨(front ++ [name] : Location).path, default⟩ := by
  rw [discoverFrom, if_neg (by simp [without]), Location.parent_path_concat]
  dsimp only
  cases discover fs front.path with
  | error failure => rfl
  | ok config =>
      dsimp only [Except.map]
      rw [projectRoot_path_concat]
      split_ifs with script took_parent took_parent
      · rfl
      · simp [Path.sameRoute] at took_parent
      · rw [Location.not_sameRoute_path_concat] at took_parent
        cases took_parent
      · rfl

/-! ## The search from elsewhere -/

theorem load_seenFrom (fs : Filesystem) (standpoint : Location) {path : Path}
    (absolute : path.isAbsolute = true) :
    load (fs.seenFrom standpoint) path = load fs path := by
  rw [load, load, Filesystem.readText_seenFrom absolute]

theorem discover_seenFrom (fs : Filesystem) (standpoint : Location) {root : Path}
    (absolute : root.isAbsolute = true) :
    discover (fs.seenFrom standpoint) root = discover fs root := by
  rw [discover, discover, Filesystem.readText_seenFrom (Path.isAbsolute_join absolute fileName)]

theorem discoverFrom_seenFrom (fs : Filesystem) (standpoint place : Location) :
    discoverFrom (fs.seenFrom standpoint) place.path = discoverFrom fs place.path := by
  have absolute := Location.isAbsolute_path place
  have own : (fs.seenFrom standpoint).isFile (place.path.join fileName) =
      fs.isFile (place.path.join fileName) :=
    Filesystem.isFile_seenFrom (Path.isAbsolute_join absolute fileName)
  rw [discoverFrom, discoverFrom, own, discover_seenFrom fs standpoint absolute]
  obtain rfl | ⟨front, name, rfl⟩ := List.eq_nil_or_concat' place
  · rw [Location.parent_path_nil]
  · rw [Location.parent_path_concat]
    dsimp only
    rw [discover_seenFrom fs standpoint (Location.isAbsolute_path front)]

/-! ## What is found -/

/-- A place whose name is that of a script directory by the settings of its parent. -/
def Scripted (fs : Filesystem) (place : Location) : Prop :=
  ∃ (front : Location) (name : Name) (config : Config) (text : String),
    place = front ++ [name] ∧ discover fs front.path = .ok config ∧
      Utf8.decode? name.bytes = some text ∧ text ∈ config.scriptDirs

theorem not_scripted_nil (fs : Filesystem) : ¬ Scripted fs [] := by
  rintro ⟨front, name, -, -, impossible, -⟩
  simp at impossible

theorem scripted_concat_iff {config : Config} (settings : discover fs front.path = .ok config) :
    Scripted fs (front ++ [name]) ↔
      isScriptDir config.scriptDirs (front ++ [name] : Location).path = true := by
  rw [isScriptDir_path_concat]
  constructor
  · rintro ⟨above, last, other, text, same, again, decoded, member⟩
    obtain ⟨rfl, rfl⟩ : front = above ∧ name = last := by simpa using same
    cases settings.symm.trans again
    exact ⟨text, decoded, member⟩
  · rintro ⟨text, decoded, member⟩
    exact ⟨front, name, config, text, rfl, settings, decoded, member⟩

/-- A project as it is found from a directory: its root is the directory or the parent,
it has the settings of that root, and its root is the parent exactly if the directory has
no configuration file and is a script directory there. -/
structure Found (fs : Filesystem) (place : Location) (project : Project) : Prop where
  root : project.root = place.path ∨ place.path.parent = some project.root
  config : discover fs project.root = .ok project.config
  parent_iff : place.path.parent = some project.root ↔
    fs.metadata (place.path.join fileName) = .error .notFound ∧ Scripted fs place

theorem found_here {config : Config} (settings : discover fs place.path = .ok config)
    (otherwise : ¬ (fs.metadata (place.path.join fileName) = .error .notFound ∧
      Scripted fs place)) : Found fs place ⟨place.path, config⟩ where
  root := Or.inl rfl
  config := settings
  parent_iff := iff_of_false (Location.parent_path_ne_self place) otherwise

theorem found_of_discoverFrom {project : Project} (settled : Settled fs place.path)
    (found : discoverFrom fs place.path = .ok project) : Found fs place project := by
  rcases settled with own | missing
  · rw [discoverFrom_of_isFile own] at found
    cases settings : discover fs place.path with
    | error failure => rw [settings] at found; cases found
    | ok config =>
        rw [settings] at found
        cases found
        refine found_here settings fun ⟨missing, _⟩ => ?_
        cases own.symm.trans (Filesystem.isFile_eq_false_of_metadata missing)
  · have without := Filesystem.isFile_eq_false_of_metadata missing
    obtain rfl | ⟨front, name, rfl⟩ := List.eq_nil_or_concat' place
    · cases (discoverFrom_top without).symm.trans found
      exact found_here (discover_of_missing missing) fun both => not_scripted_nil fs both.2
    · rw [discoverFrom_below without] at found
      cases settings : discover fs (Location.path front) with
      | error failure => rw [settings] at found; cases found
      | ok config =>
          rw [settings] at found
          dsimp only [Except.map] at found
          split_ifs at found with script
          · cases found
            have parent := Location.parent_path_concat front name
            have scripted := (scripted_concat_iff settings).mpr script
            exact ⟨Or.inr parent, settings, iff_of_true parent ⟨missing, scripted⟩⟩
          · cases found
            exact found_here (discover_of_missing missing) fun both =>
              script ((scripted_concat_iff settings).mp both.2)

/-- A configuration file that cannot be loaded ends the search, be it in the directory or,
where this has none, in its parent. -/
theorem discoverFrom_of_unloadable {directory : Path} {failure : Failure}
    (settled : Settled fs place.path)
    (near : directory = place.path ∨
      fs.metadata (place.path.join fileName) = .error .notFound ∧
        place.path.parent = some directory)
    (present : fs.metadata (directory.join fileName) ≠ .error .notFound)
    (unloadable : load fs (directory.join fileName) = .error failure) :
    discoverFrom fs place.path = .error failure := by
  have failed : discover fs directory = .error failure :=
    (discover_of_present present).trans unloadable
  rcases near with rfl | ⟨missing, parent⟩
  · have own := settled.resolve_right present
    rw [discoverFrom_of_isFile own, failed]
    rfl
  · have without := Filesystem.isFile_eq_false_of_metadata missing
    obtain rfl | ⟨front, name, rfl⟩ := List.eq_nil_or_concat' place
    · rw [Location.parent_path_nil] at parent
      cases parent
    · cases (Location.parent_path_concat front name).symm.trans parent
      rw [discoverFrom_below without, failed]
      rfl

end Config

end CacheManifest
