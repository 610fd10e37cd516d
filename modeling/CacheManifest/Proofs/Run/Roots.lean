/-
# The root that is found and the root that is named

A run that looks for its project from the working directory comes to the same settings
as one that names the root it would find: both read the configuration of that root, and
the absolute path of a directory is its own canonical form. A configuration file that is
there but cannot be loaded fails the run; the defaults are for missing ones.
-/

import CacheManifest.Run
import CacheManifest.Proofs.Config.Discovery
import CacheManifest.Proofs.Scan.Exactness

namespace CacheManifest

open CommandLine (Arguments)
open Config (Found Project Settled)
open Scan (scriptName sourceName)

namespace Run

variable {fs : Filesystem} {place : Location} {node : Node}

/-- A directory that is named by its own path stays under that name. -/
theorem namedRoot_path (there : fs.top.at? place = some node)
    (inside : node.isDirectory = true) : namedRoot fs place.path = place.path := by
  rw [namedRoot, Filesystem.canonical]
  cases located : fs.locate place.path with
  | error cause => rfl
  | ok location =>
      exact congrArg Location.path (Filesystem.eq_of_locate_path there inside located)

/-- The root that is found from a directory is the path of a directory. -/
theorem exists_root_of_found {project : Project} (there : fs.top.at? place = some node)
    (inside : node.isDirectory = true) (found : Found fs place project) :
    ∃ (root : Location) (start : Node), project.root = root.path ∧
      fs.top.at? root = some start ∧ start.isDirectory = true := by
  rcases found.root with here | above
  · exact ⟨place, node, here, there, inside⟩
  · obtain rfl | ⟨front, name, rfl⟩ := List.eq_nil_or_concat' place
    · cases above
    · rw [Location.parent_path_concat, Option.some.injEq] at above
      obtain ⟨parent, reached, inside⟩ :=
        Node.isDirectory_of_at?_append (List.cons_ne_nil name []) there
      exact ⟨front, parent, above.symm, reached, inside⟩

/-- The project that is found from the working directory. -/
theorem resolve_of_discoverFrom {arguments : Arguments} {project : Project}
    (no_root : arguments.root = none) (no_config : arguments.config = none)
    (found : Config.discoverFrom fs fs.currentDirectory = .ok project) :
    resolve fs arguments = .ok ⟨project.root, overruled project.config arguments⟩ := by
  simp only [resolve, discovered, no_config, no_root, found]
  rfl

/-- The project of a root that is named in its canonical form. -/
theorem resolve_of_root {arguments : Arguments} {root : Path} {config : Config}
    (named : arguments.root = some root) (no_config : arguments.config = none)
    (canonical : namedRoot fs root = root) (settings : Config.discover fs root = .ok config) :
    resolve fs arguments = .ok ⟨root, overruled config arguments⟩ := by
  simp only [resolve, discovered, no_config, named, canonical, settings]
  rfl

/-- A search that succeeds, and the runs that make it or name what it finds. -/
structure Rediscovered (fs : Filesystem) (place : Location) (project : Project) : Prop where
  found : Found fs place project
  searching : ∀ arguments : Arguments, arguments.root = none → arguments.config = none →
    resolve (fs.seenFrom place) arguments =
      .ok ⟨project.root, overruled project.config arguments⟩
  naming : ∀ arguments : Arguments, arguments.root = none → arguments.config = none →
    resolve (fs.seenFrom place) { arguments with root := some project.root } =
      resolve (fs.seenFrom place) arguments

/-- A search that fails, and the runs that make it. -/
structure Undiscovered (fs : Filesystem) (place : Location) (failure : Failure) : Prop where
  searched : Config.discoverFrom fs place.path = .error failure
  searching : ∀ arguments : Arguments, arguments.root = none → arguments.config = none →
    resolve (fs.seenFrom place) arguments = .error (.during (.discoverNear place.path) failure)

theorem rediscovered {project : Project} (there : fs.top.at? place = some node)
    (inside : node.isDirectory = true) (settled : Settled fs place.path)
    (succeeded : Config.discoverFrom fs place.path = .ok project) :
    Rediscovered fs place project := by
  have found := Config.found_of_discoverFrom settled succeeded
  have searching (arguments : Arguments) (no_root : arguments.root = none)
      (no_config : arguments.config = none) : resolve (fs.seenFrom place) arguments =
        .ok ⟨project.root, overruled project.config arguments⟩ :=
    resolve_of_discoverFrom no_root no_config
      ((Config.discoverFrom_seenFrom fs place place).trans succeeded)
  refine ⟨found, searching, fun arguments no_root no_config => ?_⟩
  obtain ⟨root, start, path, reached, directory⟩ := exists_root_of_found there inside found
  have canonical : namedRoot (fs.seenFrom place) project.root = project.root := by
    rw [path]
    exact namedRoot_path reached directory
  have settings : Config.discover (fs.seenFrom place) project.root = .ok project.config := by
    rw [path, Config.discover_seenFrom fs place (Location.isAbsolute_path root), ← path]
    exact found.config
  rw [searching arguments no_root no_config]
  exact resolve_of_root rfl no_config canonical settings

theorem undiscovered {failure : Failure}
    (failed : Config.discoverFrom fs place.path = .error failure) :
    Undiscovered fs place failure := by
  refine ⟨failed, fun arguments no_root no_config => ?_⟩
  have failed_here : Config.discoverFrom (fs.seenFrom place) (fs.seenFrom place).currentDirectory =
      .error failure := (Config.discoverFrom_seenFrom fs place place).trans failed
  simp only [resolve, discovered, no_config, no_root, failed_here]
  rfl

/-- From a directory in which it is clear whether there is a configuration file, whatever
project is found is the one that a run with its root named works on, and a file that is
there but cannot be loaded, in the directory or where it has none in its parent, fails the
search. -/
theorem resolve_rediscovers (there : fs.top.at? place = some node)
    (inside : node.isDirectory = true) (settled : Settled fs place.path) :
    (∀ project, Config.discoverFrom fs place.path = .ok project →
      Rediscovered fs place project) ∧
    ∀ directory failure,
      directory = place.path ∨ fs.metadata (place.path.join Config.fileName) = .error .notFound ∧
        place.path.parent = some directory →
      fs.metadata (directory.join Config.fileName) ≠ .error .notFound →
      Config.load fs (directory.join Config.fileName) = .error failure →
      Undiscovered fs place failure :=
  ⟨fun _ => rediscovered there inside settled, fun _ _ near present unloadable =>
    undiscovered (Config.discoverFrom_of_unloadable settled near present unloadable)⟩

/-- The name of a configuration file. -/
def configName : Name := ⟨Config.fileName.bytes, by decide⟩

/-- The name of a directory of tools. -/
def toolsName : Name := ⟨Utf8.encode "tools", by decide⟩

/-- A project with a configuration file of some text, a script in a source directory, and
a directory of tools. -/
def tooled (text : String) : Filesystem where
  top :=
    .directory .newDirectory [configName, sourceName, toolsName] (by decide) fun name =>
      if name = configName then .file .newFile (Utf8.encode text)
      else if name = sourceName then
        .directory .newDirectory [scriptName] (List.nodup_singleton _) fun _ => .file .newFile []
      else .emptyDirectory
  workingDirectory := []

/-- The text of a configuration by which the directory of tools is a script directory. -/
def toolsText : String := "\x7b\"source_dirs\":[\"src\"],\"script_dirs\":[\"tools\"]\x7d"

/-- The configuration of that text. -/
def toolsConfig : Config := { oneSource with scriptDirs := ["tools"] }

/-- From the directory of tools the root above it is found, or, where its configuration
is a lone brace, the search fails. -/
theorem resolve_rediscovers_tools :
    Rediscovered (tooled toolsText) [toolsName] ⟨.ofString "/", toolsConfig⟩ ∧
      Undiscovered (tooled "\x7b") [toolsName]
        (.invalidConfig (.ofString "/mkappcache.json") ⟨.syntactic .endOfObject, ⟨1, 1⟩⟩) := by
  have there (text : String) : (tooled text).top.at? [toolsName] = some .emptyDirectory := by rfl
  have missing (text : String) : (tooled text).metadata
      ((Location.path [toolsName]).join Config.fileName) = .error .notFound := by rfl
  have present (text : String) : (tooled text).metadata
      (Path.join (.ofString "/") Config.fileName) = .ok (.file .newFile (Utf8.encode text)) := by
    rfl
  have succeeds := (resolve_rediscovers (there toolsText) rfl (Or.inr (missing _))).1
  have fails := (resolve_rediscovers (there "\x7b") rfl (Or.inr (missing _))).2
  refine ⟨succeeds _ (by decide +kernel), fails (.ofString "/") _ ?_ ?_ (by decide +kernel)⟩
  · exact Or.inr ⟨missing _, by decide +kernel⟩
  · rw [present]
    nofun

end Run

end CacheManifest
