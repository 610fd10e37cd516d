/-
# Runs from different directories

Once the root of a project is settled and absolute, a run reads and writes by absolute
paths, so it comes to the same from every directory. A run from a script directory
settles on the root that a run from the root itself does, whether the configuration is
looked for or named.
-/

import CacheManifest.Program
import CacheManifest.Proofs.Run.Roots
import CacheManifest.Proofs.Scan.Canonical

namespace CacheManifest

open CommandLine (Arguments)
open Config (Project Settled)

variable {fs : Filesystem} {root : Path} {front : Location} {name : Name}

/-! ## Work on a root -/

theorem scan_seenFrom (fs : Filesystem) (standpoint : Location) (absolute : root.isAbsolute = true)
    (directory : Path) (config : Config) :
    scan (fs.seenFrom standpoint) root directory config = scan fs root directory config := by
  have same : fs.top.Reordered (fs.seenFrom standpoint).top := .refl fs.top
  exact Scan.scan_of_reordered same (Or.inl absolute) directory (.refl config)

theorem collect_seenFrom (fs : Filesystem) (standpoint : Location)
    (absolute : root.isAbsolute = true) (config : Config) :
    collect (fs.seenFrom standpoint) root config = collect fs root config := by
  rw [collect, collect]
  induction config.sourceDirs with
  | nil => rfl
  | cons directory others ih =>
      rw [collectFrom, collectFrom, scan_seenFrom fs standpoint absolute, ih]

theorem generate_seenFrom (fs : Filesystem) (standpoint : Location)
    (absolute : root.isAbsolute = true) (config : Config) (timestamp : String) :
    generate (fs.seenFrom standpoint) root config timestamp =
      { generate fs root config timestamp with
        filesystem := (generate fs root config timestamp).filesystem.seenFrom standpoint } := by
  have opening : (fs.seenFrom standpoint).openEmpty (config.outputPath root) =
      (fs.openEmpty (config.outputPath root)).map
        fun opened => (opened.1.seenFrom standpoint, opened.2) :=
    Filesystem.openEmpty_seenFrom (Path.isAbsolute_join absolute config.output)
  simp only [generate, collect_seenFrom fs standpoint absolute, opening]
  cases (collect fs root config).outcome with
  | error failure => rfl
  | ok entries =>
      cases fs.openEmpty (config.outputPath root) with
      | error cause => rfl
      | ok opened =>
          dsimp only [Except.map]
          rw [Filesystem.append_seenFrom]

namespace Run

/-- A run as it comes out of a process that stands in another directory. -/
def seenFrom (run : Run) (standpoint : Location) : Run :=
  { run with filesystem := run.filesystem.seenFrom standpoint }

theorem perform_seenFrom (fs : Filesystem) (standpoint : Location) {project : Project}
    (absolute : project.root.isAbsolute = true) (timestamp : String)
    (command : CommandLine.Command) :
    perform (fs.seenFrom standpoint) project timestamp command =
      (perform fs project timestamp command).seenFrom standpoint := by
  have showing_seenFrom (display : List Entry → String) :
      showing (fs.seenFrom standpoint) project display =
        (showing fs project display).seenFrom standpoint := by
    simp only [showing, collect_seenFrom fs standpoint absolute]
    cases (collect fs project.root project.config).outcome <;> rfl
  have writing_seenFrom : writing (fs.seenFrom standpoint) project timestamp =
      (writing fs project timestamp).seenFrom standpoint := by
    simp only [writing, generate_seenFrom fs standpoint absolute]
    cases (generate fs project.root project.config timestamp).outcome <;> rfl
  cases command with
  | generate preview =>
      cases preview with
      | false => exact writing_seenFrom
      | true => exact showing_seenFrom _
  | list format =>
      rw [perform, perform]
      cases ListFormat.ofName? format with
      | none => rfl
      | some format => exact showing_seenFrom _

/-- Runs that resolve to the same project come to the same, but for where they stand. -/
theorem ofArguments_seenFrom {arguments : Arguments} {project : Project} {here there : Location}
    (absolute : project.root.isAbsolute = true)
    (resolved_here : resolve (fs.seenFrom here) arguments = .ok project)
    (resolved_there : resolve (fs.seenFrom there) arguments = .ok project) (timestamp : String) :
    ofArguments (fs.seenFrom here) arguments timestamp =
      (ofArguments (fs.seenFrom there) arguments timestamp).seenFrom here := by
  rw [ofArguments, ofArguments, resolved_here, resolved_there]
  dsimp only
  rw [perform_seenFrom fs here absolute, perform_seenFrom fs there absolute]
  rfl

/-! ## Script directories -/

/-- A directory that is a script directory of the one above it, by a configuration: the one
that is found from above, where the directory has none of its own, or one that is named by
an absolute path. -/
inductive ScriptsOf (fs : Filesystem) (front : Location) (name : Name) (arguments : Arguments) :
    Config → Prop
  | found {config : Config} (unnamed : arguments.config = none)
      (settled : Settled fs front.path)
      (without : fs.isFile ((front ++ [name] : Location).path.join Config.fileName) = false)
      (found : Config.discoverFrom fs front.path = .ok ⟨front.path, config⟩)
      (scripts : ∃ text, Utf8.decode? name.bytes = some text ∧ text ∈ config.scriptDirs) :
      ScriptsOf fs front name arguments config
  | named {config : Config} {file : Path} (named : arguments.config = some file)
      (absolute : file.isAbsolute = true) (loaded : Config.load fs file = .ok config)
      (rooted : (resolve (fs.seenFrom front) arguments).map Project.root = .ok front.path)
      (scripts : ∃ text, Utf8.decode? name.bytes = some text ∧ text ∈ config.scriptDirs) :
      ScriptsOf fs front name arguments config

theorem discoverFrom_scripts {config : Config} (settled : Settled fs front.path)
    (without : fs.isFile ((front ++ [name] : Location).path.join Config.fileName) = false)
    (found : Config.discoverFrom fs front.path = .ok ⟨front.path, config⟩)
    (scripts : ∃ text, Utf8.decode? name.bytes = some text ∧ text ∈ config.scriptDirs) :
    Config.discoverFrom fs (front ++ [name] : Location).path = .ok ⟨front.path, config⟩ := by
  have settings : Config.discover fs front.path = .ok config :=
    (Config.found_of_discoverFrom settled found).config
  rw [Config.discoverFrom_below without, settings]
  dsimp only [Except.map]
  rw [if_pos (Config.isScriptDir_path_concat.mpr scripts)]

theorem resolve_of_load (fs : Filesystem) (standpoint : Location) {arguments : Arguments}
    {file : Path} {config : Config} (no_root : arguments.root = none)
    (named : arguments.config = some file) (absolute : file.isAbsolute = true)
    (loaded : Config.load fs file = .ok config) :
    resolve (fs.seenFrom standpoint) arguments =
      .ok ⟨Config.projectRoot standpoint.path config.scriptDirs, overruled config arguments⟩ := by
  simp only [resolve, discovered, named, no_root, Config.load_seenFrom fs standpoint absolute,
    loaded]
  rfl

/-- From both directories the root is the one above. -/
theorem resolve_scripts {arguments : Arguments} {config : Config}
    (no_root : arguments.root = none) (scripts : ScriptsOf fs front name arguments config) :
    resolve (fs.seenFrom (front ++ [name])) arguments =
        .ok ⟨front.path, overruled config arguments⟩ ∧
      resolve (fs.seenFrom front) arguments = .ok ⟨front.path, overruled config arguments⟩ := by
  cases scripts with
  | found unnamed settled without found scripts =>
      have below := discoverFrom_scripts settled without found scripts
      constructor
      · exact resolve_of_discoverFrom no_root unnamed
          ((Config.discoverFrom_seenFrom fs _ _).trans below)
      · exact resolve_of_discoverFrom no_root unnamed
          ((Config.discoverFrom_seenFrom fs _ _).trans found)
  | named named absolute loaded rooted scripts =>
      have below := Config.projectRoot_path_concat front name config.scriptDirs
      rw [if_pos (Config.isScriptDir_path_concat.mpr scripts)] at below
      have from_root := resolve_of_load fs front no_root named absolute loaded
      have above : Config.projectRoot front.path config.scriptDirs = front.path := by
        rw [from_root] at rooted
        exact Except.ok.inj rooted
      rw [from_root, resolve_of_load fs _ no_root named absolute loaded, below, above]
      exact ⟨rfl, rfl⟩

/-- What is the same about two calls: all that they show and say, and the tree that they
leave. -/
structure Alike (first second : Program.Exit) : Prop where
  code : first.code = second.code
  output : first.output = second.output
  diagnostics : first.diagnostics = second.diagnostics
  top : first.filesystem.top = second.filesystem.top
  written : first.written = second.written

/-- A call from a script directory finds the root and the settings that one from the root
finds, and comes to the same. -/
theorem call_from_scripts {arguments : Arguments} {config : Config}
    (no_root : arguments.root = none) (scripts : ScriptsOf fs front name arguments config) :
    (arguments.config = none →
      Config.discoverFrom fs (front ++ [name] : Location).path = .ok ⟨front.path, config⟩) ∧
    resolve (fs.seenFrom (front ++ [name])) arguments =
      .ok ⟨front.path, overruled config arguments⟩ ∧
    resolve (fs.seenFrom front) arguments = .ok ⟨front.path, overruled config arguments⟩ ∧
    ∀ (call : Program.Call) (timestamp : String),
      CommandLine.read call.arguments call.configSetting = .ok arguments →
        Alike (Program.call (fs.seenFrom (front ++ [name])) call timestamp)
          (Program.call (fs.seenFrom front) call timestamp) := by
  obtain ⟨resolved_here, resolved_there⟩ := resolve_scripts no_root scripts
  refine ⟨fun unnamed => ?_, resolved_here, resolved_there, fun call timestamp read => ?_⟩
  · cases scripts with
    | found _ settled without found scripts =>
        exact discoverFrom_scripts settled without found scripts
    | named named => cases unnamed.symm.trans named
  · have same := ofArguments_seenFrom (Location.isAbsolute_path front) resolved_here
      resolved_there timestamp
    rw [Program.call, Program.call, read]
    dsimp only
    rw [same]
    exact ⟨rfl, rfl, rfl, rfl, rfl⟩

/-- The arguments of a call for a listing, with or without a configuration file. -/
def listArguments (config : Option Path) : Arguments where
  root := none
  config := config
  output := none
  dirs := []
  excludes := []
  ignoreDirs := []
  quiet := false
  verbose := false
  command := some (.list "text")

/-- From the directory of tools the script is listed as from above, whether the
configuration is found there or named. -/
theorem call_from_scripts_tools :
    let searching : Program.Call := ⟨[Utf8.encode "list"], none, none⟩
    let naming : Program.Call := ⟨[Utf8.encode "list"], some (Utf8.encode "/mkappcache.json"), none⟩
    let call (standpoint : Location) (call : Program.Call) : Program.Exit :=
      Program.call ((tooled toolsText).seenFrom standpoint) call "t"
    (call [] searching).output = "/src/a.js\n" ∧ (call [] naming).output = "/src/a.js\n" ∧
      Alike (call [toolsName] searching) (call [] searching) ∧
      Alike (call [toolsName] naming) (call [] naming) := by
  have scripts : ∃ text, Utf8.decode? toolsName.bytes = some text ∧ text ∈ toolsConfig.scriptDirs :=
    ⟨"tools", by decide +kernel, by decide⟩
  have settled : Settled (tooled toolsText) (Location.path []) := Or.inl (by rfl)
  have found : ScriptsOf (tooled toolsText) [] toolsName (listArguments none) toolsConfig :=
    .found rfl settled (by rfl) (by decide +kernel) scripts
  have named : ScriptsOf (tooled toolsText) [] toolsName
      (listArguments (some (.ofString "/mkappcache.json"))) toolsConfig :=
    .named rfl (by decide) (by decide +kernel) (by decide +kernel) scripts
  obtain ⟨-, -, -, searching⟩ := call_from_scripts rfl found
  obtain ⟨-, -, -, naming⟩ := call_from_scripts rfl named
  exact ⟨by decide +kernel, by decide +kernel, searching _ "t" (by decide +kernel),
    naming _ "t" (by decide +kernel)⟩

end Run

end CacheManifest
