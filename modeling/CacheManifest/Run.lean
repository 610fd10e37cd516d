/-
# One run of the program

A run settles the root and the configuration, lets the command line overrule
the latter, and then writes the manifest, shows it, or lists its entries.
Nothing is shown and nothing is written before everything has been collected,
so a run that fails leaves its output empty and the file system as it was.

A configuration named on the command line is the only one looked at. Otherwise
a named root is looked into, and without one the working directory and its
parent.
-/

import CacheManifest.CommandLine.Arguments
import CacheManifest.Generation
import CacheManifest.Trouble

namespace CacheManifest

open CommandLine (Arguments Command)
open Config (Project)

namespace Run

/-- A root as it was named, made absolute and free of links if it exists. -/
def namedRoot (fs : Filesystem) (root : Path) : Path :=
  match fs.canonical root with
  | .ok path => path
  | .error _ => root

/-- The project of a run, before the command line overrules its settings. -/
def discovered (fs : Filesystem) (arguments : Arguments) : Except Trouble Project :=
  let here := fs.currentDirectory
  match arguments.config, arguments.root with
  | some path, root =>
    match Config.load fs path with
    | .error failure => .error (.during (.load path) failure)
    | .ok config =>
      match root with
      | some root => .ok ⟨namedRoot fs root, config⟩
      | none => .ok ⟨Config.projectRoot here config.scriptDirs, config⟩
  | none, some root =>
    match Config.discover fs (namedRoot fs root) with
    | .error failure => .error (.during (.discoverIn (namedRoot fs root)) failure)
    | .ok config => .ok ⟨namedRoot fs root, config⟩
  | none, none =>
    match Config.discoverFrom fs here with
    | .error failure => .error (.during (.discoverNear here) failure)
    | .ok project => .ok project

/-- Settings as the command line overrules them: an output or source directories
replace those of the configuration, exclusions are added to them. -/
def overruled (config : Config) (arguments : Arguments) : Config :=
  { config with
    output := arguments.output.getD config.output
    sourceDirs := if arguments.dirs.isEmpty then config.sourceDirs else arguments.dirs
    excludedExtensions := config.excludedExtensions ++ arguments.excludes
    ignoredDirs := config.ignoredDirs ++ arguments.ignoreDirs }

/-- The project that a run works on. -/
def resolve (fs : Filesystem) (arguments : Arguments) : Except Trouble Project :=
  (discovered fs arguments).map fun project =>
    { project with config := overruled project.config arguments }

/-- A listing as it is shown: with a line end, unless it is empty. -/
def listing (format : ListFormat) (entries : List Entry) : String :=
  let rendered := renderEntries entries format
  if rendered = "" then "" else rendered ++ "\n"

end Run

/-- What a run comes to: its log, what it shows, the file system it leaves, the
file it wrote there if any, and whether it failed. -/
structure Run where
  log : List Log.Event
  output : String
  filesystem : Filesystem
  written : Option Path
  outcome : Except Trouble Unit

namespace Run

/-- A run that failed and so showed nothing, with the file system it leaves. -/
def failed (fs : Filesystem) (log : List Log.Event) (trouble : Trouble) : Run where
  log := log
  output := ""
  filesystem := fs
  written := none
  outcome := .error trouble

/-- Collect the entries of a project and show them. -/
def showing (fs : Filesystem) (project : Project) (display : List Entry → String) : Run :=
  let opening := Log.Event.resolved project.root project.config
  let collected := collect fs project.root project.config
  match collected.outcome with
  | .error failure => failed fs (opening :: collected.log) (.during .collect failure)
  | .ok entries =>
    { log := opening :: collected.log
      output := display entries
      filesystem := fs
      written := none
      outcome := .ok () }

/-- Write the manifest of a project. -/
def writing (fs : Filesystem) (project : Project) (timestamp : String) : Run :=
  let opening := Log.Event.resolved project.root project.config
  let generated := generate fs project.root project.config timestamp
  match generated.outcome with
  | .error failure =>
    failed generated.filesystem (opening :: generated.log)
      (.during (.generate (project.config.outputPath project.root)) failure)
  | .ok summary =>
    { log := opening :: generated.log ++ [.wrote summary.output summary.entries]
      output := ""
      filesystem := generated.filesystem
      written := some summary.output
      outcome := .ok () }

/-- Do what a command asks for with a project. -/
def perform (fs : Filesystem) (project : Project) (timestamp : String) : Command → Run
  | .generate false => writing fs project timestamp
  | .generate true => showing fs project (renderManifest timestamp)
  | .list name =>
    match ListFormat.ofName? name with
    | some format => showing fs project (listing format)
    | none =>
      failed fs [.resolved project.root project.config] (.unknownFormat name)

/-- The run that arguments ask for. -/
def ofArguments (fs : Filesystem) (arguments : Arguments) (timestamp : String) : Run :=
  match resolve fs arguments with
  | .error trouble => failed fs [] trouble
  | .ok project => perform fs project timestamp (arguments.command.getD (.generate false))

/-- The exit code of a run. -/
def exitCode (run : Run) : Nat :=
  match run.outcome with
  | .ok () => 0
  | .error _ => 1

/-- What a run says about itself at a level: its log, and its failure whatever
the level. -/
def diagnostics (run : Run) (level : Log.Level) : String :=
  Log.lines level run.log ++
    match run.outcome with
    | .ok () => ""
    | .error trouble => trouble.report

end Run

end CacheManifest
