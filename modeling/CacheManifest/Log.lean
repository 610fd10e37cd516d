/-
# What a run reports while it works

The events of a run in the order in which they happen, the level each of them
belongs to, and the line it is shown as. Values stand in a line as they are,
except the settings, which are shown with every text in quotes.
-/

import CacheManifest.Config.Basic
import CacheManifest.Text.Quoted

namespace CacheManifest

namespace Log

/-- Something a run reports. -/
inductive Event where
  | resolved (root : Path) (config : Config)
  | ignored (directory : Path)
  | excluded (file : Path)
  | collected (directory : Path) (count : Nat)
  | wrote (output : Path) (entries : Nat)
deriving DecidableEq, Repr

/-- How much is shown. A level shows what it names and all that is graver. -/
inductive Level where
  | off
  | error
  | warn
  | info
  | debug
  | trace
deriving DecidableEq, Repr

/-- Levels from the one that shows nothing to the one that shows all. -/
def Level.rank : Level → Nat
  | off => 0
  | error => 1
  | warn => 2
  | info => 3
  | debug => 4
  | trace => 5

/-- The level of an event. -/
def Event.level : Event → Level
  | .wrote _ _ => .info
  | _ => .debug

/-- The settings, with every text in quotes. -/
def quotedConfig (config : Config) : String :=
  "ManifestConfig \x7b output: " ++ Quoted.path config.output ++
    ", source_dirs: " ++ Quoted.list (config.sourceDirs.map Quoted.path) ++
    ", excluded_extensions: " ++ Quoted.list (config.excludedExtensions.map Quoted.text) ++
    ", ignored_dirs: " ++ Quoted.list (config.ignoredDirs.map Quoted.text) ++
    ", script_dirs: " ++ Quoted.list (config.scriptDirs.map Quoted.text) ++ " \x7d"

/-- What an event says. -/
def Event.text : Event → String
  | .resolved root config =>
    "resolved configuration root=" ++ root.display ++ " config=" ++ quotedConfig config
  | .ignored directory => "skipping ignored directory path=" ++ directory.display
  | .excluded file => "excluded by extension path=" ++ file.display
  | .collected directory count =>
    "collected entries dir=" ++ directory.display ++ " count=" ++ toString count
  | .wrote output entries =>
    "wrote manifest output=" ++ output.display ++ " entries=" ++ toString entries

/-- A level as a line begins with it, in five columns. -/
def Level.tag : Level → String
  | off => "  OFF"
  | error => "ERROR"
  | warn => " WARN"
  | info => " INFO"
  | debug => "DEBUG"
  | trace => "TRACE"

/-- The line of an event, with its line end. -/
def Event.line (event : Event) : String := event.level.tag ++ " " ++ event.text ++ "\n"

/-- Whether a level shows an event. -/
def Level.shows (level : Level) (event : Event) : Bool := event.level.rank ≤ level.rank

/-- The lines that a level shows. -/
def lines (level : Level) (events : List Event) : String :=
  String.join ((events.filter level.shows).map Event.line)

/-- The level that a setting names, in any case. The empty setting shows errors
only. -/
def Level.ofName? (name : String) : Option Level :=
  let lower := name.map Char.toLower
  if lower = "" ∨ lower = "error" ∨ lower = "1" then some error
  else if lower = "off" ∨ lower = "0" then some off
  else if lower = "warn" ∨ lower = "2" then some warn
  else if lower = "info" ∨ lower = "3" then some info
  else if lower = "debug" ∨ lower = "4" then some debug
  else if lower = "trace" ∨ lower = "5" then some trace
  else none

/-- The level of a run: that of the setting if there is one, and otherwise that
of the flags, where quiet wins. A setting that is no level selects other
components than this one and so shows nothing. -/
def Level.ofRun (quiet verbose : Bool) (setting : Option String) : Level :=
  match setting with
  | some name => (Level.ofName? name).getD off
  | none => if quiet then error else if verbose then debug else info

end Log

end CacheManifest
