/-
# What a command line asks for

The vocabulary of the command line: its commands, the parameters that take a
value, the flags that take none, and where each of them may stand. Every level
has the switches that all levels share; the commands add one of their own, and
only the program as a whole has a version.
-/

import CacheManifest.Path

namespace CacheManifest

namespace CommandLine

/-- What is to be done. -/
inductive Command where
  | generate (preview : Bool)
  | list (format : String)
deriving DecidableEq, Repr

/-- What a command line asks for. Without a command a manifest is generated. -/
structure Arguments where
  root : Option Path
  config : Option Path
  output : Option Path
  dirs : List Path
  excludes : List String
  ignoreDirs : List String
  quiet : Bool
  verbose : Bool
  command : Option Command
deriving DecidableEq, Repr

/-- How a command line is misused. -/
inductive UsageError where
  | emptyValue
  | unknownArgument
  | unknownCommand
  | repeated
  | unwantedValue
  | notText
deriving DecidableEq, Repr

/-- Why a command line leads to no run: it asks for help or for the version, or
it is misused. -/
inductive Halt where
  | help
  | version
  | misuse (error : UsageError)
deriving DecidableEq, Repr

/-- A switch that takes a value. -/
inductive Parameter where
  | root
  | config
  | output
  | dir
  | exclude
  | ignoreDir
  | format
deriving DecidableEq, Repr

/-- A switch that takes none. -/
inductive Flag where
  | quiet
  | verbose
  | stdout
  | help
  | version
deriving DecidableEq, Repr

/-- What starts with a dash. -/
inductive Switch where
  | flag (flag : Flag)
  | parameter (parameter : Parameter)
deriving DecidableEq, Repr

namespace Parameter

/-- The long name of a parameter, without its dashes. -/
def long : Parameter → String
  | root => "root"
  | config => "config"
  | output => "output"
  | dir => "dir"
  | exclude => "exclude"
  | ignoreDir => "ignore-dir"
  | format => "format"

/-- The letter of a parameter. -/
def letter? : Parameter → Option Char
  | dir => some 'd'
  | exclude => some 'x'
  | _ => none

end Parameter

namespace Flag

/-- The long name of a flag, without its dashes. -/
def long : Flag → String
  | quiet => "quiet"
  | verbose => "verbose"
  | stdout => "stdout"
  | help => "help"
  | version => "version"

/-- The letter of a flag. -/
def letter? : Flag → Option Char
  | quiet => some 'q'
  | verbose => some 'v'
  | stdout => none
  | help => some 'h'
  | version => some 'V'

end Flag

namespace Switch

/-- The long name of a switch, without its dashes. -/
def long : Switch → String
  | .flag which => which.long
  | .parameter which => which.long

/-- The letter of a switch. -/
def letter? : Switch → Option Char
  | .flag which => which.letter?
  | .parameter which => which.letter?

end Switch

/-- Where an argument stands: before any command, or after one. -/
inductive Scope where
  | program
  | generate
  | list
deriving DecidableEq, Repr

namespace Scope

/-- The switches that are known everywhere. -/
def shared : List Switch :=
  [.parameter .root, .parameter .config, .parameter .output, .parameter .dir,
    .parameter .exclude, .parameter .ignoreDir, .flag .quiet, .flag .verbose, .flag .help]

/-- The switches that are known in a scope. -/
def switches : Scope → List Switch
  | program => .flag .version :: shared
  | generate => .flag .stdout :: shared
  | list => .parameter .format :: shared

/-- The switch of a long name. -/
def long? (scope : Scope) (name : Bytes) : Option Switch :=
  scope.switches.find? fun switch => Utf8.encode switch.long == name

/-- The switch of a letter. -/
def letter? (scope : Scope) (letter : UInt8) : Option Switch :=
  scope.switches.find? fun switch => (switch.letter?.map Utf8.encodeChar) == some [letter]

end Scope

/-- A word that opens a level of its own, or asks for help on one. -/
inductive CommandWord where
  | generate
  | list
  | help
deriving DecidableEq, Repr

namespace CommandWord

/-- The spelling of a command word. -/
def name : CommandWord → String
  | generate => "generate"
  | list => "list"
  | help => "help"

/-- The command word that an argument spells. Abbreviations are none. -/
def ofBytes? (argument : Bytes) : Option CommandWord :=
  [generate, list, help].find? fun word => Utf8.encode word.name == argument

end CommandWord

end CommandLine

end CacheManifest
