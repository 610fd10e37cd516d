/-
# The program as it is called

A call consists of the arguments and of two settings from the environment: the
configuration file and the level of the log. It ends with an exit code, what is
shown on the two outputs, and the file system. A call for help or for the
version is answered without a run; a misused command line is answered with
words on the second output and the code that tells it from a failed run.
-/

import CacheManifest.CommandLine.Reading
import CacheManifest.Run

namespace CacheManifest

namespace Program

open CommandLine (Halt UsageError)

/-- The name and the version of the program. -/
def versionText : String := "mkappcache 0.1.0\n"

/-- What a call for help shows. -/
def helpText : String :=
  "Write a browser application-cache manifest for a project's assets.\n\n" ++
  "Usage: mkappcache [OPTIONS] [COMMAND]\n\n" ++
  "Commands:\n" ++
  "  generate [--stdout]      Write the manifest (the default), or print it\n" ++
  "  list [--format FORMAT]   Print the entries as text, jsonl or json\n" ++
  "  help [COMMAND]           Print this text\n\n" ++
  "Options:\n" ++
  "      --root ROOT          Project root\n" ++
  "      --config FILE        JSON config file [env: MKAPPCACHE_CONFIG]\n" ++
  "      --output FILE        Manifest file, relative to ROOT\n" ++
  "  -d, --dir DIR            Source directory to list, instead of the configured ones\n" ++
  "  -x, --exclude EXT        Extra extension to leave out, with its dot\n" ++
  "      --ignore-dir NAME    Extra directory name to leave out\n" ++
  "  -q, --quiet              Show errors only\n" ++
  "  -v, --verbose            Show what is skipped and collected\n" ++
  "  -h, --help               Print this text\n" ++
  "  -V, --version            Print the version\n"

/-- The words for a misused command line. -/
def usageMessage : UsageError → String
  | .emptyValue => "a value is required"
  | .unknownArgument => "unexpected argument"
  | .unknownCommand => "unrecognized subcommand"
  | .repeated => "an argument cannot be used multiple times"
  | .unwantedValue => "a flag takes no value"
  | .notText => "invalid UTF-8 was detected in an argument"

/-- A call of the program. -/
structure Call where
  arguments : List Bytes
  configSetting : Option Bytes
  logSetting : Option String
deriving DecidableEq, Repr

/-- What a call comes to. -/
structure Exit where
  code : Nat
  output : String
  diagnostics : String
  filesystem : Filesystem
  written : Option Path

/-- The end of a call that leads to no run. -/
def halted (fs : Filesystem) : Halt → Exit
  | .help => ⟨0, helpText, "", fs, none⟩
  | .version => ⟨0, versionText, "", fs, none⟩
  | .misuse error => ⟨2, "", "error: " ++ usageMessage error ++ "\n", fs, none⟩

/-- The end of a run, its log shown at a level. -/
def ended (run : Run) (level : Log.Level) : Exit where
  code := run.exitCode
  output := run.output
  diagnostics := run.diagnostics level
  filesystem := run.filesystem
  written := run.written

/-- What a call comes to in a file system, at a time. -/
def call (fs : Filesystem) (call : Call) (timestamp : String) : Exit :=
  match CommandLine.read call.arguments call.configSetting with
  | .error halt => halted fs halt
  | .ok arguments =>
    ended (Run.ofArguments fs arguments timestamp)
      (Log.Level.ofRun arguments.quiet arguments.verbose call.logSetting)

end Program

end CacheManifest
