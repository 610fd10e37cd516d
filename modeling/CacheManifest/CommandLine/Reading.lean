/-
# Reading a command line

Arguments are read from left to right, first those of the program, then, after
a command word, those of the command. A parameter takes its value from the same
argument or from the next one, which must not begin with a dash; a lone dash is
a value.

A value in an argument of its own is settled late: its level keeps it aside
until the next known switch of that level or the end of the line, and only then
are repetition and content judged. So an unknown argument is reported before
the fault of the value in front of it, and a fault after the command word before
one in front of the word.

A parameter may be given once on each level; the command's level wins. Those
that collect values may be repeated, and a command that has any replaces those
in front of it. The environment may name a configuration file, which counts
where the command line names none but has to be a possible path on every level
that names none.
-/

import CacheManifest.CommandLine.Arguments

namespace CacheManifest

namespace CommandLine

/-- What has been given on one level. -/
structure Level where
  root : Option Path
  config : Option Path
  output : Option Path
  dirs : List Path
  excludes : List String
  ignoreDirs : List String
  format : Option String
  quiet : Bool
  verbose : Bool
  stdout : Bool
deriving DecidableEq, Repr

/-- A level on which nothing has been given. -/
def Level.empty : Level where
  root := none
  config := none
  output := none
  dirs := []
  excludes := []
  ignoreDirs := []
  format := none
  quiet := false
  verbose := false
  stdout := false

/-- A misuse as the reason to stop. -/
def refuse {α : Type} (error : UsageError) : Except Halt α := .error (.misuse error)

/-- A value that has to be a path. Only the empty one is none. -/
def pathValue (value : Bytes) : Except Halt Path :=
  if value = [] then refuse .emptyValue else .ok ⟨value⟩

/-- A value that has to be text. -/
def textValue (value : Bytes) : Except Halt String :=
  match Utf8.decode? value with
  | some text => .ok text
  | none => refuse .notText

/-- A value for what may be given once. That it was given before is found before
the value is judged. -/
def onlyOnce {α : Type} (given : Option α) (value : Except Halt α) : Except Halt (Option α) :=
  match given with
  | some _ => refuse .repeated
  | none => value.map some

namespace Level

/-- Give a parameter a value. -/
def give (level : Level) (parameter : Parameter) (value : Bytes) : Except Halt Level :=
  match parameter with
  | .root =>
    (onlyOnce level.root (pathValue value)).map fun root => { level with root := root }
  | .config =>
    (onlyOnce level.config (pathValue value)).map fun config => { level with config := config }
  | .output =>
    (onlyOnce level.output (pathValue value)).map fun output => { level with output := output }
  | .dir => (pathValue value).map fun dir => { level with dirs := level.dirs ++ [dir] }
  | .exclude =>
    (textValue value).map fun text => { level with excludes := level.excludes ++ [text] }
  | .ignoreDir =>
    (textValue value).map fun text => { level with ignoreDirs := level.ignoreDirs ++ [text] }
  | .format =>
    (onlyOnce level.format (textValue value)).map fun format => { level with format := format }

/-- Raise a flag. -/
def raise (level : Level) : Flag → Except Halt Level
  | .quiet => if level.quiet then refuse .repeated else .ok { level with quiet := true }
  | .verbose => if level.verbose then refuse .repeated else .ok { level with verbose := true }
  | .stdout => if level.stdout then refuse .repeated else .ok { level with stdout := true }
  | .help => .error .help
  | .version => .error .version

end Level

/-- A parameter whose value has not been settled: it is still to come, or it is
there and has not been judged. -/
structure Aside where
  parameter : Parameter
  value : Option Bytes
deriving DecidableEq, Repr

/-- A level under way. -/
structure Progress where
  level : Level
  aside : Option Aside
deriving DecidableEq, Repr

namespace Progress

/-- The start of a level. -/
def start : Progress := ⟨.empty, none⟩

/-- Settle what has been kept aside. -/
def settle (progress : Progress) : Except Halt Level :=
  match progress.aside with
  | none => .ok progress.level
  | some ⟨_, none⟩ => refuse .emptyValue
  | some ⟨parameter, some value⟩ => progress.level.give parameter value

/-- A known flag. -/
def raise (progress : Progress) (flag : Flag) : Except Halt Progress := do
  let level ← progress.settle
  let level ← level.raise flag
  return ⟨level, none⟩

/-- A parameter with its value in the same argument. -/
def give (progress : Progress) (parameter : Parameter) (value : Bytes) :
    Except Halt Progress := do
  let level ← progress.settle
  let level ← level.give parameter value
  return ⟨level, none⟩

/-- A parameter whose value is to come. -/
def await (progress : Progress) (parameter : Parameter) : Except Halt Progress := do
  let level ← progress.settle
  return ⟨level, some ⟨parameter, none⟩⟩

/-- An argument as the value of the parameter that waits for one. -/
def take? (progress : Progress) (argument : Bytes) : Option Progress :=
  match progress.aside with
  | some ⟨parameter, none⟩ =>
    some { progress with aside := some ⟨parameter, some argument⟩ }
  | _ => none

end Progress

/-- The byte that switches begin with. -/
def dash : UInt8 := 0x2D

/-- The byte between a switch and its value. -/
def equals : UInt8 := 0x3D

/-- What an argument is by its dashes. -/
inductive Shape where
  | separator
  | long (name : Bytes)
  | letters (group : Bytes)
  | word
deriving DecidableEq, Repr

/-- The shape of an argument. A lone dash is a word. -/
def Shape.ofArgument : Bytes → Shape
  | first :: second :: rest =>
    if first ≠ dash then .word
    else if second ≠ dash then .letters (second :: rest)
    else if rest = [] then .separator
    else .long rest
  | _ => .word

/-- Read a long switch, with its value if an equals sign is in it. -/
def readLong (scope : Scope) (progress : Progress) (text : Bytes) : Except Halt Progress :=
  match scope.long? (text.takeWhile (· ≠ equals)), text.dropWhile (· ≠ equals) with
  | none, _ => refuse .unknownArgument
  | some (.flag flag), [] => progress.raise flag
  | some (.flag _), _ :: _ => refuse .unwantedValue
  | some (.parameter parameter), [] => progress.await parameter
  | some (.parameter parameter), _ :: value => progress.give parameter value

/-- Read a group of letters. The first parameter in it takes what follows as
its value, an equals sign in front being dropped. -/
def readLetters (scope : Scope) (progress : Progress) : Bytes → Except Halt Progress
  | [] => .ok progress
  | letter :: rest =>
    match scope.letter? letter with
    | none => refuse .unknownArgument
    | some (.flag flag) =>
      match progress.raise flag with
      | .error halt => .error halt
      | .ok next => readLetters scope next rest
    | some (.parameter parameter) =>
      match rest with
      | [] => progress.await parameter
      | first :: value =>
        progress.give parameter (if first = equals then value else first :: value)

/-- The refusal of a word that is neither a value nor a command. -/
def strayWord : Scope → UsageError
  | .program => .unknownCommand
  | _ => .unknownArgument

/-- The refusal of an argument after the separator. A command word there is told
apart, as it would be known without the separator. -/
def afterSeparator (scope : Scope) (argument : Bytes) : UsageError :=
  match CommandWord.ofBytes? argument with
  | some _ => .unknownArgument
  | none => strayWord scope

/-- The command word that an argument is in a scope. -/
def Scope.command? : Scope → Bytes → Option CommandWord
  | .program, argument => CommandWord.ofBytes? argument
  | _, _ => none

/-- A level read to its end, and the command word that ended it with what
follows the word. -/
structure Part where
  progress : Progress
  command : Option (CommandWord × List Bytes)
deriving DecidableEq, Repr

/-- Read the arguments of a level. -/
def readLevel (scope : Scope) (progress : Progress) : List Bytes → Except Halt Part
  | [] => .ok ⟨progress, none⟩
  | argument :: rest =>
    match Shape.ofArgument argument with
    | .separator =>
      match rest with
      | [] => .ok ⟨progress, none⟩
      | stray :: _ => refuse (afterSeparator scope stray)
    | .long text =>
      match readLong scope progress text with
      | .error halt => .error halt
      | .ok next => readLevel scope next rest
    | .letters group =>
      match readLetters scope progress group with
      | .error halt => .error halt
      | .ok next => readLevel scope next rest
    | .word =>
      match progress.take? argument with
      | some next => readLevel scope next rest
      | none =>
        match scope.command? argument with
        | some word => .ok ⟨progress, some (word, rest)⟩
        | none => refuse (strayWord scope)

/-- What a request for help comes to. It names one command at most. -/
def readHelp : List Bytes → Halt
  | [] => .help
  | [argument] =>
    match CommandWord.ofBytes? argument with
    | some _ => .help
    | none => .misuse .unknownCommand
  | _ :: _ :: _ => .misuse .unknownCommand

/-- Settle a level. A configuration file from the environment has to be a
possible path where the level names none. -/
def finish (progress : Progress) (setting : Option Bytes) : Except Halt Level :=
  match progress.settle with
  | .error halt => .error halt
  | .ok level =>
    match level.config, setting with
    | none, some value => (pathValue value).map fun _ => level
    | _, _ => .ok level

/-- The values of a repeatable parameter: those of the command if it has any. -/
def prevailing {α : Type} (inner outer : List α) : List α :=
  if inner.isEmpty then outer else inner

/-- What two levels and the environment ask for together. -/
def combine (outer inner : Level) (setting : Option Bytes) (command : Option Command) :
    Arguments where
  root := inner.root.or outer.root
  config := (inner.config.or outer.config).or (setting.map Path.mk)
  output := inner.output.or outer.output
  dirs := prevailing inner.dirs outer.dirs
  excludes := prevailing inner.excludes outer.excludes
  ignoreDirs := prevailing inner.ignoreDirs outer.ignoreDirs
  quiet := inner.quiet || outer.quiet
  verbose := inner.verbose || outer.verbose
  command := command

/-- Read the arguments after a command word, the program's being under way. -/
def readCommand (outer : Progress) (scope : Scope) (command : Level → Command)
    (rest : List Bytes) (setting : Option Bytes) : Except Halt Arguments :=
  match readLevel scope .start rest with
  | .error halt => .error halt
  | .ok part =>
    match finish part.progress setting with
    | .error halt => .error halt
    | .ok inner =>
      match finish outer setting with
      | .error halt => .error halt
      | .ok outer => .ok (combine outer inner setting (some (command inner)))

/-- Read a command line. `setting` is the configuration file that the
environment names. -/
def read (arguments : List Bytes) (setting : Option Bytes) : Except Halt Arguments :=
  match readLevel .program .start arguments with
  | .error halt => .error halt
  | .ok ⟨outer, none⟩ =>
    match finish outer setting with
    | .error halt => .error halt
    | .ok level => .ok (combine level .empty setting none)
  | .ok ⟨_, some (.help, rest)⟩ => .error (readHelp rest)
  | .ok ⟨outer, some (.generate, rest)⟩ =>
    readCommand outer .generate (fun level => .generate level.stdout) rest setting
  | .ok ⟨outer, some (.list, rest)⟩ =>
    readCommand outer .list (fun level => .list (level.format.getD "text")) rest setting

end CommandLine

end CacheManifest
