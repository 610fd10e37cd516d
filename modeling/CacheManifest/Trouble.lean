/-
# How a failed run is told

A failure is told together with the task it ended. The chain of causes starts
with the task and ends with the innermost cause; a format that is not known
stands alone. The message of a chain is one line of it after the other, with
colons between; the report gives each cause a paragraph, numbered if there are
several, with the further lines of a cause set in under its first.
-/

import CacheManifest.Failure

namespace CacheManifest

/-- What a run was about when it failed. -/
inductive Task where
  | load (path : Path)
  | discoverIn (root : Path)
  | discoverNear (directory : Path)
  | generate (output : Path)
  | collect
deriving DecidableEq, Repr

/-- The words for a task that failed. -/
def Task.message : Task → String
  | load path => "Failed to load config: " ++ path.display
  | discoverIn root => "Failed to load config from " ++ root.display
  | discoverNear directory => "Failed to load config near " ++ directory.display
  | generate output => "Failed to generate manifest " ++ output.display
  | collect => "Failed to collect manifest entries"

/-- Why a run failed. -/
inductive Trouble where
  | during (task : Task) (failure : Failure)
  | unknownFormat (name : String)
deriving DecidableEq, Repr

namespace Trouble

/-- The words of the outermost cause. -/
def headline : Trouble → String
  | during task _ => task.message
  | unknownFormat name => "Unknown format: " ++ name

/-- The words of the causes below the outermost, from the outside in. -/
def causes : Trouble → List String
  | during _ failure => failure.message :: failure.inner?.toList
  | unknownFormat _ => []

/-- All causes in one line. -/
def message (trouble : Trouble) : String :=
  ": ".intercalate (trouble.headline :: trouble.causes)

/-- A text with every line after the first set in by a margin. -/
def hanging (margin : List Char) (text : String) : String :=
  String.ofList (text.toList.flatMap fun c => if c = '\n' then c :: margin else [c])

/-- A cause that stands alone. -/
def onlyCause (cause : String) : String := "    " ++ hanging (List.replicate 4 ' ') cause

/-- A cause with its number, in five columns. -/
def numberedCause (cause : String) (number : Nat) : String :=
  let digits := toString number
  String.ofList (List.replicate (5 - digits.length) ' ') ++ digits ++ ": " ++
    hanging (List.replicate 7 ' ') cause

/-- The paragraphs of causes, each with its line end. -/
def causeLines : List String → List String
  | [] => []
  | [cause] => [onlyCause cause ++ "\n"]
  | causes => (causes.mapIdx fun number cause => numberedCause cause number ++ "\n")

/-- The report of a failed run. -/
def report (trouble : Trouble) : String :=
  "Error: " ++ trouble.headline ++ "\n" ++
    if trouble.causes.isEmpty then ""
    else "\nCaused by:\n" ++ String.join (causeLines trouble.causes)

end Trouble

end CacheManifest
