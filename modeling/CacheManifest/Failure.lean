/-
# Why a manifest cannot be made

Every failure ends the work it occurs in. Most of them carry the path they
concern; the last three wrap a cause of their own, which is told once within
the message and once more by itself.
-/

import CacheManifest.Config.Reading
import CacheManifest.Filesystem.Resolution

namespace CacheManifest

/-- A failure while settings are loaded, files are listed or the manifest is
written. -/
inductive Failure where
  | directoryNotFound (path : Path)
  | notDirectory (path : Path)
  | walk (scanned unlistable : Path) (cause : SystemError)
  | system (path : Path) (cause : SystemError)
  | invalidConfig (path : Path) (cause : Config.PlacedError)
deriving DecidableEq, Repr

namespace Failure

/-- The words for a directory that a walk could not list. -/
def walkMessage (unlistable : Path) (cause : SystemError) : String :=
  unlistable.display ++ ": IO error for operation on " ++ unlistable.display ++ ": " ++
    cause.message

/-- The cause that a failure wraps. -/
def inner? : Failure → Option String
  | directoryNotFound _ => none
  | notDirectory _ => none
  | walk _ unlistable cause => some (walkMessage unlistable cause)
  | system _ cause => some cause.message
  | invalidConfig _ cause => some cause.message

/-- The words for a failure. -/
def message : Failure → String
  | directoryNotFound path => "directory not found: " ++ path.display
  | notDirectory path => "not a directory: " ++ path.display
  | walk scanned unlistable cause =>
    "failed to walk " ++ scanned.display ++ ": " ++ walkMessage unlistable cause
  | system path cause => "I/O error on " ++ path.display ++ ": " ++ cause.message
  | invalidConfig path cause => "invalid config " ++ path.display ++ ": " ++ cause.message

end Failure

end CacheManifest
