/-
# Listing the files below a source directory

A walk goes through the real directories below a source directory, depth first
and with the entries of each directory in byte order, and leaves a trace: the
files to list, the files and directories left out, and the directories that
could not be listed. Links are never walked into. A link is listed like a file
unless it leads to a directory; pipes are passed over.

A scan reads the trace up to the first directory that could not be listed. If
there is none its result is one entry for each listed file. The source
directory itself may be a link, and its own name is not tested.
-/

import CacheManifest.Config.Discovery
import CacheManifest.Entry
import CacheManifest.Log

namespace CacheManifest

namespace Scan

/-- What a walk meets, named by its place below the source directory. -/
inductive Visit where
  | listed (place : Location)
  | excluded (place : Location)
  | ignored (place : Location)
  | unlistable (place : Location) (cause : SystemError)
deriving DecidableEq

/-- What a walk goes by: the path it starts from, the settings, and whether a
path leads to a directory. -/
structure Walk where
  origin : Path
  config : Config
  leadsToDirectory : Path → Bool

/-- A place as it is spelled from a path on. -/
def spelled (origin : Path) (place : Location) : Path :=
  place.foldl (fun path name => path.join name.path) origin

/-- Why a directory cannot be listed, if so: its path is too long, or reading it
or reaching it is not permitted. -/
def Walk.obstacle (walk : Walk) (place : Location) (reachable : Bool)
    (permissions : Permissions) : Option SystemError :=
  if Filesystem.pathLimit ≤ (spelled walk.origin place).bytes.length then some .nameTooLong
  else if reachable && permissions.read then none
  else some .permissionDenied

/-- The visit to a file or a link that is listed like one. -/
def Walk.fileVisit (walk : Walk) (place : Location) (name : Name) : Visit :=
  if walk.config.excludes name.text then .excluded place else .listed place

/-- The trace of a walk below a node, which stands at a place and may or may not
be reached. -/
def Walk.visits (walk : Walk) : Node → Location → Bool → List Visit
  | .directory permissions names _ child, place, reachable =>
    match walk.obstacle place reachable permissions with
    | some cause => [.unlistable place cause]
    | none =>
      (Name.sorted names).flatMap fun name =>
        let next := place ++ [name]
        match child name with
        | .file _ _ => [walk.fileVisit next name]
        | .link _ =>
          if walk.leadsToDirectory (spelled walk.origin next) then []
          else [walk.fileVisit next name]
        | .pipe => []
        | .directory _ _ _ _ =>
          if walk.config.ignores name.text then [.ignored next]
          else walk.visits (child name) next permissions.enter
  | _, _, _ => []

/-- The trace before the first directory that could not be listed. -/
def before : List Visit → List Visit
  | [] => []
  | .unlistable _ _ :: _ => []
  | visit :: others => visit :: before others

/-- The first directory that could not be listed. -/
def obstructed? : List Visit → Option (Location × SystemError)
  | [] => none
  | .unlistable place cause :: _ => some (place, cause)
  | _ :: others => obstructed? others

/-- The place of a listed file. -/
def Visit.listed? : Visit → Option Location
  | .listed place => some place
  | _ => none

/-- What the log says about a visit. -/
def Visit.event? (origin : Path) : Visit → Option Log.Event
  | .listed _ => none
  | .excluded place => some (.excluded (spelled origin place))
  | .ignored place => some (.ignored (spelled origin place))
  | .unlistable _ _ => none

/-- The entry of a listed file: its path is taken relative to the path the walk
started from, and a file that is not below that path has none. -/
def entryOf? (origin directory : Path) (place : Location) : Option Entry :=
  ((spelled origin place).stripPrefix? origin).map (Entry.ofFile directory)

/-- The entries of the files listed in a trace. -/
def entries (origin directory : Path) (trace : List Visit) : List Entry :=
  (trace.filterMap Visit.listed?).filterMap (entryOf? origin directory)

/-- The path that names the standard input, which holds no files. -/
def isStandardInput (path : Path) : Bool := path.components == [.normal [0x2D]]

/-- The trace of a walk through a source directory, which has to be one. -/
def trace (fs : Filesystem) (root directory : Path) (config : Config) :
    Except Failure (List Visit) :=
  let origin := root.join directory
  match fs.metadata origin with
  | .error .notFound => .error (.directoryNotFound origin)
  | .error cause => .error (.system origin cause)
  | .ok node =>
    if !node.isDirectory then .error (.notDirectory origin)
    else if isStandardInput origin then .ok []
    else .ok ((Walk.mk origin config fs.isDirectory).visits node [] true)

end Scan

/-- Work that reports events and may fail. The events before a failure stay. -/
structure Logged (α : Type) where
  log : List Log.Event
  outcome : Except Failure α

/-- The entries of the files below a source directory. -/
def scan (fs : Filesystem) (root directory : Path) (config : Config) : Logged (List Entry) :=
  let origin := root.join directory
  match Scan.trace fs root directory config with
  | .error failure => ⟨[], .error failure⟩
  | .ok visits =>
    let seen := Scan.before visits
    ⟨seen.filterMap (Scan.Visit.event? origin),
      match Scan.obstructed? visits with
      | some (place, cause) => .error (.walk origin (Scan.spelled origin place) cause)
      | none => .ok (Scan.entries origin directory seen)⟩

/-- The entries of several source directories, one after the other. The first
one that fails ends the work. -/
def collectFrom (fs : Filesystem) (root : Path) (config : Config) :
    List Path → Logged (List Entry)
  | [] => ⟨[], .ok []⟩
  | directory :: others =>
    let here := scan fs root directory config
    match here.outcome with
    | .error failure => ⟨here.log, .error failure⟩
    | .ok entries =>
      let rest := collectFrom fs root config others
      ⟨here.log ++ .collected directory entries.length :: rest.log,
        rest.outcome.map (entries ++ ·)⟩

/-- The entries of all source directories of a project. -/
def collect (fs : Filesystem) (root : Path) (config : Config) : Logged (List Entry) :=
  collectFrom fs root config config.sourceDirs

end CacheManifest
