/-
# Finding the configuration of a project

A project root may hold a configuration file. One that exists must be readable
and valid; only a missing one is replaced by the defaults. From a working
directory the root is found by looking there first and then at the parent,
whose settings decide whether the working directory is a script directory.
-/

import CacheManifest.Failure
import CacheManifest.Filesystem.Access

namespace CacheManifest

namespace Config

/-- The name of the configuration file in a project root. -/
def fileName : Path := .ofString "mkappcache.json"

/-- The configuration in a text that was read from a path. -/
def parse (path : Path) (text : String) : Except Failure Config :=
  (ofText text).mapError (.invalidConfig path)

/-- Load the configuration from a file that must exist. -/
def load (fs : Filesystem) (path : Path) : Except Failure Config :=
  match fs.readText path with
  | .error cause => .error (.system path cause)
  | .ok text => parse path text

/-- Load the configuration of a project root, or the defaults where the file is
missing. -/
def discover (fs : Filesystem) (root : Path) : Except Failure Config :=
  let path := root.join fileName
  match fs.readText path with
  | .error .notFound => .ok default
  | .error cause => .error (.system path cause)
  | .ok text => parse path text

/-- A project root with its settings. -/
structure Project where
  root : Path
  config : Config
deriving DecidableEq, Repr

/-- The project of a working directory. -/
def discoverFrom (fs : Filesystem) (directory : Path) : Except Failure Project :=
  if fs.isFile (directory.join fileName) then (discover fs directory).map (⟨directory, ·⟩)
  else
    match directory.parent with
    | none => .ok ⟨directory, default⟩
    | some parent =>
      match discover fs parent with
      | .error failure => .error failure
      | .ok config =>
        if (projectRoot directory config.scriptDirs).sameRoute parent then .ok ⟨parent, config⟩
        else .ok ⟨directory, default⟩

end Config

end CacheManifest
