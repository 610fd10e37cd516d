/-
# Writing the manifest of a project

The entries are collected before the output is opened, so a failure in any
source directory leaves the file system as it is, the previous manifest
included. An output that lies below a source directory is listed by the next
run and not by the one that creates it.
-/

import CacheManifest.Scan
import CacheManifest.Manifest

namespace CacheManifest

/-- What a manifest was written to, and how many entries it has. -/
structure Summary where
  output : Path
  entries : Nat
deriving DecidableEq, Repr

/-- What making a manifest comes to: what was reported, the file system that is
left behind, whether the work succeeded or not, and the summary. -/
structure Generation where
  log : List Log.Event
  filesystem : Filesystem
  outcome : Except Failure Summary

/-- Collect the entries of a project and write its manifest. -/
def generate (fs : Filesystem) (root : Path) (config : Config) (timestamp : String) :
    Generation :=
  let collected := collect fs root config
  match collected.outcome with
  | .error failure => ⟨collected.log, fs, .error failure⟩
  | .ok entries =>
    let output := config.outputPath root
    match fs.openEmpty output with
    | .error cause => ⟨collected.log, fs, .error (.system output cause)⟩
    | .ok (opened, location) =>
      ⟨collected.log, opened.append location (Utf8.encode (renderManifest timestamp entries)),
        .ok ⟨output, entries.length⟩⟩

end CacheManifest
