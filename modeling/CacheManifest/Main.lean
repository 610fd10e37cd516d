/-
# The command line program

Reads the arguments and the environment, looks at the disk, and carries out what
a call comes to. The disk is looked at in two steps: first for what settles the
project, then for its source directories and its output.
-/

import Std.Time.Zoned.Database
import CacheManifest.Disk
import CacheManifest.Program
import CacheManifest.Timestamp

namespace CacheManifest

namespace Main

/-- The current time, in local time where the zone is known. -/
def now : IO Instant := do
  let time ← Std.Time.Timestamp.now
  let offset ←
    match ← Std.Time.Database.defaultGetLocalZoneRules.toBaseIO with
    | .ok rules => pure (rules.timezoneAt time).offset.second.val
    | .error _ => pure 0
  return ⟨time.toSecondsSinceUnixEpoch.val, time.val.nano.val.toNat, offset⟩

/-- The call that started this process. -/
def callOf (arguments : List String) : IO Program.Call := do
  let setting ← IO.getEnv "MKAPPCACHE_CONFIG"
  let level ← IO.getEnv "RUST_LOG"
  return ⟨arguments.map Utf8.encode, setting.map Utf8.encode, level⟩

/-- Keep what settles the project: the configuration files that may be read, and
the root. -/
def keepSettings (fs : Filesystem) (arguments : CommandLine.Arguments) : IO Filesystem := do
  let here := fs.currentDirectory
  let roots := arguments.root.toList ++ [here, here.parent.getD here]
  let mut kept := fs
  for path in arguments.config.toList ++ roots ++ roots.map (·.join Config.fileName) do
    kept := (← Disk.keepPath kept path).1
  return kept

/-- Keep what a project lists and where it writes. -/
def keepProject (fs : Filesystem) (project : Config.Project) : IO Filesystem := do
  let mut kept := (← Disk.keepPath fs (project.config.outputPath project.root)).1
  for directory in project.config.sourceDirs do
    kept ← Disk.keepTree kept (project.root.join directory)
  return kept

/-- Look at the part of the disk that a call needs. -/
def look (call : Program.Call) : IO Filesystem := do
  let fs ← Disk.start
  match CommandLine.read call.arguments call.configSetting with
  | .error _ => return fs
  | .ok arguments =>
    let fs ← keepSettings fs arguments
    match Run.resolve fs arguments with
    | .error _ => return fs
    | .ok project => keepProject fs project

/-- Write the file that a call wrote, as it is in the tree that the call left. -/
def store (exit : Program.Exit) : IO Unit := do
  if let some path := exit.written then
    if let .ok content := exit.filesystem.read path then
      IO.FS.writeBinFile path.display ⟨content.toArray⟩

/-- Carry out a call. -/
def perform (call : Program.Call) : IO UInt32 := do
  let exit := Program.call (← look call) call (← now).text
  store exit
  IO.print exit.output
  IO.eprint exit.diagnostics
  return exit.code.toUInt32

end Main

end CacheManifest

/-- Write a browser application-cache manifest for a project's assets. -/
def main (arguments : List String) : IO UInt32 := do
  CacheManifest.Main.perform (← CacheManifest.Main.callOf arguments)
