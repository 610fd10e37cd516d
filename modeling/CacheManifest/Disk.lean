/-
# The part of a disk that a run looks at

A run works on a tree in memory. This module fills such a tree from the disk
with what matters for given paths: every directory, link and file that
resolving them passes through, and for source directories all that is below
them. Configuration files are kept with their content; the files to be listed
are kept by name only.

The target of a link is taken as the system resolves it. A link that leads
nowhere is kept as one to a name that is not there.
-/

import CacheManifest.Filesystem.Access

namespace CacheManifest

namespace Disk

/-- A place as the system is told it. -/
def spelling (place : Location) : String := place.path.display

/-- A place as a directory entry, by which its kind can be asked for. -/
def handle (place : Location) : IO.FS.DirEntry :=
  ⟨spelling place.dropLast, (place.getLast?.map Name.text).getD "."⟩

/-- The names of an absolute path free of links. -/
def locationOf (path : String) : Location :=
  (Path.ofString path).names.filterMap Name.ofBytes?

/-- The kind of an entry, if it is there. Links are not followed. -/
def kindOf (entry : IO.FS.DirEntry) : IO (Option IO.FS.FileType) := do
  match ← entry.path.symlinkMetadata.toBaseIO with
  | .ok found => return some found.type
  | .error _ => return none

/-- Put an entry at a place where nothing is kept so far. -/
def keep (top : Node) (place : Location) (entry : Node) : Node :=
  match top.at? place with
  | some _ => top
  | none => top.put place entry

/-- A file with its content, or one that cannot be read. -/
def contentOf (place : Location) : IO Node := do
  match ← (IO.FS.readBinFile (spelling place)).toBaseIO with
  | .ok content => return .file .newFile content.toList
  | .error _ => return .file ⟨false, true, false⟩ []

/-- What stands at a place free of links, without what is below it. -/
def nodeOf (place : Location) : IO Node := do
  match ← kindOf (handle place) with
  | some .dir => return .emptyDirectory
  | some .other => return .pipe
  | _ => contentOf place

/-- Keep a place free of links and the directories on the way to it. -/
def keepRoute (top : Node) (place : Location) : IO Node := do
  let mut kept := top
  for count in [0:place.length] do
    kept := keep kept (place.take count) .emptyDirectory
  if (kept.at? place).isSome then return kept
  return keep kept place (← nodeOf place)

/-- Keep a link, and where it leads. -/
def keepLink (top : Node) (place : Location) : IO (Node × Option Location) := do
  match ← (IO.FS.realPath (spelling place)).toBaseIO with
  | .ok target =>
    let found := locationOf target.toString
    let kept ← keepRoute top found
    return (keep kept place (.link found.path), some found)
  | .error _ =>
    let nowhere := (place.getLast?.map Name.bytes).getD [] ++ Utf8.encode " (nowhere)"
    return (keep top place (.link ⟨nowhere⟩), none)

/-- Keep what a path passes through, starting at a place. -/
def keepSteps (top : Node) : Location → List Filesystem.Step → IO (Node × Option Location)
  | place, [] => return (top, some place)
  | place, .stay :: rest => keepSteps top place rest
  | place, .up :: rest => keepSteps top place.dropLast rest
  | _, .unnameable :: _ => return (top, none)
  | place, .enter name :: rest => do
    let next := place ++ [name]
    match ← kindOf (handle next) with
    | none => return (top, none)
    | some .symlink =>
      match ← keepLink top next with
      | (kept, some target) => keepSteps kept target rest
      | (kept, none) => return (kept, none)
    | some .dir => keepSteps (keep top next .emptyDirectory) next rest
    | some .file => return (keep top next (← contentOf next), some next)
    | some .other => return (keep top next .pipe, some next)

/-- Keep what a path passes through. -/
def keepPath (fs : Filesystem) (path : Path) : IO (Filesystem × Option Location) := do
  let start := if path.isAbsolute then [] else fs.workingDirectory
  let (top, found) ← keepSteps fs.top start (Filesystem.steps path)
  return ({ fs with top := top }, found)

/-- Keep all that is below a directory. -/
partial def keepBelow (top : Node) (place : Location) : IO Node := do
  match ← (handle place).path.readDir.toBaseIO with
  | .error _ =>
    return match top.at? place with
    | some node => top.put place (node.withPermissions ⟨false, true, true⟩)
    | none => top
  | .ok entries =>
    let mut kept := top
    for entry in entries do
      if let some name := Name.ofBytes? (Utf8.encode entry.fileName) then
        let next := place ++ [name]
        match ← kindOf entry with
        | some .dir => kept ← keepBelow (keep kept next .emptyDirectory) next
        | some .file => kept := keep kept next (.file .newFile [])
        | some .symlink => kept := (← keepLink kept next).1
        | some .other => kept := keep kept next .pipe
        | none => pure ()
    return kept

/-- Keep what a path passes through and, if it leads to a directory, all that is
below it. -/
def keepTree (fs : Filesystem) (path : Path) : IO Filesystem := do
  let (fs, found) ← keepPath fs path
  match found with
  | some place =>
    match fs.top.at? place with
    | some (.directory ..) => return { fs with top := ← keepBelow fs.top place }
    | _ => return fs
  | none => return fs

/-- The file system of this process, with the way to its working directory. -/
def start : IO Filesystem := do
  let directory := locationOf (← IO.currentDir).toString
  return ⟨← keepRoute .emptyDirectory directory, directory⟩

end Disk

end CacheManifest
