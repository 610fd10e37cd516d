/-
# Reading, creating and editing

What a process does with a file system besides asking where a path leads:
reading a file, opening one for writing, and the edits that build a tree. Every
edit answers with the tree that results, and a refused one with the cause
alone, so nothing changes when a call fails.

Opening a file for writing creates it or empties it, and what is written then
goes to its end. `create` is the two calls one after the other.

A call that opens a pipe would wait until somebody opens its other end. Nobody
else is there, so what would wait for ever is told as a refusal, `noReader`.
-/

import CacheManifest.Filesystem.Resolution

namespace CacheManifest

namespace Filesystem

/-- The content of the file a path names. A directory can be opened but not
read; a pipe, whose opening would wait for a writer, is refused at once. -/
def read (fs : Filesystem) (path : Path) : Except SystemError Bytes :=
  match fs.metadata path with
  | .ok (.file permissions content) =>
    if permissions.read then .ok content else .error .permissionDenied
  | .ok (.directory permissions _ _ _) =>
    if permissions.read then .error .isDirectory else .error .permissionDenied
  | .ok (.pipe) => .error .noReader
  | .ok (.link _) => .error .tooManyLinks
  | .error cause => .error cause

/-- The text of the file a path names. -/
def readText (fs : Filesystem) (path : Path) : Except SystemError String :=
  match fs.read path with
  | .ok content =>
    match Utf8.decode? content with
    | some text => .ok text
    | none => .error .notText
  | .error cause => .error cause

/-- The place at which opening a path for writing creates or empties a file,
and the permissions the file has from then on. A pipe, whose opening would wait
for a reader, is refused at once. -/
def writablePlace (fs : Filesystem) (path : Path) :
    Except SystemError (Location × Permissions) :=
  match fs.resolve .creation path with
  | .error cause => .error cause
  | .ok (.vacant directory name) =>
    match fs.top.at? directory with
    | some (.directory permissions _ _ _) =>
      if permissions.write then .ok (directory ++ [name], .newFile)
      else .error .permissionDenied
    | _ => .error .notFound
  | .ok (.present location) =>
    match fs.top.at? location with
    | some (.file permissions _) =>
      if permissions.write then .ok (location, permissions) else .error .permissionDenied
    | some (.directory _ _ _ _) => .error .isDirectory
    | some (.pipe) => .error .noReader
    | some (.link _) => .error .tooManyLinks
    | none => .error .notFound

/-- Open a path for writing: the tree with an empty file at the place the path
leads to, and that place. -/
def openEmpty (fs : Filesystem) (path : Path) : Except SystemError (Filesystem × Location) :=
  match fs.writablePlace path with
  | .error cause => .error cause
  | .ok (location, permissions) =>
    .ok ({ fs with top := fs.top.put location (.file permissions []) }, location)

/-- Write at the end of the file that was opened at a place. -/
def append (fs : Filesystem) (location : Location) (bytes : Bytes) : Filesystem :=
  match fs.top.at? location with
  | some (.file permissions content) =>
    { fs with top := fs.top.put location (.file permissions (content ++ bytes)) }
  | _ => fs

/-- Open a path for writing and write its whole content. -/
def create (fs : Filesystem) (path : Path) (content : Bytes) :
    Except SystemError Filesystem :=
  (fs.openEmpty path).map fun opened => opened.1.append opened.2 content

/-- Make a new entry at a path where nothing is, its directory being there. -/
def add (fs : Filesystem) (path : Path) (entry : Node) : Except SystemError Filesystem :=
  match fs.resolve .lookup path with
  | .ok (.vacant directory name) =>
    .ok { fs with top := fs.top.put (directory ++ [name]) entry }
  | .ok (.present _) => .error .isDirectory
  | .error cause => .error cause

/-- Make a directory unless a path already names one. -/
def ensureDirectory (fs : Filesystem) (path : Path) : Filesystem :=
  match fs.add path Node.emptyDirectory with
  | .ok next => next
  | .error _ => fs

/-- The paths of the directories that a path passes through, outermost first,
the path itself not among them. -/
def ancestors (path : Path) : List Path :=
  let spelling := path.spelling
  (List.range spelling.body.length).map fun count =>
    { spelling with body := spelling.body.take count : Path.Spelling }.path

/-- Make every directory that a path passes through. -/
def withAncestors (fs : Filesystem) (path : Path) : Filesystem :=
  (ancestors path).foldl ensureDirectory fs

/-- Make a directory and those on the way to it. -/
def makeDirectory (fs : Filesystem) (path : Path) : Filesystem :=
  (fs.withAncestors path).ensureDirectory path

/-- The place of the entry a path names, a link at the end not being followed:
its directory is found by following links as usual. -/
def entryPlace (fs : Filesystem) (path : Path) : Except SystemError Location :=
  match path.fileName.bind Name.ofBytes?, path.parent with
  | some name, some parent =>
    (fs.locate (if parent.bytes = [] then ⟨Path.dot⟩ else parent)).map (· ++ [name])
  | _, _ => .error .notFound

/-- Remove the entry a path names, with all that is below it. -/
def remove (fs : Filesystem) (path : Path) : Except SystemError Filesystem :=
  (fs.entryPlace path).map fun location => { fs with top := fs.top.remove location }

/-- Set the permissions of what a path names. -/
def setPermissions (fs : Filesystem) (path : Path) (permissions : Permissions) :
    Except SystemError Filesystem :=
  match fs.locate path with
  | .error cause => .error cause
  | .ok location =>
    match fs.top.at? location with
    | some node =>
      .ok { fs with top := fs.top.put location (node.withPermissions permissions) }
    | none => .error .notFound

/-- Put a link, a pipe or another entry at a path, in place of what was there
if that is not a directory. -/
def place (fs : Filesystem) (path : Path) (entry : Node) : Except SystemError Filesystem :=
  (fs.entryPlace path).map fun location => { fs with top := fs.top.put location entry }

end Filesystem

namespace Node

/-- The paths of all that is below a directory which can be listed: each entry
by name, a directory with a slash and followed by what is below it. -/
def outline : Node → Path → Bool → List Path
  | .directory permissions names _ child, path, reachable =>
    if reachable && permissions.read then
      (Name.sorted names).flatMap fun name =>
        let here := path.join name.path
        match child name with
        | .directory .. =>
          ⟨here.bytes ++ [Path.slash]⟩ :: (child name).outline here permissions.enter
        | _ => [here]
    else []
  | _, _, _ => []

end Node

/-- The paths of all that is below a directory, relative to it. -/
def Filesystem.outline (fs : Filesystem) (path : Path) : Except SystemError (List Path) :=
  (fs.metadata path).map fun node => node.outline ⟨[]⟩ true

end CacheManifest
