/-
# From a path to a place in the tree

A path is resolved step by step, in the way a Unix kernel does it. Every step
needs leave to enter the directory it starts from, `..` is taken after links
have been followed, and at most forty links are followed on the way. A slash at
the end demands a directory.

The result keeps a vacant place apart from a node that exists: a path may name
something that can be created although nothing is there yet.
-/

import CacheManifest.Filesystem.Node

namespace CacheManifest

/-- Why a file system refuses. -/
inductive SystemError where
  | notFound
  | noReader
  | permissionDenied
  | notDirectory
  | isDirectory
  | nameTooLong
  | tooManyLinks
  | zeroByte
  | notText
deriving DecidableEq, Repr

/-- The system's own words. -/
def SystemError.message : SystemError → String
  | .notFound => "No such file or directory (os error 2)"
  | .noReader => "No such device or address (os error 6)"
  | .permissionDenied => "Permission denied (os error 13)"
  | .notDirectory => "Not a directory (os error 20)"
  | .isDirectory => "Is a directory (os error 21)"
  | .nameTooLong => "File name too long (os error 36)"
  | .tooManyLinks => "Too many levels of symbolic links (os error 40)"
  | .zeroByte => "file name contained an unexpected NUL byte"
  | .notText => "stream did not contain valid UTF-8"

/-- A file system as one process sees it: the tree, and the directory at which
its relative paths start. -/
structure Filesystem where
  top : Node
  workingDirectory : Location

namespace Filesystem

/-- One segment of a path, as the kernel walks it. -/
inductive Step where
  | stay
  | up
  | enter (name : Name)
  | unnameable
deriving DecidableEq

/-- The step of a segment. A segment that no entry can be called by is one that
is too long, as slashes and zero bytes do not occur in it. -/
def Step.ofSegment (segment : Bytes) : Step :=
  if segment = Path.dot then .stay
  else if segment = Path.dotDot then .up
  else
    match Name.ofBytes? segment with
    | some name => .enter name
    | none => .unnameable

/-- The steps of a path. Repeated slashes are one. -/
def steps (path : Path) : List Step :=
  ((Path.segments path.bytes).filter fun segment => segment ≠ []).map Step.ofSegment

/-- Whether a path ends in a slash. -/
def demandsDirectory (path : Path) : Bool := path.bytes.getLast? == some Path.slash

/-- What a path is resolved for: to find what is there, or to open a file that
may have to be created. -/
inductive Purpose where
  | lookup
  | creation
deriving DecidableEq, Repr

/-- Where a path leads: to a node, or to a free name in a directory. -/
inductive Destination where
  | present (location : Location)
  | vacant (directory : Location) (name : Name)
deriving DecidableEq

/-- How steps are carried on after a link: from a place, by steps, with or
without the demand that a directory be found. -/
abbrev Continuation := Location → List Step → Bool → Except SystemError Destination

/-- Take steps from a directory. What happens at a link is left to
`follow`. -/
def advance (top : Node) (purpose : Purpose) (follow : Continuation) : Continuation
  | place, [], directory =>
    match top.at? place with
    | none => .error .notFound
    | some node =>
      if directory && !node.isDirectory then .error .notDirectory else .ok (.present place)
  | place, step :: rest, directory =>
    match top.at? place with
    | some (.directory permissions names distinct child) =>
      if !permissions.enter then .error .permissionDenied
      else
        match step with
        | .stay => advance top purpose follow place rest directory
        | .up => advance top purpose follow place.dropLast rest directory
        | .unnameable =>
          if purpose = .creation && rest.isEmpty && directory then .error .isDirectory
          else .error .nameTooLong
        | .enter name =>
          if purpose = .creation && rest.isEmpty && directory then .error .isDirectory
          else
            match (Node.directory permissions names distinct child).child? name with
            | some (.link target) =>
              follow (if target.isAbsolute then [] else place) (steps target ++ rest)
                (directory || (rest.isEmpty && demandsDirectory target))
            | some _ => advance top purpose follow (place ++ [name]) rest directory
            | none => if rest.isEmpty then .ok (.vacant place name) else .error .notFound
    | some _ => .error .notDirectory
    | none => .error .notFound

/-- Take steps, following as many links as `budget` allows. -/
def walk (top : Node) (purpose : Purpose) : Nat → Continuation
  | 0 => advance top purpose fun _ _ _ => .error .tooManyLinks
  | budget + 1 => advance top purpose (walk top purpose budget)

/-- How many links one resolution may follow. -/
def linkLimit : Nat := 40

/-- Paths of this many bytes and more are refused. -/
def pathLimit : Nat := 4096

/-- What can be told from a path's text: it may not hold a zero byte, be too
long, or be empty. -/
def spellingError (path : Path) : Option SystemError :=
  if (0 : UInt8) ∈ path.bytes then some .zeroByte
  else if pathLimit ≤ path.bytes.length then some .nameTooLong
  else if path.bytes = [] then some .notFound
  else none

/-- Where a path leads. -/
def resolve (fs : Filesystem) (purpose : Purpose) (path : Path) :
    Except SystemError Destination :=
  match spellingError path with
  | some cause => .error cause
  | none =>
    walk fs.top purpose linkLimit (if path.isAbsolute then [] else fs.workingDirectory)
      (steps path) (demandsDirectory path)

/-- The place of the node a path names, with every link followed. -/
def locate (fs : Filesystem) (path : Path) : Except SystemError Location :=
  match fs.resolve .lookup path with
  | .ok (.present location) => .ok location
  | .ok (.vacant _ _) => .error .notFound
  | .error cause => .error cause

/-- The node a path names. -/
def metadata (fs : Filesystem) (path : Path) : Except SystemError Node :=
  match fs.locate path with
  | .ok location =>
    match fs.top.at? location with
    | some node => .ok node
    | none => .error .notFound
  | .error cause => .error cause

/-- Whether a path names a directory. -/
def isDirectory (fs : Filesystem) (path : Path) : Bool :=
  match fs.metadata path with
  | .ok node => node.isDirectory
  | .error _ => false

/-- Whether a path names a regular file. -/
def isFile (fs : Filesystem) (path : Path) : Bool :=
  match fs.metadata path with
  | .ok node => node.isFile
  | .error _ => false

/-- The absolute path of the working directory. -/
def currentDirectory (fs : Filesystem) : Path := fs.workingDirectory.path

/-- The absolute path, free of links, of what a path names. -/
def canonical (fs : Filesystem) (path : Path) : Except SystemError Path :=
  (fs.locate path).map Location.path

end Filesystem

end CacheManifest
