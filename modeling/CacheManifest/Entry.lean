/-
# The entries of a manifest

An entry is the address of a file, starting at the project root, together with
the source directory that it was found under. The address keeps the normal
components only, so a directory has one address however it is spelled. In the
names of directories a backslash counts as a separator; the file name is kept
as it is.
-/

import CacheManifest.Path

namespace CacheManifest

/-- A line of the manifest and where it comes from. -/
structure Entry where
  sourceDir : String
  path : String
deriving DecidableEq, Repr

namespace Entry

/-- The segment that a directory name contributes to an address. -/
def directorySegment (name : Bytes) : List Char :=
  '/' :: Path.withSlashes (Utf8.lossyChars name)

/-- The segment that a file name contributes to an address. -/
def fileSegment (name : Bytes) : List Char := '/' :: Utf8.lossyChars name

/-- The address of a file that lies at `relative` below a directory. -/
def addressChars (directory relative : Path) : List Char :=
  (directory.names ++ (relative.parent.getD ⟨[]⟩).names).flatMap directorySegment ++
    (match relative.fileName with
      | some name => fileSegment name
      | none => [])

/-- The address of a file, as text. -/
def address (directory relative : Path) : String :=
  String.ofList (addressChars directory relative)

/-- The entry of a file. -/
def ofFile (directory relative : Path) : Entry where
  sourceDir := directory.normalized
  path := address directory relative

/-- The line of an entry, with its line end. -/
def line (entry : Entry) : String := entry.path ++ "\n"

end Entry

end CacheManifest
