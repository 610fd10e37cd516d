/-
# The configuration of a project

Which file the manifest goes to, which directories are listed, and what is
left out of the listing. A file is left out by its extension, the text from
the last dot on, so an excluded extension that has no leading dot or a second
dot matches nothing. A directory is left out by its whole name. Both tests are
exact and know no patterns.

The project root follows from the working directory: a directory whose name is
among the script directories stands for its parent.
-/

import CacheManifest.Path

namespace CacheManifest

/-- The settings of a project. -/
structure Config where
  output : Path
  sourceDirs : List Path
  excludedExtensions : List String
  ignoredDirs : List String
  scriptDirs : List String
deriving DecidableEq, Repr

namespace Config

/-- The settings of a project without a configuration file. -/
def default : Config where
  output := .ofString "cache.appcache"
  sourceDirs := [.ofString "src", .ofString "styles", .ofString "js"]
  excludedExtensions := [".mp3", ".mp4", ".ogv", ".ogg", ".webm", ".DS_Store", ".excss"]
  ignoredDirs := [".svn"]
  scriptDirs := ["scripts"]

instance : Inhabited Config := ⟨default⟩

/-- The characters of a name from its last dot on. -/
def extensionChars? (name : List Char) : Option (List Char) :=
  if '.' ∈ name then some ('.' :: (name.reverse.takeWhile (· ≠ '.')).reverse) else none

/-- The extension of a file name: the text from its last dot on. -/
def extension? (name : String) : Option String :=
  (extensionChars? name.toList).map String.ofList

/-- Whether a file of this name is left out. -/
def excludes (config : Config) (fileName : String) : Bool :=
  match extension? fileName with
  | some extension => config.excludedExtensions.contains extension
  | none => false

/-- Whether a directory of this name is left out, with all that is below it. -/
def ignores (config : Config) (directoryName : String) : Bool :=
  config.ignoredDirs.contains directoryName

/-- Where the manifest of a project goes. -/
def outputPath (config : Config) (root : Path) : Path := root.join config.output

/-- Whether a directory is a script directory by its name. -/
def isScriptDir (scriptDirs : List String) (directory : Path) : Bool :=
  match directory.fileName.bind Utf8.decode? with
  | some name => scriptDirs.contains name
  | none => false

/-- The project root for a working directory. -/
def projectRoot (workingDirectory : Path) (scriptDirs : List String) : Path :=
  match workingDirectory.parent with
  | some parent => if isScriptDir scriptDirs workingDirectory then parent else workingDirectory
  | none => workingDirectory

end Config

end CacheManifest
