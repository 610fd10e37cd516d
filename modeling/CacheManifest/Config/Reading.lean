/-
# Reading a configuration file

A configuration is a JSON object that names some of the five settings, each at
most once, or a JSON list that gives some of them in their fixed order. What is
not given keeps its default. Paths and texts are strings, the other settings
lists of strings.

A text is read from the front, and the first fault found ends the reading,
whether it is one of syntax or of content. A fault of content shows after the
value or key concerned.
-/

import CacheManifest.Config.Basic
import CacheManifest.Json.Reading

namespace CacheManifest

namespace Config

/-- One of the five settings. -/
inductive Field where
  | output
  | sourceDirs
  | excludedExtensions
  | ignoredDirs
  | scriptDirs
deriving DecidableEq, Repr

namespace Field

/-- The key of a setting. -/
def name : Field → String
  | output => "output"
  | sourceDirs => "source_dirs"
  | excludedExtensions => "excluded_extensions"
  | ignoredDirs => "ignored_dirs"
  | scriptDirs => "script_dirs"

/-- The settings in their fixed order. -/
def all : List Field := [output, sourceDirs, excludedExtensions, ignoredDirs, scriptDirs]

/-- The setting of a key. -/
def ofName? (key : String) : Option Field := all.find? fun field => field.name == key

end Field

/-- What was wanted where something else was found. -/
inductive Wanted where
  | document
  | path
  | text
  | sequence
deriving DecidableEq, Repr

/-- What was wanted, as an error names it. -/
def Wanted.message : Wanted → String
  | .document => "struct ManifestConfig"
  | .path => "path string"
  | .text => "a string"
  | .sequence => "a sequence"

/-- Why a text is no configuration. -/
inductive ReadError where
  | syntactic (cause : Json.SyntaxError)
  | unknownField (key : String)
  | duplicateField (field : Field)
  | wrongType (found : Json.Found) (wanted : Wanted)
deriving DecidableEq, Repr

/-- The words for a read error, without its position. -/
def ReadError.message : ReadError → String
  | .syntactic cause => cause.message
  | .unknownField key =>
    "unknown field `" ++ key ++ "`, expected one of " ++
      ", ".intercalate (Field.all.map fun field => "`" ++ field.name ++ "`")
  | .duplicateField field => "duplicate field `" ++ field.name ++ "`"
  | .wrongType found wanted =>
    "invalid type: " ++ found.message ++ ", expected " ++ wanted.message

open Json (Fault Reader SyntaxError skipBlanks)

/-- A syntax fault as a read fault. -/
def fault (cause : Fault SyntaxError) : Fault ReadError := cause.map .syntactic

/-- The fault of a text that starts with something else than is wanted. -/
def mismatch (wanted : Wanted) (text : List Char) : Fault ReadError :=
  match Json.found text with
  | .error cause => fault cause
  | .ok (found, rest) => .before (.wrongType found wanted) rest

/-- Read a string, with blanks in front. -/
def readString (wanted : Wanted) : Reader ReadError String := fun text =>
  match skipBlanks text with
  | [] => .error (fault (.atEnd .endOfValue))
  | c :: rest =>
    if c = '"' then (Json.readString rest).mapError fault
    else .error (mismatch wanted (c :: rest))

/-- What follows in a list: its end, or the text at which an element starts.
An element after the first needs a comma. -/
def nextElement (first : Bool) (text : List Char) :
    Except (Fault ReadError) (List Char ⊕ List Char) :=
  match skipBlanks text with
  | [] => .error (fault (.atEnd .endOfList))
  | c :: rest =>
    if c = ']' then .ok (.inl rest)
    else if first then .ok (.inr (c :: rest))
    else if c = ',' then
      match skipBlanks rest with
      | [] => .error (fault (.atEnd .endOfValue))
      | next :: others =>
        if next = ']' then .error (fault (.at .trailingComma (next :: others)))
        else .ok (.inr (next :: others))
    else .error (fault (.at .expectedCommaOrBracket (c :: rest)))

/-- Read the elements of a list of strings. Every element takes at least one
character, so the length of the text bounds their number. -/
def readElements (wanted : Wanted) : Nat → Bool → Reader ReadError (List String)
  | 0, _, _ => .error (fault (.atEnd .endOfList))
  | bound + 1, first, text =>
    match nextElement first text with
    | .error cause => .error cause
    | .ok (.inl rest) => .ok ([], rest)
    | .ok (.inr start) =>
      match readString wanted start with
      | .error cause => .error cause
      | .ok (element, rest) =>
        match readElements wanted bound false rest with
        | .error cause => .error cause
        | .ok (others, left) => .ok (element :: others, left)

/-- Read a list of strings, with blanks in front. -/
def readStrings (wanted : Wanted) : Reader ReadError (List String) := fun text =>
  match skipBlanks text with
  | [] => .error (fault (.atEnd .endOfValue))
  | c :: rest =>
    if c = '[' then readElements wanted (rest.length + 1) true rest
    else .error (mismatch .sequence (c :: rest))

/-- Read the value of a setting into a configuration. -/
def readSetting (field : Field) (config : Config) : Reader ReadError Config := fun text =>
  match field with
  | .output =>
    (readString .path text).map fun read => ({ config with output := .ofString read.1 }, read.2)
  | .sourceDirs =>
    (readStrings .path text).map fun read =>
      ({ config with sourceDirs := read.1.map Path.ofString }, read.2)
  | .excludedExtensions =>
    (readStrings .text text).map fun read =>
      ({ config with excludedExtensions := read.1 }, read.2)
  | .ignoredDirs =>
    (readStrings .text text).map fun read => ({ config with ignoredDirs := read.1 }, read.2)
  | .scriptDirs =>
    (readStrings .text text).map fun read => ({ config with scriptDirs := read.1 }, read.2)

/-! ## Objects -/

/-- What follows in an object: its end, or the text after the quote that opens
a key. A key after the first needs a comma. -/
def nextKey (first : Bool) (text : List Char) :
    Except (Fault ReadError) (List Char ⊕ List Char) :=
  let key (text : List Char) : Except (Fault ReadError) (List Char ⊕ List Char) :=
    match text with
    | [] => .error (fault (.atEnd .endOfValue))
    | c :: rest =>
      if c = '"' then .ok (.inr rest)
      else if c = '\x7d' then .error (fault (.at .trailingComma (c :: rest)))
      else .error (fault (.at .keyNotString (c :: rest)))
  match skipBlanks text with
  | [] => .error (fault (.atEnd .endOfObject))
  | c :: rest =>
    if c = '\x7d' then .ok (.inl rest)
    else if first then key (c :: rest)
    else if c = ',' then key (skipBlanks rest)
    else .error (fault (.at .expectedCommaOrBrace (c :: rest)))

/-- Where the fault of a key shows: after the key, the blanks that follow it
and a brace that closes the object there. -/
def afterKey (rest : List Char) : List Char :=
  match skipBlanks rest with
  | [] => []
  | c :: others => if c = '\x7d' then others else c :: others

/-- Read a key that names a setting not yet given. -/
def readKey (given : List Field) : Reader ReadError Field := fun text =>
  match Json.readString text with
  | .error cause => .error (fault cause)
  | .ok (key, rest) =>
    match Field.ofName? key with
    | none => .error (.before (.unknownField key) (afterKey rest))
    | some field =>
      if field ∈ given then .error (.before (.duplicateField field) (afterKey rest))
      else .ok (field, rest)

/-- Read the colon between a key and its value. -/
def readColon (text : List Char) : Except (Fault ReadError) (List Char) :=
  match skipBlanks text with
  | [] => .error (fault (.atEnd .endOfObject))
  | c :: rest =>
    if c = ':' then .ok rest else .error (fault (.at .expectedColon (c :: rest)))

/-- Read the settings of an object into a configuration. -/
def readFields : Nat → List Field → Config → Reader ReadError Config
  | 0, _, _, _ => .error (fault (.atEnd .endOfObject))
  | bound + 1, given, config, text =>
    match nextKey given.isEmpty text with
    | .error cause => .error cause
    | .ok (.inl rest) => .ok (config, rest)
    | .ok (.inr start) =>
      match readKey given start with
      | .error cause => .error cause
      | .ok (field, rest) =>
        match readColon rest with
        | .error cause => .error cause
        | .ok valueText =>
          match readSetting field config valueText with
          | .error cause => .error cause
          | .ok (next, left) => readFields bound (field :: given) next left

/-! ## Lists -/

/-- Read the end of a list that gives all five settings. -/
def readListEnd (text : List Char) : Except (Fault ReadError) (List Char) :=
  match skipBlanks text with
  | [] => .error (fault (.atEnd .endOfList))
  | c :: rest =>
    if c = ']' then .ok rest
    else if c = ',' then
      match skipBlanks rest with
      | [] => .error (fault (.atEnd .trailingCharacters))
      | next :: others =>
        if next = ']' then .error (fault (.at .trailingComma (next :: others)))
        else .error (fault (.at .trailingCharacters (next :: others)))
    else .error (fault (.at .trailingCharacters (c :: rest)))

/-- Read settings in their fixed order up to the end of the list. -/
def readInOrder : List Field → Bool → Config → Reader ReadError Config
  | [], _, config, text => (readListEnd text).map fun rest => (config, rest)
  | field :: others, first, config, text =>
    match nextElement first text with
    | .error cause => .error cause
    | .ok (.inl rest) => .ok (config, rest)
    | .ok (.inr start) =>
      match readSetting field config start with
      | .error cause => .error cause
      | .ok (next, left) => readInOrder others false next left

/-! ## Documents -/

/-- Read one value that gives settings, with blanks in front. -/
def readValue : Reader ReadError Config := fun text =>
  match skipBlanks text with
  | [] => .error (fault (.atEnd .endOfValue))
  | c :: rest =>
    if c = '[' then readInOrder Field.all true default rest
    else if c = '\x7b' then readFields (rest.length + 1) [] default rest
    else .error (mismatch .document (c :: rest))

/-- Read a whole text, which holds one value and blanks. -/
def readChars (text : List Char) : Except (Fault ReadError) Config :=
  match readValue text with
  | .error cause => .error cause
  | .ok (config, rest) =>
    match skipBlanks rest with
    | [] => .ok config
    | c :: others => .error (fault (.at .trailingCharacters (c :: others)))

/-- A read error at its position in a text. -/
structure PlacedError where
  cause : ReadError
  position : Json.Position
deriving DecidableEq, Repr

/-- The words for a placed error. -/
def PlacedError.message (error : PlacedError) : String :=
  error.cause.message ++ " at line " ++ toString error.position.line ++ " column " ++
    toString error.position.column

/-- The configuration that a text gives. -/
def ofText (text : String) : Except PlacedError Config :=
  (readChars text.toList).mapError fun fault => ⟨fault.cause, fault.position text.toList⟩

end Config

end CacheManifest
