/-
# Paths as bytes, and the components they spell

A path is the byte text a file system is given. Joining two paths is textual:
nothing is resolved and nothing is cleaned up. Reading a path as components
drops what spells nothing, that is empty segments and every `.` except one
that leads a relative path; `..` stays, because only the file system knows
where it leads. Two paths are the same route when their components agree.

A backslash is an ordinary byte here. Only `normalized` turns it into a slash.
-/

import CacheManifest.Text.Utf8

namespace CacheManifest

/-- The spelling of a path. -/
structure Path where
  bytes : Bytes
deriving DecidableEq, Repr, Inhabited

namespace Path

/-- The byte between two segments. -/
def slash : UInt8 := 0x2F

/-- The byte that some systems separate segments with. -/
def backslash : UInt8 := 0x5C

/-- The segment that stands for the directory itself. -/
def dot : Bytes := [0x2E]

/-- The segment that stands for the parent directory. -/
def dotDot : Bytes := [0x2E, 0x2E]

/-- The path a text spells. -/
def ofString (text : String) : Path := ⟨Utf8.encode text⟩

/-- A path as messages show it. -/
def display (path : Path) : String := Utf8.decodeLossy path.bytes

/-- A path that starts at the root directory. -/
def isAbsolute (path : Path) : Bool := path.bytes.head? == some slash

/-- `rest` as seen from `base`. An absolute `rest` stands alone; otherwise the
two texts meet at one slash, unless `base` is empty. -/
def join (base rest : Path) : Path :=
  if rest.isAbsolute then rest
  else if base.bytes = [] ∨ base.bytes.getLast? = some slash then ⟨base.bytes ++ rest.bytes⟩
  else ⟨base.bytes ++ slash :: rest.bytes⟩

/-- The texts between slashes, empty ones included. -/
def segments : Bytes → List Bytes
  | [] => [[]]
  | byte :: rest =>
    if byte = slash then [] :: segments rest
    else
      match segments rest with
      | [] => [[byte]]
      | first :: others => (byte :: first) :: others

/-- Segments written with slashes between them. -/
def ofSegments (parts : List Bytes) : Bytes := [slash].intercalate parts

/-- Where a path starts. -/
inductive Anchor where
  | root
  | here
  | unanchored
deriving DecidableEq, Repr

/-- A path taken apart into its start and the segments after it. -/
structure Spelling where
  anchor : Anchor
  body : List Bytes
deriving DecidableEq, Repr

/-- Take a path apart. A leading `.` is an anchor, any other is a segment. -/
def spelling (path : Path) : Spelling :=
  match segments path.bytes with
  | [] :: second :: others => ⟨.root, second :: others⟩
  | first :: others =>
    if first = dot then ⟨.here, others⟩ else ⟨.unanchored, first :: others⟩
  | [] => ⟨.unanchored, []⟩

/-- Put a path together again. -/
def Spelling.path (spelling : Spelling) : Path :=
  match spelling.anchor, spelling.body with
  | .root, body => ⟨slash :: ofSegments body⟩
  | .here, [] => ⟨dot⟩
  | .here, body => ⟨dot ++ slash :: ofSegments body⟩
  | .unanchored, body => ⟨ofSegments body⟩

/-- One step of a path. -/
inductive Component where
  | root
  | here
  | up
  | normal (name : Bytes)
deriving DecidableEq, Repr

/-- The component an anchor contributes. -/
def Anchor.components : Anchor → List Component
  | .root => [.root]
  | .here => [.here]
  | .unanchored => []

/-- A segment that spells a component. -/
def bearing (segment : Bytes) : Bool := segment ≠ [] && segment ≠ dot

/-- The component of a segment that spells one. -/
def Component.ofSegment (segment : Bytes) : Component :=
  if segment = dotDot then .up else .normal segment

/-- The steps of a path. -/
def components (path : Path) : List Component :=
  path.spelling.anchor.components ++
    (path.spelling.body.filter bearing).map Component.ofSegment

/-- The name of a normal component. -/
def Component.name? : Component → Option Bytes
  | .normal name => some name
  | _ => none

/-- The names of the normal components. -/
def names (path : Path) : List Bytes := path.components.filterMap Component.name?

/-- The name of the last component, when it is a normal one. -/
def fileName (path : Path) : Option Bytes := path.components.getLast?.bind Component.name?

/-- Segments without those at the end that spell nothing. -/
def trimmedEnd (body : List Bytes) : List Bytes :=
  (body.reverse.dropWhile fun segment => !bearing segment).reverse

/-- A path without its last component, as it was written. Neither the root
directory nor the empty path has a parent. -/
def parent (path : Path) : Option Path :=
  let spelling := path.spelling
  match trimmedEnd spelling.body with
  | [] =>
    match spelling.anchor with
    | .here => some ⟨[]⟩
    | _ => none
  | body => some { spelling with body := trimmedEnd body.dropLast : Spelling }.path

/-- Whether two paths take the same steps. -/
def sameRoute (first second : Path) : Bool := first.components == second.components

/-- What follows the given steps in segments that begin with them. -/
def segmentsAfter : List Bytes → List Component → Option (List Bytes)
  | body, [] => some body
  | [], _ :: _ => none
  | segment :: body, step :: steps =>
    if bearing segment then
      if Component.ofSegment segment = step then segmentsAfter body steps else none
    else segmentsAfter body (step :: steps)

/-- A path as seen from one that it begins with, both read as steps. Seen from
the empty path it stays what it is. -/
def stripPrefix? (path base : Path) : Option Path :=
  let whole := path.spelling
  let start := base.spelling
  if base.components = [] then some { whole with body := trimmedEnd whole.body : Spelling }.path
  else if whole.anchor = start.anchor then
    (segmentsAfter whole.body ((start.body.filter bearing).map Component.ofSegment)).map
      fun rest => ⟨ofSegments (trimmedEnd (rest.dropWhile fun segment => !bearing segment))⟩
  else none

/-- Text with every backslash read as a separator. -/
def withSlashes (text : List Char) : List Char :=
  text.map fun c => if c = '\\' then '/' else c

/-- A path as it appears in an entry, with slashes for separators. -/
def normalized (path : Path) : String :=
  String.ofList (withSlashes (Utf8.lossyChars path.bytes))

end Path

end CacheManifest
