/-
# Trees of files, directories, links and pipes

A file system is a finite tree. A directory carries the list of its names, in
no particular order, and a node for each of them; that the names are distinct
is part of the directory. A place in the tree is the list of names that leads
to it from the top, so it passes through directories only and never through a
link.

Owners, times and hard links are not modelled: of a node's mode only what its
owner may do is kept.
-/

import CacheManifest.Path

namespace CacheManifest

/-- What a directory may call an entry: neither empty nor a reserved segment,
at most 255 bytes, without a slash or a zero byte. -/
def Name.Valid (bytes : Bytes) : Prop :=
  bytes ≠ [] ∧ bytes.length ≤ 255 ∧ Path.slash ∉ bytes ∧ (0 : UInt8) ∉ bytes ∧
    bytes ≠ Path.dot ∧ bytes ≠ Path.dotDot

instance (bytes : Bytes) : Decidable (Name.Valid bytes) := by
  unfold Name.Valid
  infer_instance

/-- The name of a directory entry. -/
structure Name where
  bytes : Bytes
  valid : Name.Valid bytes
deriving DecidableEq

namespace Name

/-- Bytes as a name, if they can be one. -/
def ofBytes? (bytes : Bytes) : Option Name :=
  if valid : Name.Valid bytes then some ⟨bytes, valid⟩ else none

/-- The name as a path of one component. -/
def path (name : Name) : Path := ⟨name.bytes⟩

/-- The name as text. -/
def text (name : Name) : String := Utf8.decodeLossy name.bytes

/-- Names are ordered byte by byte. -/
def precedes (first second : Name) : Bool := decide (first.bytes < second.bytes)

/-- Put a name in front of the first one that it precedes. -/
def insertSorted (name : Name) : List Name → List Name
  | [] => [name]
  | first :: others =>
    if name.precedes first then name :: first :: others
    else first :: insertSorted name others

/-- Names in byte order. -/
def sorted : List Name → List Name
  | [] => []
  | first :: others => insertSorted first (sorted others)

end Name

/-- What the owner of a node may do with it. -/
structure Permissions where
  read : Bool
  write : Bool
  enter : Bool
deriving DecidableEq, Repr

namespace Permissions

/-- The permissions in a numeric mode: the third octal digit from the right. -/
def ofMode (mode : Nat) : Permissions :=
  let bits := mode / 64 % 8
  ⟨bits / 4 % 2 == 1, bits / 2 % 2 == 1, bits % 2 == 1⟩

/-- The permissions of a new file. -/
def newFile : Permissions := ⟨true, true, false⟩

/-- The permissions of a new directory. -/
def newDirectory : Permissions := ⟨true, true, true⟩

end Permissions

/-- A file, a symbolic link, a named pipe, or a directory with its entries. The
value of `child` counts for the listed names only. -/
inductive Node where
  | file (permissions : Permissions) (content : Bytes)
  | link (target : Path)
  | pipe
  | directory (permissions : Permissions) (names : List Name) (distinct : names.Nodup)
      (child : Name → Node)

/-- The names that lead from the top of a tree to a node. -/
abbrev Location := List Name

/-- The absolute path of a place. -/
def Location.path (location : Location) : Path :=
  ⟨Path.slash :: Path.ofSegments (location.map Name.bytes)⟩

namespace Node

instance : Inhabited Node := ⟨.pipe⟩

/-- A directory without entries. -/
def emptyDirectory : Node := .directory .newDirectory [] List.nodup_nil fun _ => .pipe

def isDirectory : Node → Bool
  | .directory .. => true
  | _ => false

def isFile : Node → Bool
  | .file .. => true
  | _ => false

/-- The entry of a directory under a name. -/
def child? (node : Node) (name : Name) : Option Node :=
  match node with
  | .directory _ names _ child => if name ∈ names then some (child name) else none
  | _ => none

/-- The node at a place. -/
def at? (node : Node) : Location → Option Node
  | [] => some node
  | name :: rest => (node.child? name).bind fun next => next.at? rest

theorem nodup_concat {names : List Name} {name : Name} (distinct : names.Nodup)
    (fresh : name ∉ names) : (names ++ [name]).Nodup := by
  rw [List.nodup_append]
  refine ⟨distinct, by simp, ?_⟩
  intro first hfirst second hsecond
  simp only [List.mem_singleton] at hsecond
  subst hsecond
  rintro rfl
  exact fresh hfirst

/-- Give a directory an entry, in place of the one of that name if there is
one. Other nodes have no entries and stay as they are. -/
def setChild (node : Node) (name : Name) (entry : Node) : Node :=
  match node with
  | .directory permissions names distinct child =>
    let child := fun other => if other = name then entry else child other
    if listed : name ∈ names then .directory permissions names distinct child
    else .directory permissions (names ++ [name]) (nodup_concat distinct listed) child
  | other => other

/-- Put an entry at a place. Every directory on the way has to exist; a place
that cannot be reached leaves the tree as it is. -/
def put (node : Node) : Location → Node → Node
  | [], entry => entry
  | name :: rest, entry =>
    match node.child? name with
    | some next => node.setChild name (next.put rest entry)
    | none =>
      match rest with
      | [] => node.setChild name entry
      | _ :: _ => node

/-- Take the entry of a name out of a directory. -/
def dropChild (node : Node) (name : Name) : Node :=
  match node with
  | .directory permissions names distinct child =>
    .directory permissions (names.filter fun other => other ≠ name) (distinct.filter _) child
  | other => other

/-- Remove what stands at a place, with all that is below it. -/
def remove (node : Node) : Location → Node
  | [] => node
  | [name] => node.dropChild name
  | name :: rest =>
    match node.child? name with
    | some next => node.setChild name (next.remove rest)
    | none => node

/-- Change the permissions of a file or directory. -/
def withPermissions (permissions : Permissions) : Node → Node
  | .file _ content => .file permissions content
  | .directory _ names distinct child => .directory permissions names distinct child
  | other => other

end Node

end CacheManifest
