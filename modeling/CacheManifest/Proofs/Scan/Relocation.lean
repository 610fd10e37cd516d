/-
# Scans of the same tree in another place

Two source directories contain the same tree if the same names lead to the same kinds of
nodes, the same directories can be listed, and the same links lead to a directory. What is
in a file, where a link points and how deep the whole lies in its file system make no
difference to a scan, and neither does the spelling of the two paths: an address has the
names of the source directory, and dots and slashes between them leave no trace.

A failure shows the path of the walk. What two failures share is the place below the source
directory; why the directory there cannot be listed may differ.
-/

import CacheManifest.Proofs.Scan.Canonical
import CacheManifest.Proofs.Scan.Relisting

namespace CacheManifest

namespace Node

/-- What a node is, apart from all that is in it. -/
inductive Kind where
  | file
  | link
  | pipe
  | directory
deriving DecidableEq

/-- The kind of a node. -/
def kind : Node → Kind
  | .file _ _ => .file
  | .link _ => .link
  | .pipe => .pipe
  | .directory _ _ _ _ => .directory

/-- The kind of what stands at a place, if anything does. -/
def kindAt (node : Node) (place : Location) : Option Kind := (node.at? place).map kind

variable {node : Node} {place : Location}

theorem kindAt_eq_file_iff : node.kindAt place = some .file ↔
    ∃ permissions content, node.at? place = some (.file permissions content) := by
  rw [kindAt, Option.map_eq_some_iff]
  refine ⟨?_, ?_⟩
  · rintro ⟨found, there, same⟩
    cases found with
    | file permissions content => exact ⟨permissions, content, there⟩
    | link | pipe | directory => cases same
  · rintro ⟨permissions, content, there⟩
    exact ⟨_, there, rfl⟩

theorem kindAt_eq_link_iff : node.kindAt place = some .link ↔
    ∃ target, node.at? place = some (.link target) := by
  rw [kindAt, Option.map_eq_some_iff]
  refine ⟨?_, ?_⟩
  · rintro ⟨found, there, same⟩
    cases found with
    | link target => exact ⟨target, there⟩
    | file | pipe | directory => cases same
  · rintro ⟨target, there⟩
    exact ⟨_, there, rfl⟩

theorem kindAt_eq_directory_iff : node.kindAt place = some .directory ↔
    ∃ found, node.at? place = some found ∧ found.isDirectory = true := by
  rw [kindAt, Option.map_eq_some_iff]
  refine exists_congr fun found => and_congr_right fun _ => ?_
  cases found <;> simp [kind, isDirectory]

/-- All places of a tree. -/
def places : Node → List Location
  | .directory _ names _ child =>
    [] :: names.flatMap fun name => (child name).places.map fun place => name :: place
  | _ => [[]]

theorem mem_places_of_at? {found : Node} (there : node.at? place = some found) :
    place ∈ node.places := by
  induction place generalizing node with
  | nil => cases node <;> exact List.mem_cons_self
  | cons name rest ih =>
      obtain ⟨next, entry, below⟩ := Option.bind_eq_some_iff.mp there
      obtain ⟨permissions, names, distinct, child, rfl⟩ :=
        exists_of_isDirectory (isDirectory_of_child? entry)
      rw [child?_directory] at entry
      split at entry
      · next listed =>
          cases entry
          exact List.mem_cons_of_mem _ (List.mem_flatMap.mpr
            ⟨name, listed, List.mem_map.mpr ⟨rest, ih below, rfl⟩⟩)
      · cases entry

end Node

namespace Scan

/-- The directory that a path leads to contains the same tree as the one that another path
leads to, in the same file system or another. -/
structure SameTree (fs other : Filesystem) (origin twin : Path) (base counterpart : Location) :
    Prop where
  located : fs.locate origin = .ok base
  relocated : other.locate twin = .ok counterpart
  directory : fs.top.kindAt base = some .directory
  kinds : ∀ place, other.top.kindAt (counterpart ++ place) = fs.top.kindAt (base ++ place)
  listable : ∀ place, fs.top.kindAt (base ++ place) = some .directory →
    ((∃ names, other.list (spelled twin place) = .ok names) ↔
      ∃ names, fs.list (spelled origin place) = .ok names)
  links : ∀ place, fs.top.kindAt (base ++ place) = some .link →
    other.isDirectory (spelled twin place) = fs.isDirectory (spelled origin place)

variable {fs other : Filesystem} {config : Config} {root home directory spelling origin twin : Path}
  {base counterpart place : Location}

theorem SameTree.symm (same : SameTree fs other origin twin base counterpart) :
    SameTree other fs twin origin counterpart base where
  located := same.relocated
  relocated := same.located
  directory := by
    have start := same.kinds []
    rw [List.append_nil, List.append_nil, same.directory] at start
    exact start
  kinds place := (same.kinds place).symm
  listable place inside := (same.listable place (same.kinds place ▸ inside)).symm
  links place inside := (same.links place (same.kinds place ▸ inside)).symm

/-! ## What both walks meet -/

theorem Entered.kindAt (entered : Entered fs config base place) :
    fs.top.kindAt (base ++ place) = some .directory :=
  Node.kindAt_eq_directory_iff.mpr entered.directory

section Relocated

variable (same : SameTree fs other origin twin base counterpart)

include same

theorem Entered.relocated (entered : Entered fs config base place) :
    Entered other config counterpart place where
  directory := by
    rw [← Node.kindAt_eq_directory_iff, same.kinds]
    exact entered.kindAt
  unpruned := entered.unpruned

theorem Listable.relocated (listable : Listable fs config origin base place) :
    Listable other config twin counterpart place where
  below := listable.below
  kind := by
    rw [← Node.kindAt_eq_file_iff, ← Node.kindAt_eq_link_iff, same.kinds]
    refine listable.kind.imp Node.kindAt_eq_file_iff.mpr fun ⟨linked, nowhere⟩ => ?_
    have there := Node.kindAt_eq_link_iff.mpr linked
    exact ⟨there, (same.links place there).trans nowhere⟩
  unpruned := listable.unpruned

theorem listable_relocated_iff :
    Listable other config twin counterpart place ↔ Listable fs config origin base place :=
  ⟨Listable.relocated same.symm, Listable.relocated same⟩

theorem Listing.relocated {places : List Location}
    (listing : Listing fs config origin base places) :
    Listing other config twin counterpart places where
  ordered := listing.ordered
  mem_iff place := by rw [listing.mem_iff, listable_relocated_iff same]

theorem Sound.relocated (sound : Sound fs config origin) : Sound other config twin where
  directory := by
    obtain ⟨found, there, inside⟩ :=
      Node.kindAt_eq_directory_iff.mp same.symm.directory
    exact Filesystem.isDirectory_iff.mpr ⟨counterpart, found, same.relocated, there, inside⟩
  listed start place located entered := by
    cases same.relocated.symm.trans located
    have entered_here : Entered fs config base place := entered.relocated same.symm
    exact (same.listable place entered_here.kindAt).mpr
      (sound.listed base place same.located entered_here)

/-- Where one directory cannot be listed, its counterpart cannot be either. -/
theorem SameTree.exists_refused (entered : Entered fs config base place) {cause : SystemError}
    (refused : fs.list (spelled origin place) = .error cause) :
    ∃ reason, other.list (spelled twin place) = .error reason := by
  cases listing : other.list (spelled twin place) with
  | error reason => exact ⟨reason, rfl⟩
  | ok names =>
      obtain ⟨found, listed⟩ := (same.listable place entered.kindAt).mp ⟨names, listing⟩
      cases refused.symm.trans listed

theorem FirstUnlistable.relocated {cause : SystemError}
    (unlistable : FirstUnlistable fs config origin base place cause) :
    ∃ reason, FirstUnlistable other config twin counterpart place reason := by
  obtain ⟨reason, refused⟩ := same.exists_refused unlistable.entered unlistable.refused
  refine ⟨reason, unlistable.entered.relocated same, refused, ?_⟩
  intro earlier why entered refused_earlier
  obtain ⟨what, refused_here⟩ := same.symm.exists_refused entered refused_earlier
  exact unlistable.first earlier what (entered.relocated same.symm) refused_here

end Relocated

/-! ## What both scans come to -/

/-- Two scans that come to the same but for the spelling of their source directories: the same
addresses in the same order, or a failure of the walk at the same place. -/
inductive Counterparts (origin twin directory spelling : Path) :
    Except Failure (List Entry) → Except Failure (List Entry) → Prop where
  | found (entries : List Entry)
    (written : ∀ entry ∈ entries, entry.sourceDir = directory.normalized) :
    Counterparts origin twin directory spelling (.ok entries)
      (.ok (entries.map fun entry => { entry with sourceDir := spelling.normalized }))
  | obstructed (place : Location) (cause reason : SystemError) :
    Counterparts origin twin directory spelling
      (.error (.walk origin (spelled origin place) cause))
      (.error (.walk twin (spelled twin place) reason))

/-- An address has the names of the source directory and nothing else of its spelling. -/
theorem ofFile_eq_of_names (names : spelling.names = directory.names) (relative : Path) :
    Entry.ofFile spelling relative =
      { Entry.ofFile directory relative with sourceDir := spelling.normalized } := by
  simp only [Entry.ofFile, Entry.address, Entry.addressChars, names]

/-- Where the project lives and how its source directory is spelled make no difference to a
scan. -/
theorem scan_relocated (absolute : root.isAbsolute = true) (home_absolute : home.isAbsolute = true)
    (names : spelling.names = directory.names)
    (same : SameTree fs other (root.join directory) (home.join spelling) base counterpart)
    (config : Config) :
    Counterparts (root.join directory) (home.join spelling) directory spelling
      (scan fs root directory config).outcome (scan other home spelling config).outcome := by
  cases outcome : (scan fs root directory config).outcome with
  | ok found =>
      obtain ⟨start, places, located, listing, rfl⟩ := exists_listing absolute outcome
      cases same.located.symm.trans located
      have sound := (scan_eq_ok_iff absolute).mp ⟨_, outcome⟩
      have respelled : (places.map fun place => Entry.ofFile spelling (relativePath place)) =
          (places.map fun place => Entry.ofFile directory (relativePath place)).map
            fun entry => { entry with sourceDir := spelling.normalized } := by
        rw [List.map_map]
        exact List.map_congr_left fun place _ => ofFile_eq_of_names names (relativePath place)
      rw [scan_of_listing home_absolute (sound.relocated same) same.relocated
        (listing.relocated same), respelled]
      refine .found _ ?_
      rintro entry inside
      obtain ⟨place, -, rfl⟩ := List.mem_map.mp inside
      rfl
  | error failure =>
      obtain ⟨start, begins, inside⟩ := Node.kindAt_eq_directory_iff.mp same.directory
      have lookup := ((scan_eq_error_iff absolute).mp outcome).lookup
      rw [Filesystem.metadata_of_locate same.located begins] at lookup
      dsimp only at lookup
      rw [if_pos inside] at lookup
      obtain ⟨other_base, place, cause, located, first, rfl⟩ := lookup
      cases same.located.symm.trans located
      obtain ⟨reason, first_again⟩ := first.relocated same
      rw [(scan_eq_error_iff home_absolute).mpr
        (.unlistable counterpart place reason same.relocated first_again)]
      exact .obstructed place cause reason

/-- A script, a link to nothing, and a directory beside them with a script in it, which may be
read or not. -/
def sources (readable : Bool) : Node :=
  .directory .newDirectory [scriptName, shortName, danglingName] (by decide) fun name =>
    if name = shortName then
      .directory ⟨readable, true, true⟩ [scriptName] (List.nodup_singleton _) fun _ =>
        .file .newFile []
    else if name = danglingName then .link (.ofString "nothing")
    else .file .newFile []

/-- The same sources in two projects, one of them in a directory of the other. -/
def nested (readable : Bool) : Filesystem where
  top :=
    .directory .newDirectory [hiddenName, sourceName] (by decide) fun outer =>
      if outer = sourceName then sources readable
      else .directory .newDirectory [sourceName] (List.nodup_singleton _) fun _ => sources readable
  workingDirectory := []

theorem place_in_sources {readable : Bool} {place : Location} :
    ((sources readable).kindAt place = some .directory → place = [] ∨ place = [shortName]) ∧
      ((sources readable).kindAt place = some .link → place = [danglingName]) := by
  have seen : ∀ readable, ∀ place ∈ (sources readable).places,
      ((sources readable).kindAt place = some .directory → place = [] ∨ place = [shortName]) ∧
        ((sources readable).kindAt place = some .link → place = [danglingName]) := by decide
  have among {kind : Node.Kind} (there : (sources readable).kindAt place = some kind) :
      place ∈ (sources readable).places := by
    obtain ⟨found, there, -⟩ := Option.map_eq_some_iff.mp there
    exact Node.mem_places_of_at? there
  exact ⟨fun there => (seen readable place (among there)).1 there,
    fun there => (seen readable place (among there)).2 there⟩

theorem sameTree_nested (readable : Bool) :
    SameTree (nested readable) (nested readable) (Path.join (.ofString "/") (.ofString "src"))
      (Path.join (.ofString "/.svn") (.ofString "./src//")) [sourceName]
      [hiddenName, sourceName] := by
  have kinds (place : Location) :
      (nested readable).top.kindAt ([sourceName] ++ place) = (sources readable).kindAt place := by
    rw [Node.kindAt, Node.at?_append]
    rfl
  refine ⟨rfl, rfl, rfl, ?_, ?_, ?_⟩
  · intro place
    rw [kinds, Node.kindAt, Node.at?_append]
    rfl
  · intro place inside
    rcases place_in_sources.1 ((kinds place).symm.trans inside) with rfl | rfl
    · exact iff_of_true ⟨_, rfl⟩ ⟨_, rfl⟩
    · exact Iff.rfl
  · intro place linked
    obtain rfl := place_in_sources.2 ((kinds place).symm.trans linked)
    cases readable <;> decide +kernel

/-- Both scans list the same addresses. If the directory in the sources cannot be read, both
fail there. -/
theorem scan_relocated_nested :
    (scan (nested true) (.ofString "/") (.ofString "src") .default).outcome =
        .ok [⟨"src", "/src/a/a.js"⟩, ⟨"src", "/src/a.js"⟩, ⟨"src", "/src/gone"⟩] ∧
      (scan (nested false) (.ofString "/") (.ofString "src") .default).outcome =
        .error (.walk (.ofString "/src") (.ofString "/src/a") .permissionDenied) ∧
      Counterparts (.ofString "/src") (.ofString "/.svn/./src//") (.ofString "src")
        (.ofString "./src//")
        (.ok [⟨"src", "/src/a/a.js"⟩, ⟨"src", "/src/a.js"⟩, ⟨"src", "/src/gone"⟩])
        (scan (nested true) (.ofString "/.svn") (.ofString "./src//") .default).outcome ∧
      Counterparts (.ofString "/src") (.ofString "/.svn/./src//") (.ofString "src")
        (.ofString "./src//")
        (.error (.walk (.ofString "/src") (.ofString "/src/a") .permissionDenied))
        (scan (nested false) (.ofString "/.svn") (.ofString "./src//") .default).outcome := by
  have succeeded : (scan (nested true) (.ofString "/") (.ofString "src") .default).outcome =
      .ok [⟨"src", "/src/a/a.js"⟩, ⟨"src", "/src/a.js"⟩, ⟨"src", "/src/gone"⟩] := by rfl
  have failed : (scan (nested false) (.ofString "/") (.ofString "src") .default).outcome =
      .error (.walk (.ofString "/src") (.ofString "/src/a") .permissionDenied) := by rfl
  refine ⟨succeeded, failed, ?_, ?_⟩
  · rw [← succeeded]
    exact scan_relocated (by decide) (by decide) (by decide) (sameTree_nested _) .default
  · rw [← failed]
    exact scan_relocated (by decide) (by decide) (by decide) (sameTree_nested _) .default

end Scan

end CacheManifest
