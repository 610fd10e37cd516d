/-
# Every address leads to its file

An address is made for a client that joins it to the project root. If all names on
the way are text, and no directory has a backslash in its name, the address spells
just these names, and the joined path takes the same steps as the path the walk
found the file by, except that it goes straight there. Whatever was written between
the names, be it a leading `./`, a doubled slash or an inner dot, stays where it is;
leaving it out leads to the same directory and makes the path no longer.

The last name may be that of a link. The address names the link and does not follow
it, which is why the file is compared by the place of its entry.
-/

import CacheManifest.Proofs.Filesystem.Passages
import CacheManifest.Proofs.Manifest.Segments
import CacheManifest.Proofs.Scan.Collection

namespace CacheManifest

open Pieces (led)
open Scan (Entered Listable Listing Unwanted relativePath spelled)

namespace Path

/-- A relative path made of names and of dots that stay where they are. -/
def Plain (path : Path) : Prop := ∀ step ∈ path.components, step ≠ .root ∧ step ≠ .up

instance (path : Path) : Decidable path.Plain := by
  unfold Plain
  infer_instance

theorem Plain.relative {path : Path} (plain : path.Plain) : path.isAbsolute = false := by
  by_contra absolute
  rw [Bool.not_eq_false] at absolute
  refine (plain .root ?_).1 rfl
  rw [components_of_isAbsolute absolute]
  exact List.mem_cons_self

/-- Every component of a plain path that is not a dot is a name. -/
theorem Plain.bearingSegments_eq {path : Path} (plain : path.Plain) :
    path.bearingSegments = path.names := by
  rw [names_eq, eq_comm, List.filter_eq_self]
  intro segment inside
  rw [decide_eq_true_eq]
  rintro rfl
  refine (plain .up ?_).2 rfl
  rw [components_eq]
  exact List.mem_append_right _ (List.mem_map.mpr ⟨dotDot, inside, rfl⟩)

/-- A path is text exactly if its segments are. -/
theorem wellFormed_ofSegments {parts : List Bytes} :
    Utf8.WellFormed (ofSegments parts) ↔ ∀ part ∈ parts, Utf8.WellFormed part := by
  induction parts with
  | nil => simp [show Utf8.WellFormed [] by decide]
  | cons first others ih =>
      cases others with
      | nil => simp
      | cons second others =>
          rw [ofSegments_cons_cons, Utf8.wellFormed_append_cons (by decide), ih,
            ← List.forall_mem_cons]

theorem encodeChars_intercalate (parts : List (List Char)) :
    Utf8.encodeChars (['/'].intercalate parts) = ofSegments (parts.map Utf8.encodeChars) := by
  induction parts with
  | nil => rfl
  | cons first others ih =>
      cases others with
      | nil => simp [List.intercalate]
      | cons second others =>
          rw [List.map_cons, List.map_cons, ofSegments_cons_cons, ← List.map_cons, ← ih]
          simp [List.intercalate, Utf8.encodeChars]
          rfl

/-- Segments that spell components, written with slashes between them, make a relative
path. -/
theorem not_isAbsolute_ofSegments {parts : List Bytes}
    (spell : ∀ part ∈ parts, bearing part = true ∧ slash ∉ part) :
    (Path.mk (ofSegments parts)).isAbsolute = false := by
  cases parts with
  | nil => rfl
  | cons first others =>
      obtain ⟨spells, whole⟩ := spell first List.mem_cons_self
      obtain ⟨byte, rest, rfl⟩ :=
        List.exists_cons_of_ne_nil (show first ≠ [] by rintro rfl; cases spells)
      have other : byte ≠ slash := fun separator => whole (separator ▸ List.mem_cons_self)
      have begins : (ofSegments ((byte :: rest) :: others)).head? = some byte := by
        cases others with
        | nil => simp
        | cons second others => simp [ofSegments_cons_cons]
      simp [isAbsolute, begins, other]

/-- Joined to a root, such a path appends its segments. -/
theorem segments_join_ofSegments {root : Path} (written : root.bytes ≠ []) {parts : List Bytes}
    (some_part : parts ≠ []) (spell : ∀ part ∈ parts, bearing part = true ∧ slash ∉ part) :
    segments (root.join ⟨ofSegments parts⟩).bytes = segments root.stem ++ parts := by
  rw [bytes_join written (not_isAbsolute_ofSegments spell), segments_append_slash,
    segments_ofSegments some_part fun part inside => (spell part inside).2]

/-- The names of a directory and of a place below it spell components. -/
theorem spell_of_mem_names (directory : Path) (place : Location) :
    ∀ name ∈ directory.names ++ place.map Name.bytes, bearing name = true ∧ slash ∉ name := by
  rw [List.forall_mem_append, List.forall_mem_map]
  constructor
  · intro name inside
    obtain ⟨-, nonempty, not_dot, -⟩ := mem_names.mp inside
    exact ⟨by simp [bearing, nonempty, not_dot], slash_not_mem_of_mem_names inside⟩
  · intro name _
    exact ⟨name.bearing_bytes, name.slash_not_mem⟩

theorem filter_bearing_names (directory : Path) (place : Location) :
    (directory.names ++ place.map Name.bytes).filter bearing =
      directory.names ++ place.map Name.bytes := by
  rw [List.filter_eq_self]
  exact fun name inside => (spell_of_mem_names directory place name inside).1

end Path

namespace Entry

/-- The path that an address spells from the project root on. -/
def relative (entry : Entry) : Path := ⟨Utf8.encodeChars entry.path.toList.tail⟩

/-- What an entry says about the file at a place below a directory of the project:
its address begins with one slash and has no segment that is empty or reserved, and
joined to the project root it takes the same steps as the path of the file and leads
to the same entry of the same directory. -/
structure Addresses (fs : Filesystem) (root directory : Path) (base place : Location)
    (entry : Entry) : Prop where
  start : ∃ first rest, entry.path.toList = '/' :: first :: rest ∧ first ≠ '/'
  segments : ∀ segment ∈ (entry.path.toList.splitOn '/').tail,
    segment ≠ [] ∧ segment ≠ ['.'] ∧ segment ≠ ['.', '.']
  components : (root.join entry.relative).components =
    (spelled (root.join directory) place).components
  leads : fs.entryPlace (root.join entry.relative) = .ok (base ++ place)

/-- Names on the way to a file that its address shows as they are: text, and without
a backslash except in the last one. -/
structure Legible (place : Location) : Prop where
  text : ∀ name ∈ place, Utf8.WellFormed name.bytes
  no_backslash : ∀ name ∈ place.dropLast, Path.backslash ∉ name.bytes

section Names

variable {directory : Path} {place : Location} (text : Utf8.WellFormed directory.bytes)
  (no_backslash : Path.backslash ∉ directory.bytes) (legible : Legible place) (below : place ≠ [])

include text no_backslash legible below

/-- The names on the way to a file are text, and the segments of its address are
these names. -/
theorem segments_eq_names :
    (∀ name ∈ directory.names ++ place.map Name.bytes, Utf8.WellFormed name) ∧
      segments directory place =
        (directory.names ++ place.map Name.bytes).map Utf8.lossyChars := by
  have cut {name : Bytes} (inside : name ∈ directory.names) :
      name ∈ Path.segments directory.bytes := (Path.mem_names.mp inside).1
  constructor
  · rw [List.forall_mem_append, List.forall_mem_map]
    refine ⟨fun name inside => ?_, legible.text⟩
    rw [← Path.ofSegments_segments directory.bytes, Path.wellFormed_ofSegments] at text
    exact text name (cut inside)
  · apply segments_eq_map below
    rw [directoryNames, List.forall_mem_append, List.forall_mem_map]
    refine ⟨fun name inside marked => ?_, legible.no_backslash⟩
    apply no_backslash
    rw [← Path.ofSegments_segments directory.bytes, Path.mem_ofSegments (by decide)]
    exact ⟨name, cut inside, marked⟩

/-- The address spells the names on the way to the file. -/
theorem bytes_relative :
    (Entry.ofFile directory (relativePath place)).relative.bytes =
      Path.ofSegments (directory.names ++ place.map Name.bytes) := by
  obtain ⟨textual, shown⟩ := segments_eq_names text no_backslash legible below
  have some_segment : segments directory place ≠ [] := by
    rw [shown]
    simp [below]
  have spelled_out : (Entry.ofFile directory (relativePath place)).path.toList =
      '/' :: ['/'].intercalate (segments directory place) := by
    rw [← Pieces.led_eq_cons_intercalate some_segment]
    exact toList_address below
  have read_back : (segments directory place).map Utf8.encodeChars =
      directory.names ++ place.map Name.bytes := by
    rw [shown, Utf8.map_encodeChars_lossyChars textual]
  rw [relative, spelled_out, List.tail_cons, Path.encodeChars_intercalate, read_back]

/-- No segment of the address is empty or reserved. -/
theorem forall_segments :
    ∀ segment ∈ segments directory place,
      segment ≠ [] ∧ segment ≠ ['.'] ∧ segment ≠ ['.', '.'] := by
  obtain ⟨textual, shown⟩ := segments_eq_names text no_backslash legible below
  have proper : ∀ name ∈ directory.names ++ place.map Name.bytes,
      name ≠ [] ∧ name ≠ Path.dot ∧ name ≠ Path.dotDot := by
    rw [List.forall_mem_append, List.forall_mem_map]
    exact ⟨fun name inside => (Path.mem_names.mp inside).2,
      fun name _ => ⟨name.bytes_ne_nil, name.bytes_ne_dot, name.bytes_ne_dotDot⟩⟩
  rw [shown, List.forall_mem_map]
  intro name inside
  obtain ⟨nonempty, not_dot, not_dotDot⟩ := proper name inside
  have back := Utf8.encodeChars_lossyChars (textual name inside)
  refine ⟨?_, ?_, ?_⟩
  · intro empty
    exact nonempty (by rw [← back, empty]; rfl)
  · intro reserved
    exact not_dot (by rw [← back, reserved]; rfl)
  · intro reserved
    exact not_dotDot (by rw [← back, reserved]; rfl)

/-- The address begins with one slash. -/
theorem exists_start :
    ∃ first rest, led '/' (segments directory place) = '/' :: first :: rest ∧ first ≠ '/' := by
  have some_segment : segments directory place ≠ [] := by
    rw [(segments_eq_names text no_backslash legible below).2]
    simp [below]
  obtain ⟨segment, others, shape⟩ := List.exists_cons_of_ne_nil some_segment
  have inside : segment ∈ segments directory place := shape ▸ List.mem_cons_self
  obtain ⟨first, rest, rfl⟩ :=
    List.exists_cons_of_ne_nil (forall_segments text no_backslash legible below segment inside).1
  refine ⟨first, rest ++ led '/' others, by rw [shape]; rfl, ?_⟩
  rintro rfl
  exact slash_not_mem_of_mem_segments inside List.mem_cons_self

end Names

section Steps

variable {root directory : Path} (absolute : root.isAbsolute = true) (plain : directory.Plain)

include absolute plain

/-- The names lead from the project root along the components of the path that a
file is found by. -/
theorem components_join_names {place : Location} (below : place ≠ []) :
    (root.join ⟨Path.ofSegments (directory.names ++ place.map Name.bytes)⟩).components =
      (spelled (root.join directory) place).components := by
  have written := Path.bytes_ne_nil_of_isAbsolute absolute
  have spell := Path.spell_of_mem_names directory place
  have cut : Path.bearingSegments ⟨Path.ofSegments (directory.names ++ place.map Name.bytes)⟩ =
      directory.names ++ place.map Name.bytes := by
    rw [Path.bearingSegments, Path.segments_ofSegments (by simp [below])
      fun name inside => (spell name inside).2, Path.filter_bearing_names]
  rw [Path.components_of_isAbsolute (Path.isAbsolute_join absolute _),
    Path.components_of_isAbsolute (Scan.isAbsolute_spelled_join absolute directory place),
    Path.bearingSegments_join written (Path.not_isAbsolute_ofSegments spell), cut,
    Path.bearingSegments_spelled written plain.relative, plain.bearingSegments_eq,
    List.append_assoc]

/-- Both paths begin like the root. Behind it, the names are among the segments of the
path that the walk takes, and what that path has besides is left out of its components. -/
theorem names_within_spelled (front : Location) {inner : List Bytes}
    (start : Path.segments root.stem = [] :: inner) :
    (inner ++ directory.names ++ front.map Name.bytes).Sublist
        (spelled (root.join directory) front).spelling.body ∧
      (inner ++ directory.names ++ front.map Name.bytes).filter Path.bearing =
        (spelled (root.join directory) front).spelling.body.filter Path.bearing := by
  have written := Path.bytes_ne_nil_of_isAbsolute absolute
  obtain ⟨-, cut⟩ :=
    Path.spelling_of_isAbsolute (Scan.isAbsolute_spelled_join absolute directory front)
  constructor
  · have sublist := Path.sublist_segments_spelled written plain.relative front
    rwa [cut, start, plain.bearingSegments_eq, List.cons_append, List.cons_append,
      List.cons_sublist_cons] at sublist
  · have root_bears : inner.filter Path.bearing = root.bearingSegments := by
      rw [← Path.bearingSegments_stem, Path.bearingSegments, start]
      rfl
    rw [Path.filter_bearing_body, Path.bearingSegments_spelled written plain.relative,
      plain.bearingSegments_eq, List.append_assoc, List.filter_append, root_bears,
      Path.filter_bearing_names, List.append_assoc]

/-- The names lead from the project root to the entry of the file, if its directory
is found by the path of the walk. -/
theorem entryPlace_join_names {fs : Filesystem} {base front : Location} {last : Name}
    {node : Node}
    (located : fs.locate (spelled (root.join directory) front) = .ok (base ++ front))
    (there : fs.top.at? (base ++ front) = some node) (inside : node.isDirectory = true) :
    fs.entryPlace
        (root.join ⟨Path.ofSegments (directory.names ++ (front ++ [last]).map Name.bytes)⟩) =
      .ok (base ++ (front ++ [last])) := by
  have found_absolute := Scan.isAbsolute_spelled_join absolute directory front
  generalize joined : root.join
    ⟨Path.ofSegments (directory.names ++ (front ++ [last]).map Name.bytes)⟩ = path
  have path_absolute : path.isAbsolute = true := joined ▸ Path.isAbsolute_join absolute _
  obtain ⟨head, inner, start⟩ := List.exists_cons_of_ne_nil (Path.segments_ne_nil root.stem)
  obtain ⟨-, cut⟩ := Path.spelling_of_isAbsolute path_absolute
  obtain ⟨-, found_cut⟩ := Path.spelling_of_isAbsolute found_absolute
  have shape : Path.segments path.bytes =
      head :: (inner ++ directory.names ++ front.map Name.bytes) ++ [last.bytes] := by
    rw [← joined, Path.segments_join_ofSegments (Path.bytes_ne_nil_of_isAbsolute absolute)
      (by simp) (Path.spell_of_mem_names _ _), start]
    simp
  obtain ⟨rfl, ends⟩ := List.cons_eq_cons.mp (cut.symm.trans shape)
  obtain ⟨sublist, same⟩ := names_within_spelled absolute plain front start
  have parent_located := Filesystem.locate_of_sublist
    ((Path.path_spelling_of_isAbsolute found_absolute).symm ▸ located) there inside
    (fun segment listed => Path.slash_not_mem_of_mem_segments
      (found_cut ▸ List.mem_cons_of_mem _ listed))
    ((Path.trimmedEnd_sublist _).trans sublist)
    ((Path.filter_bearing_trimmedEnd _).trans same)
  have named : path.fileName.bind Name.ofBytes? = some last := by
    rw [Path.fileName_of_isAbsolute path_absolute ends last.bearing_bytes, last.component_bytes]
    simp [Path.Component.name?, Name.ofBytes?, last.valid]
  simp only [Filesystem.entryPlace, named,
    Path.parent_of_isAbsolute path_absolute ends last.bearing_bytes]
  rw [if_neg (show (Path.Spelling.mk .root _).path.bytes ≠ [] from List.cons_ne_nil _ _),
    parent_located, ← List.append_assoc]
  rfl

end Steps

/-- The entry of a file that a scan lists addresses it. -/
theorem addresses_of_listable {fs : Filesystem} {config : Config} {root directory : Path}
    {base place : Location} (absolute : root.isAbsolute = true) (plain : directory.Plain)
    (text : Utf8.WellFormed directory.bytes) (no_backslash : Path.backslash ∉ directory.bytes)
    (legible : Legible place) (sound : Scan.Sound fs config (root.join directory))
    (located : fs.locate (root.join directory) = .ok base)
    (listable : Listable fs config (root.join directory) base place) :
    Addresses fs root directory base place (Entry.ofFile directory (relativePath place)) := by
  have below := listable.below
  have spelled_out : (Entry.ofFile directory (relativePath place)).path.toList =
      led '/' (segments directory place) := toList_address below
  have proper := forall_segments text no_backslash legible below
  have target := bytes_relative text no_backslash legible below
  have target_path : (Entry.ofFile directory (relativePath place)).relative =
      ⟨Path.ofSegments (directory.names ++ place.map Name.bytes)⟩ := congrArg Path.mk target
  obtain ⟨front, last, rfl⟩ := List.eq_nil_or_concat' place |>.resolve_left below
  refine ⟨?_, ?_, ?_, ?_⟩
  · rw [spelled_out]
    exact exists_start text no_backslash legible below
  · have cut : (Entry.ofFile directory (relativePath (front ++ [last]))).path.toList.splitOn '/' =
        [] :: segments directory (front ++ [last]) := splitOn_address below
    rw [cut]
    exact proper
  · rw [target_path]
    exact components_join_names absolute plain below
  · have entered : Entered fs config base front := by
      rcases listable.kind with ⟨permissions, content, there⟩ | ⟨⟨linked, there⟩, -⟩
      · exact Scan.entered_of_isPrefix there listable.unpruned (List.prefix_append _ _) (by simp)
      · exact Scan.entered_of_isPrefix there listable.unpruned (List.prefix_append _ _) (by simp)
    obtain ⟨node, there, inside⟩ := entered.directory
    rw [target_path]
    exact entryPlace_join_names absolute plain (sound.locate_entered located entered) there inside

end Entry

namespace Scan

/-- What an entry says about a listed file holds if the names are legible. -/
theorem scan_addresses {fs : Filesystem} {root directory : Path} {config : Config}
    (absolute : root.isAbsolute = true) (plain : directory.Plain)
    (text : Utf8.WellFormed directory.bytes) (no_backslash : Path.backslash ∉ directory.bytes)
    (legible : ∀ base place, fs.locate (root.join directory) = .ok base →
      Listable fs config (root.join directory) base place ∧ ¬ Unwanted config place →
        Entry.Legible place)
    {found : List Entry} (succeeded : (scan fs root directory config).outcome = .ok found) :
    ∃ base places, fs.locate (root.join directory) = .ok base ∧
      Listing fs config (root.join directory) base places ∧
        (found = places.map fun place => Entry.ofFile directory (relativePath place)) ∧
          ∀ place ∈ places, Entry.Addresses fs root directory base place
            (Entry.ofFile directory (relativePath place)) := by
  obtain ⟨base, places, located, listing, rfl⟩ := exists_listing absolute succeeded
  have sound := (scan_eq_ok_iff absolute).mp ⟨_, succeeded⟩
  refine ⟨base, places, located, listing, rfl, ?_⟩
  intro place inside
  have listed := (listing.mem_iff place).mp inside
  exact Entry.addresses_of_listable absolute plain text no_backslash
    (legible base place located listed) sound located listed.1

/-- The source directory may be spelled in any way: from the project root, the two
addresses lead into the directory behind the link. -/
theorem scan_addresses_linked :
    (scan linked (.ofString "/") (.ofString "./src/") .default).outcome =
        .ok [⟨"./src/", "/src/a.js"⟩, ⟨"./src/", "/src/gone"⟩] ∧
      ∃ base places, linked.locate (Path.join (.ofString "/") (.ofString "./src/")) = .ok base ∧
        Listing linked .default (Path.join (.ofString "/") (.ofString "./src/")) base places ∧
          ([⟨"./src/", "/src/a.js"⟩, ⟨"./src/", "/src/gone"⟩] = places.map fun place =>
            Entry.ofFile (.ofString "./src/") (relativePath place)) ∧
            ∀ place ∈ places, Entry.Addresses linked (.ofString "/") (.ofString "./src/") base
              place (Entry.ofFile (.ofString "./src/") (relativePath place)) := by
  have succeeded : (scan linked (.ofString "/") (.ofString "./src/") .default).outcome =
      .ok [⟨"./src/", "/src/a.js"⟩, ⟨"./src/", "/src/gone"⟩] := by rfl
  have plain_names : linked.top.everyName (fun name =>
      decide (Utf8.WellFormed name.bytes ∧ Path.backslash ∉ name.bytes)) = true := by decide
  have legible (base place : Location)
      (_ : linked.locate (Path.join (.ofString "/") (.ofString "./src/")) = .ok base)
      (listed : Listable linked .default (Path.join (.ofString "/") (.ofString "./src/")) base
        place ∧ ¬ Unwanted .default place) : Entry.Legible place := by
    have holds : (Visit.listed place).Holds linked .default
        (Path.join (.ofString "/") (.ofString "./src/")) base := listed
    obtain ⟨found, there⟩ := holds.exists_at
    have shown (name : Name) (inside : name ∈ place) :
        Utf8.WellFormed name.bytes ∧ Path.backslash ∉ name.bytes :=
      of_decide_eq_true (Node.forall_of_everyName plain_names there name
        (List.mem_append_right _ inside))
    exact ⟨fun name inside => (shown name inside).1,
      fun name inside => (shown name (List.dropLast_subset _ inside)).2⟩
  exact ⟨succeeded,
    scan_addresses (by decide) (by decide) (by decide) (by decide) legible succeeded⟩

end Scan

end CacheManifest
