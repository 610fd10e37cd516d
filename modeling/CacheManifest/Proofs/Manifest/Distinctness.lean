/-
# When no address occurs twice

Files have different addresses because the names on the way to them differ, as long
as the addresses show them. Three things could hide a difference. Names that are no
text read alike; here all names are text. A source directory may lie below another
one, so that their files are the same; here none does. And a backslash in the name of
a directory is read as a separator, so that a directory called `a\b` and a directory
`b` in a directory `a` look the same. This last one is all that is left, and it does
happen.
-/

import CacheManifest.Proofs.Filesystem.Passages
import CacheManifest.Proofs.Manifest.Segments
import CacheManifest.Proofs.Scan.Files

namespace CacheManifest

namespace Node

/-- Whether all names in a tree are text. -/
def isTextual (node : Node) : Bool := node.everyName fun name => decide (Utf8.WellFormed name.bytes)

/-- In a tree of text, every name on the way to something is text. -/
theorem wellFormed_of_mem {node found : Node} {place : Location}
    (textual : node.isTextual = true) (there : node.at? place = some found) {name : Name}
    (inside : name ∈ place) : Utf8.WellFormed name.bytes :=
  of_decide_eq_true (forall_of_everyName textual there name inside)

end Node

namespace Path

/-- Neither path has all the names of the other in front of its own. -/
structure Apart (first second : Path) : Prop where
  forward : ¬ first.names <+: second.names
  backward : ¬ second.names <+: first.names

instance (first second : Path) : Decidable (Apart first second) :=
  decidable_of_iff (¬ first.names <+: second.names ∧ ¬ second.names <+: first.names)
    ⟨fun ⟨forward, backward⟩ => ⟨forward, backward⟩,
      fun ⟨forward, backward⟩ => ⟨forward, backward⟩⟩

instance : Std.Symm Apart where
  symm _ _ apart := ⟨apart.backward, apart.forward⟩

theorem Apart.ne {first second : Path} (apart : Apart first second) : first ≠ second := by
  rintro rfl
  exact apart.forward List.prefix_rfl

end Path

namespace Scan

namespace File

/-- The names on the way to a file, from the project root on. -/
def names (file : File) : List Bytes := file.directory.names ++ file.place.map Name.bytes

/-- The segments of the address of a file. -/
def segments (file : File) : List (List Char) := Entry.segments file.directory file.place

/-- A file on the way to which a directory has a backslash in its name. -/
def Backslashed (file : File) : Prop :=
  ∃ name ∈ Entry.directoryNames file.directory file.place, Path.backslash ∈ name

end File

variable {fs : Filesystem} {root : Path} {config : Config} {file other : File}

/-- Files below source directories that are apart are told by the names on the way
to them. -/
theorem eq_of_names_eq (apart : config.sourceDirs.Pairwise Path.Apart)
    (listed : file.Listed fs root config) (other_listed : other.Listed fs root config)
    (same : file.names = other.names) : file = other := by
  have same_directory : file.directory = other.directory := by
    by_contra different
    have parted := apart.forall listed.configured other_listed.configured different
    have front : file.directory.names <+: other.names := same ▸ List.prefix_append _ _
    rcases List.prefix_or_prefix_of_prefix front (List.prefix_append _ _) with shorter | longer
    · exact parted.forward shorter
    · exact parted.backward longer
  have same_base : file.base = other.base := by
    have located := listed.located
    rw [same_directory, other_listed.located] at located
    exact (Except.ok.inj located).symm
  have same_place : file.place = other.place := by
    rw [File.names, File.names, same_directory, List.append_cancel_left_eq] at same
    exact List.map_injective_iff.mpr Name.bytes_injective same
  exact File.ext same_directory same_base same_place

/-- In a tree of text, the names on the way to a listed file are text. -/
theorem wellFormed_of_mem_names (textual : fs.top.isTextual = true)
    (listed : file.Listed fs root config) {name : Bytes} (inside : name ∈ file.names) :
    Utf8.WellFormed name := by
  rcases List.mem_append.mp inside with above | below
  · obtain ⟨entry, front, found, rfl, there⟩ :=
      Filesystem.exists_name_of_mem_names listed.located above
    exact Node.wellFormed_of_mem textual there (List.mem_append_right _ List.mem_cons_self)
  · obtain ⟨entry, own, rfl⟩ := List.mem_map.mp below
    obtain ⟨found, there⟩ := listed.exists_at
    exact Node.wellFormed_of_mem textual there (List.mem_append_right _ own)

/-- Without backslashes in directory names, the segments of addresses tell the names
on the way to a file. -/
theorem names_eq_of_segments_eq (textual : fs.top.isTextual = true)
    (listed : file.Listed fs root config) (other_listed : other.Listed fs root config)
    (plain : ¬ file.Backslashed) (other_plain : ¬ other.Backslashed)
    (same : file.segments = other.segments) : file.names = other.names := by
  have read_back {file : File} (listed : file.Listed fs root config) (plain : ¬ file.Backslashed) :
      file.segments.map Utf8.encodeChars = file.names := by
    rw [File.Backslashed, not_exists] at plain
    rw [File.segments, Entry.segments_eq_map listed.listable.below
      fun name inside marked => plain name ⟨inside, marked⟩]
    exact Utf8.map_encodeChars_lossyChars fun name => wellFormed_of_mem_names textual listed
  rw [← read_back listed plain, ← read_back other_listed other_plain, same]

/-- Addresses are told apart if they show the names: of two listed files with one
address, one has a backslash in the name of a directory on the way to it. -/
theorem backslashed_of_segments_eq (textual : fs.top.isTextual = true)
    (apart : config.sourceDirs.Pairwise Path.Apart)
    (listed : file.Listed fs root config) (other_listed : other.Listed fs root config)
    (different : file ≠ other) (same : file.segments = other.segments) :
    file.Backslashed ∨ other.Backslashed := by
  by_contra plain
  rw [not_or] at plain
  apply different
  apply eq_of_names_eq apart listed other_listed
  exact names_eq_of_segments_eq textual listed other_listed plain.1 plain.2 same

/-- Two listed files have the same entry path exactly if the segments of their addresses are
the same. -/
theorem path_entry_eq_iff (listed : file.Listed fs root config)
    (other_listed : other.Listed fs root config) :
    file.entry.path = other.entry.path ↔ file.segments = other.segments :=
  Entry.address_eq_iff listed.listable.below other_listed.listable.below

/-- What is collected has no path twice exactly if no two listed files have the same one,
that is the same segments. That takes a backslash in the name of a directory, so without
any all paths are different. -/
theorem collect_distinct (absolute : root.isAbsolute = true) (textual : fs.top.isTextual = true)
    (apart : config.sourceDirs.Pairwise Path.Apart) {entries : List Entry}
    (collected : (collect fs root config).outcome = .ok entries) :
    ((entries.map Entry.path).Nodup ↔
      ∀ file other : File, file.Listed fs root config → other.Listed fs root config →
        file.entry.path = other.entry.path → file = other) ∧
    (∀ file other : File, file.Listed fs root config → other.Listed fs root config →
      (file.entry.path = other.entry.path ↔ file.segments = other.segments)) ∧
    (∀ file other : File, file.Listed fs root config → other.Listed fs root config →
      file ≠ other → file.entry.path = other.entry.path →
        file.Backslashed ∨ other.Backslashed) ∧
    ((∀ file : File, file.Listed fs root config → ¬ file.Backslashed) →
      (entries.map Entry.path).Nodup) := by
  obtain ⟨files, rfl, members, unique⟩ := exists_files absolute collected
  have once : files.Nodup := unique (apart.imp Path.Apart.ne)
  have exact_condition : ((files.map File.entry).map Entry.path).Nodup ↔
      ∀ file other : File, file.Listed fs root config → other.Listed fs root config →
        file.entry.path = other.entry.path → file = other := by
    rw [List.map_map, List.nodup_map_iff_inj_on once]
    constructor
    · intro told file other listed other_listed
      exact told file ((members file).mpr listed) other ((members other).mpr other_listed)
    · intro told file inside other other_inside
      exact told file other ((members file).mp inside) ((members other).mp other_inside)
  have marked : ∀ file other : File, file.Listed fs root config → other.Listed fs root config →
      file ≠ other → file.entry.path = other.entry.path →
        file.Backslashed ∨ other.Backslashed := by
    intro file other listed other_listed different same
    apply backslashed_of_segments_eq textual apart listed other_listed different
    exact (path_entry_eq_iff listed other_listed).mp same
  refine ⟨exact_condition, fun _ _ => path_entry_eq_iff, marked, ?_⟩
  intro plain
  rw [exact_condition]
  intro file other listed other_listed same
  by_contra different
  rcases marked file other listed other_listed different same with passed | passed
  · exact plain file listed passed
  · exact plain other other_listed passed

/-- A script and a link to nothing have addresses of their own. -/
theorem collect_distinct_linked :
    (collect linked (.ofString "/") oneSource).outcome =
        .ok [⟨"src", "/src/a.js"⟩, ⟨"src", "/src/gone"⟩] ∧
      (["/src/a.js", "/src/gone"].Nodup ↔
        ∀ file other : File, file.Listed linked (.ofString "/") oneSource →
          other.Listed linked (.ofString "/") oneSource →
            file.entry.path = other.entry.path → file = other) ∧
      (∀ file other : File, file.Listed linked (.ofString "/") oneSource →
        other.Listed linked (.ofString "/") oneSource →
          (file.entry.path = other.entry.path ↔ file.segments = other.segments)) ∧
      (∀ file other : File, file.Listed linked (.ofString "/") oneSource →
        other.Listed linked (.ofString "/") oneSource → file ≠ other →
          file.entry.path = other.entry.path → file.Backslashed ∨ other.Backslashed) ∧
      ((∀ file : File, file.Listed linked (.ofString "/") oneSource → ¬ file.Backslashed) →
        ["/src/a.js", "/src/gone"].Nodup) := by
  have collected : (collect linked (.ofString "/") oneSource).outcome =
      .ok [⟨"src", "/src/a.js"⟩, ⟨"src", "/src/gone"⟩] := by rfl
  exact ⟨collected, collect_distinct (by decide) (by decide) (by decide) collected⟩

/-- The name of a directory. -/
def outerName : Name := ⟨Utf8.encode "a", by decide⟩

/-- The name of a directory in it. -/
def innerName : Name := ⟨Utf8.encode "b", by decide⟩

/-- The two names with a backslash between them, which make one name. -/
def slantedName : Name := ⟨outerName.bytes ++ Path.backslash :: innerName.bytes, by decide⟩

/-- Two scripts of the same name, one of them two directories down, the other in a
directory with a backslash in its name. -/
def slanted : Filesystem where
  top :=
    .directory .newDirectory [sourceName] (List.nodup_singleton _) fun _ =>
      .directory .newDirectory [outerName, slantedName] (by decide) fun outer =>
        if outer = slantedName then
          .directory .newDirectory [scriptName] (List.nodup_singleton _) fun _ =>
            .file .newFile []
        else
          .directory .newDirectory [innerName] (List.nodup_singleton _) fun _ =>
            .directory .newDirectory [scriptName] (List.nodup_singleton _) fun _ =>
              .file .newFile []
  workingDirectory := []

/-- Two different files have the same address, although all names are text and there
is only one source directory, spelled by its name. -/
theorem collect_slanted :
    Path.isAbsolute (.ofString "/") = true ∧ slanted.top.isTextual = true ∧
      oneSource.sourceDirs.map Path.components = [[.normal (Utf8.encode "src")]] ∧
      oneSource.sourceDirs.Pairwise Path.Apart ∧
      (∃ found other,
        slanted.top.at? [sourceName, outerName, innerName, scriptName] = some found ∧
          slanted.top.at? [sourceName, slantedName, scriptName] = some other ∧
          found.isFile = true ∧ other.isFile = true) ∧
      ∃ entries, (collect slanted (.ofString "/") oneSource).outcome = .ok entries ∧
        entries.map Entry.path = ["/src/a/b/a.js", "/src/a/b/a.js"] ∧
        ¬ (entries.map Entry.path).Nodup := by
  refine ⟨by decide, by decide, by rfl, by decide, ⟨.file .newFile [], .file .newFile [],
    by rfl, by rfl, by rfl, by rfl⟩, [⟨"src", "/src/a/b/a.js"⟩, ⟨"src", "/src/a/b/a.js"⟩],
    by rfl, by rfl, by decide⟩

end Scan

end CacheManifest
