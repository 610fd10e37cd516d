/-
# The files of a collection

An entry shows the address of a file and no more. Here a file is kept with the
source directory it was found through, the place where that leads and the place
below, so that two files may have the same entry and still be told apart. What is
collected are the entries of such files: source directory by source directory, and
within each in the order of its walk.

The standard input, which a relative path can name, has no files.
-/

import CacheManifest.Proofs.Scan.Collection

namespace CacheManifest

namespace Scan

/-- A file below a source directory. -/
@[ext]
structure File where
  directory : Path
  base : Location
  place : Location

namespace File

/-- The entry of a file. -/
def entry (file : File) : Entry := Entry.ofFile file.directory (relativePath file.place)

/-- Where a file stands in the tree. -/
def location (file : File) : Location := file.base ++ file.place

/-- A file that is to be listed: below a configured source directory, of a kind
that is listed, and kept out by no name. -/
structure Listed (fs : Filesystem) (root : Path) (config : Config) (file : File) : Prop where
  configured : file.directory ∈ config.sourceDirs
  located : fs.locate (root.join file.directory) = .ok file.base
  listable : Listable fs config (root.join file.directory) file.base file.place
  wanted : ¬ Unwanted config file.place

/-- Something stands where a listed file is. -/
theorem Listed.exists_at {fs : Filesystem} {root : Path} {config : Config} {file : File}
    (listed : file.Listed fs root config) : ∃ found, fs.top.at? file.location = some found := by
  have holds : (Visit.listed file.place).Holds fs config (root.join file.directory) file.base :=
    ⟨listed.listable, listed.wanted⟩
  exact holds.exists_at

end File

/-- The files that a scan of a source directory lists, in order. -/
inductive Lists (fs : Filesystem) (root : Path) (config : Config) (directory : Path) :
    List File → Prop where
  | walked (base : Location) (places : List Location)
    (no_input : isStandardInput (root.join directory) = false)
    (located : fs.locate (root.join directory) = .ok base)
    (inside : fs.isDirectory (root.join directory) = true)
    (listing : Listing fs config (root.join directory) base places) :
    Lists fs root config directory (places.map (File.mk directory base))
  | standardInput (input : isStandardInput (root.join directory) = true) :
    Lists fs root config directory []

variable {fs : Filesystem} {root directory : Path} {config : Config} {files : List File}

theorem exists_lists {found : List Entry}
    (succeeded : (scan fs root directory config).outcome = .ok found) :
    ∃ files, Lists fs root config directory files ∧ found = files.map File.entry := by
  cases input : isStandardInput (root.join directory) with
  | true => exact ⟨[], .standardInput input, eq_nil_of_isStandardInput input succeeded⟩
  | false =>
      obtain ⟨base, places, located, listing, rfl⟩ :=
        exists_listing_of_not_isStandardInput input succeeded
      refine ⟨_, .walked base places input located (isDirectory_of_scan succeeded) listing, ?_⟩
      rw [List.map_map]
      rfl

/-- What is collected are the entries of the files listed, directory by directory. -/
theorem exists_lists_of_collectFrom {directories : List Path} {collected : List Entry}
    (succeeded : (collectFrom fs root config directories).outcome = .ok collected) :
    ∃ parts, List.Forall₂ (Lists fs root config) directories parts ∧
      collected = parts.flatten.map File.entry := by
  obtain ⟨found, each, rfl⟩ := collectFrom_eq_ok_iff.mp succeeded
  clear succeeded
  induction each with
  | nil => exact ⟨[], .nil, rfl⟩
  | cons here each ih =>
      obtain ⟨files, lists, rfl⟩ := exists_lists here
      obtain ⟨parts, others, same⟩ := ih
      refine ⟨files :: parts, .cons lists others, ?_⟩
      rw [List.flatten_cons, List.flatten_cons, List.map_append, same]

theorem Lists.directory_eq (lists : Lists fs root config directory files) {file : File}
    (inside : file ∈ files) : file.directory = directory := by
  cases lists with
  | walked base places no_input located inside_directory listing =>
      obtain ⟨place, -, rfl⟩ := List.mem_map.mp inside
      rfl
  | standardInput input => cases inside

theorem Lists.nodup (lists : Lists fs root config directory files) : files.Nodup := by
  cases lists with
  | walked base places no_input located inside_directory listing =>
      apply List.Nodup.map
      · intro first second same
        exact congrArg File.place same
      · exact listing.nodup
  | standardInput input => exact List.nodup_nil

theorem Lists.listed (lists : Lists fs root config directory files)
    (configured : directory ∈ config.sourceDirs) {file : File} (inside : file ∈ files) :
    file.Listed fs root config := by
  cases lists with
  | walked base places no_input located inside_directory listing =>
      obtain ⟨place, listed, rfl⟩ := List.mem_map.mp inside
      obtain ⟨listable, wanted⟩ := (listing.mem_iff place).mp listed
      exact ⟨configured, located, listable, wanted⟩
  | standardInput input => cases inside

theorem listed_of_mem_flatten {directories : List Path} {parts : List (List File)}
    (each : List.Forall₂ (Lists fs root config) directories parts)
    (configured : directories ⊆ config.sourceDirs) {file : File} (inside : file ∈ parts.flatten) :
    file.Listed fs root config := by
  induction each with
  | nil => cases inside
  | cons lists each ih =>
      obtain ⟨here, rest⟩ := List.cons_subset.mp configured
      rcases List.mem_append.mp inside with first | later
      · exact lists.listed here first
      · exact ih rest later

/-- From an absolute root, the files listed are those to be listed. -/
theorem Lists.mem_iff (absolute : root.isAbsolute = true)
    (lists : Lists fs root config directory files) (configured : directory ∈ config.sourceDirs)
    {file : File} :
    file ∈ files ↔ file.directory = directory ∧ file.Listed fs root config := by
  constructor
  · intro inside
    exact ⟨lists.directory_eq inside, lists.listed configured inside⟩
  · rintro ⟨rfl, listed⟩
    cases lists with
    | walked base places no_input located inside_directory listing =>
        cases located.symm.trans listed.located
        exact List.mem_map.mpr
          ⟨file.place, (listing.mem_iff _).mpr ⟨listed.listable, listed.wanted⟩, rfl⟩
    | standardInput input =>
        rw [not_isStandardInput (Path.isAbsolute_join absolute file.directory)] at input
        cases input

/-- The files listed for several source directories are those to be listed below one
of them, and none is listed twice if no directory is. -/
theorem mem_flatten_lists (absolute : root.isAbsolute = true) {directories : List Path}
    {parts : List (List File)} (each : List.Forall₂ (Lists fs root config) directories parts)
    (configured : directories ⊆ config.sourceDirs) :
    (∀ file, file ∈ parts.flatten ↔
        file.directory ∈ directories ∧ file.Listed fs root config) ∧
      (directories.Nodup → parts.flatten.Nodup) := by
  induction each with
  | nil => simp
  | @cons directory part others parts lists each ih =>
      obtain ⟨here, rest⟩ := List.cons_subset.mp configured
      obtain ⟨members, distinct⟩ := ih rest
      constructor
      · intro file
        rw [List.flatten_cons, List.mem_append, members, lists.mem_iff absolute here,
          List.mem_cons, or_and_right]
      · intro unique
        obtain ⟨fresh, unique_rest⟩ := List.nodup_cons.mp unique
        rw [List.flatten_cons, List.nodup_append]
        refine ⟨lists.nodup, distinct unique_rest, ?_⟩
        rintro file inside _ later rfl
        exact fresh (lists.directory_eq inside ▸ ((members file).mp later).1)

/-- A collection from an absolute root is made from all the files to be listed, each
of them once if no source directory is configured twice. -/
theorem exists_files (absolute : root.isAbsolute = true) {entries : List Entry}
    (succeeded : (collect fs root config).outcome = .ok entries) :
    ∃ files : List File, entries = files.map File.entry ∧
      (∀ file, file ∈ files ↔ file.Listed fs root config) ∧
      (config.sourceDirs.Nodup → files.Nodup) := by
  obtain ⟨parts, each, rfl⟩ := exists_lists_of_collectFrom succeeded
  obtain ⟨members, distinct⟩ := mem_flatten_lists absolute each (List.Subset.refl _)
  refine ⟨parts.flatten, rfl, ?_, distinct⟩
  intro file
  rw [members, and_iff_right_iff_imp]
  exact File.Listed.configured

end Scan

end CacheManifest
