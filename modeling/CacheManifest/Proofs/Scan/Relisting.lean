/-
# Listing again after a file has been written

When a file has been written, a source directory is found in the same place and a walk
enters the same directories below it. What was to be listed still is, links that lead
to no directory included, and nothing else is to be listed but the file, if it was not
there before. As the order of a walk depends on names alone, the earlier list is the
later one without that file.
-/

import CacheManifest.Proofs.Filesystem.Ways
import CacheManifest.Proofs.Scan.Files

namespace CacheManifest

open Filesystem (Written)

namespace Scan

variable {fs after : Filesystem} {path root directory origin : Path} {config : Config}
  {written base : Location} {content : Bytes}

/-- Whether something stands where a file is. -/
def File.present (fs : Filesystem) (file : File) : Bool := (fs.top.at? file.location).isSome

/-- A walk lists its files in one way only. -/
theorem Listing.unique {places others : List Location}
    (listing : Listing fs config origin base places)
    (again : Listing fs config origin base others) : places = others := by
  apply Location.eq_of_pairwise_before listing.ordered again.ordered
  intro place
  rw [listing.mem_iff, again.mem_iff]

/-- Below a sound source directory, a listing is what a scan answers with. -/
theorem scan_of_listing (absolute : root.isAbsolute = true)
    (sound : Sound fs config (root.join directory))
    (located : fs.locate (root.join directory) = .ok base) {places : List Location}
    (listing : Listing fs config (root.join directory) base places) :
    (scan fs root directory config).outcome =
      .ok (places.map fun place => Entry.ofFile directory (relativePath place)) := by
  obtain ⟨found, succeeded⟩ := (scan_eq_ok_iff absolute).mpr sound
  obtain ⟨start, again, relocated, relisting, rfl⟩ := exists_listing absolute succeeded
  cases located.symm.trans relocated
  rw [succeeded, relisting.unique listing]

section Writing

variable (writing : Written fs path written content after)

include writing

/-- What a walk enters does not change. -/
theorem Entered.of_written {place : Location} (entered : Entered after config base place) :
    Entered fs config base place := by
  obtain ⟨node, there, inside⟩ := entered.directory
  exact ⟨writing.sameWays.top.symm.exists_directory there inside, entered.unpruned⟩

/-- What stood somewhere stands there still, and anywhere else the file was written. -/
theorem eq_written_of_absent {place : Location} {found : Node}
    (there : after.top.at? place = some found) (absent : fs.top.at? place = none) :
    place = written := by
  by_contra elsewhere
  have same := writing.elsewhere place elsewhere
  rw [Node.faceAt, Node.faceAt, there, absent] at same
  cases same

/-- A file that stood somewhere is a file still. -/
theorem exists_file_iff_of_written {place : Location} :
    (∃ permissions text, fs.top.at? place = some (.file permissions text)) ↔
      (∃ permissions text, after.top.at? place = some (.file permissions text)) ∧
        (fs.top.at? place).isSome = true := by
  obtain ⟨permissions, stands, before⟩ := writing.stands
  by_cases here : place = written
  · subst here
    rcases before with absent | ⟨old, file⟩
    · simp [absent]
    · simp [stands, file]
  · have same (leave : Permissions) (text : Bytes) :
        fs.top.at? place = some (.file leave text) ↔
          after.top.at? place = some (.file leave text) := by
      rw [← Node.faceAt_eq_face_iff rfl, ← Node.faceAt_eq_face_iff rfl,
        writing.elsewhere place here]
    simp only [same]
    refine (and_iff_left_of_imp ?_).symm
    rintro ⟨leave, text, there⟩
    rw [(same leave text).mpr there]
    rfl

/-- What was to be listed is what is to be listed now and was there before. -/
theorem listable_iff_of_written {place : Location} :
    Listable fs config origin base place ↔
      Listable after config origin base place ∧ (fs.top.at? (base ++ place)).isSome = true := by
  have ways := writing.sameWays
  constructor
  · rintro ⟨below, kind, unpruned⟩
    rcases kind with file | ⟨⟨target, there⟩, nowhere⟩
    · obtain ⟨file, present⟩ := (exists_file_iff_of_written writing).mp file
      exact ⟨⟨below, Or.inl file, unpruned⟩, present⟩
    · rw [← ways.isDirectory_eq] at nowhere
      exact ⟨⟨below, Or.inr ⟨⟨target, ways.top.link_at there⟩, nowhere⟩, unpruned⟩,
        by rw [there]; rfl⟩
  · rintro ⟨⟨below, kind, unpruned⟩, present⟩
    rcases kind with file | ⟨⟨target, there⟩, nowhere⟩
    · exact ⟨below, Or.inl ((exists_file_iff_of_written writing).mpr ⟨file, present⟩), unpruned⟩
    · rw [ways.isDirectory_eq] at nowhere
      exact ⟨below, Or.inr ⟨⟨target, ways.top.symm.link_at there⟩, nowhere⟩, unpruned⟩

/-- The earlier files of a source directory are the later ones that were there. -/
theorem Lists.eq_filter {files later : List File} (lists : Lists fs root config directory files)
    (again : Lists after root config directory later) :
    files = later.filter (File.present fs) := by
  cases lists with
  | standardInput input =>
      cases again with
      | walked base places no_input located inside listing => simp [input] at no_input
      | standardInput _ => rfl
  | walked base places no_input located inside listing =>
      cases again with
      | standardInput input => simp [input] at no_input
      | walked other more _ relocated still_inside relisting =>
          obtain ⟨place, node, found, there, directory⟩ := Filesystem.isDirectory_iff.mp inside
          cases located.symm.trans found
          cases relocated.symm.trans (writing.sameWays.locate located there directory)
          have same : places = more.filter fun place => (fs.top.at? (base ++ place)).isSome := by
            apply Location.eq_of_pairwise_before listing.ordered (relisting.ordered.filter _)
            intro place
            rw [listing.mem_iff, List.mem_filter, relisting.mem_iff,
              listable_iff_of_written writing, and_right_comm]
          rw [same, List.filter_map]
          rfl

theorem flatten_eq_filter {directories : List Path} {parts later : List (List File)}
    (each : List.Forall₂ (Lists fs root config) directories parts)
    (again : List.Forall₂ (Lists after root config) directories later) :
    parts.flatten = later.flatten.filter (File.present fs) := by
  induction each generalizing later with
  | nil =>
      cases again
      rfl
  | cons lists each ih =>
      cases again with
      | cons relists again =>
          rw [List.flatten_cons, List.flatten_cons, List.filter_append,
            lists.eq_filter writing relists, ih again]

/-- If collecting succeeds before a file is written and after, all that is new are
entries of that file. -/
theorem exists_files_of_written {entries more : List Entry}
    (collected : (collect fs root config).outcome = .ok entries)
    (again : (collect after root config).outcome = .ok more) :
    ∃ files : List File, more = files.map File.entry ∧
      entries = (files.filter (File.present fs)).map File.entry ∧
        ∀ file ∈ files, file.Listed after root config ∧
          (file.present fs = false → file.location = written) := by
  obtain ⟨parts, each, rfl⟩ := exists_lists_of_collectFrom collected
  obtain ⟨later, each_again, rfl⟩ := exists_lists_of_collectFrom again
  refine ⟨later.flatten, rfl, by rw [flatten_eq_filter writing each each_again], ?_⟩
  intro file inside
  have listed := listed_of_mem_flatten each_again (List.Subset.refl _) inside
  refine ⟨listed, fun missing => ?_⟩
  obtain ⟨found, there⟩ := listed.exists_at
  exact eq_written_of_absent writing there (by simpa [File.present] using missing)

/-- Nothing is new if the file was there before. -/
theorem collect_eq_of_written (present : (fs.top.at? written).isSome = true)
    {entries more : List Entry} (collected : (collect fs root config).outcome = .ok entries)
    (again : (collect after root config).outcome = .ok more) : entries = more := by
  obtain ⟨files, rfl, rfl, listed⟩ := exists_files_of_written writing collected again
  have all_present : files.filter (File.present fs) = files := by
    rw [List.filter_eq_self]
    intro file inside
    by_contra missing
    rw [Bool.not_eq_true] at missing
    rw [File.present, (listed file inside).2 missing, present] at missing
    cases missing
  rw [all_present]

end Writing

end Scan

end CacheManifest
