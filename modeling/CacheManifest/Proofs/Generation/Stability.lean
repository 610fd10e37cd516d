/-
# Making a manifest again and again

A generation reads the file system that it then writes to, so the output of one may be
among the files of the next. That is all that can happen: once the output is there,
every further generation finds what the one before it found, and writes the same
manifest but for the time. The first one of a series differs from the others by the
entries of the output at most, and does so only if the output was not there before, is
not excluded, and lies where a walk comes by.
-/

import CacheManifest.Proofs.Generation.Effect
import CacheManifest.Proofs.Scan.Relisting

namespace CacheManifest

open Filesystem (Written)
open Scan (Entered File Unwanted)
open Utf8 (encode)

variable {fs : Filesystem} {root : Path} {config : Config}

/-- One of several generations: the file system it finds, and its time. -/
structure Turn where
  found : Filesystem
  timestamp : String

namespace Turn

/-- The generation of a turn. -/
def generation (turn : Turn) (root : Path) (config : Config) : Generation :=
  generate turn.found root config turn.timestamp

/-- Whether a turn succeeds. -/
def Succeeds (root : Path) (config : Config) (turn : Turn) : Prop :=
  (turn.generation root config).outcome.isOk = true

instance (root : Path) (config : Config) (turn : Turn) : Decidable (turn.Succeeds root config) := by
  unfold Succeeds
  infer_instance

theorem Succeeds.exists_summary {turn : Turn} (succeeds : turn.Succeeds root config) :
    ∃ summary, (generate turn.found root config turn.timestamp).outcome = .ok summary := by
  rw [Succeeds, generation] at succeeds
  cases outcome : (generate turn.found root config turn.timestamp).outcome with
  | ok summary => exact ⟨summary, rfl⟩
  | error failure =>
      rw [outcome] at succeeds
      cases succeeds

/-- Generations one after the other, with nothing else happening in between. -/
def series (root : Path) (config : Config) : Filesystem → List String → List Turn
  | _, [] => []
  | fs, timestamp :: others =>
    ⟨fs, timestamp⟩ :: series root config (generate fs root config timestamp).filesystem others

/-- A turn that collects given entries and writes a given manifest to a given place.
Only the line with the time is its own. -/
structure Repeats (root : Path) (config : Config) (entries : List Entry) (place : Location)
    (rest : String) (turn : Turn) : Prop where
  collected : (collect turn.found root config).outcome = .ok entries
  written : Written turn.found (config.outputPath root) place
    (encode ("CACHE MANIFEST\n#" ++ turn.timestamp ++ "\n" ++ rest))
    (turn.generation root config).filesystem

end Turn

/-- What a manifest says after the line with its time. -/
def manifestRest (entries : List Entry) : String :=
  "\n" ++ String.join (entries.map Entry.line) ++ "\nNETWORK:\n*\n"

theorem renderManifest_eq (timestamp : String) (entries : List Entry) :
    renderManifest timestamp entries =
      "CACHE MANIFEST\n#" ++ timestamp ++ "\n" ++ manifestRest entries := by
  have two_ends : "\n\n" = "\n" ++ "\n" := by rfl
  unfold renderManifest manifestRest
  rw [two_ends]
  simp only [String.append_assoc]

/-- A generation writes where its output leads to. -/
theorem exists_written_at {timestamp : String} {place : Location}
    (located : fs.locate (config.outputPath root) = .ok place)
    (succeeded : ∃ summary, (generate fs root config timestamp).outcome = .ok summary) :
    ∃ entries, (collect fs root config).outcome = .ok entries ∧
      Written fs (config.outputPath root) place (encode (renderManifest timestamp entries))
        (generate fs root config timestamp).filesystem := by
  obtain ⟨summary, succeeded⟩ := succeeded
  rcases generate_cases fs root config timestamp with
    ⟨failure, -, failed, -⟩ | ⟨entries, opened, other, collected, opening, result, -⟩
  · cases succeeded.symm.trans failed
  · obtain rfl := Filesystem.place_of_openEmpty opening located
    rw [result]
    exact ⟨entries, collected, Filesystem.written_of_openEmpty opening _⟩

/-- What one generation preserves once the output is there: it still is, in the same
place, and the next one that collects anything collects the same. -/
theorem preserved_of_written {place : Location} {content : Bytes} {after : Filesystem}
    {entries : List Entry} (writing : Written fs (config.outputPath root) place content after)
    (present : (fs.top.at? place).isSome = true)
    (collected : (collect fs root config).outcome = .ok entries) :
    after.locate (config.outputPath root) = .ok place ∧
      (after.top.at? place).isSome = true ∧
        ∀ found, (collect after root config).outcome = .ok found → found = entries := by
  obtain ⟨permissions, stands, -⟩ := writing.stands
  refine ⟨writing.leads, by rw [stands]; rfl, ?_⟩
  intro found again
  exact (Scan.collect_eq_of_written writing present collected again).symm

/-- Once the output is there, all generations repeat each other. The induction is on
the series; it carries where the output is and what can be collected. -/
theorem repeats_of_present {place : Location} {entries : List Entry} {timestamps : List String}
    (located : fs.locate (config.outputPath root) = .ok place)
    (present : (fs.top.at? place).isSome = true)
    (only : ∀ found, (collect fs root config).outcome = .ok found → found = entries)
    (succeed : ∀ turn ∈ Turn.series root config fs timestamps, turn.Succeeds root config) :
    ∀ turn ∈ Turn.series root config fs timestamps,
      turn.Repeats root config entries place (manifestRest entries) := by
  induction timestamps generalizing fs with
  | nil => simp [Turn.series]
  | cons timestamp others ih =>
      rw [Turn.series, List.forall_mem_cons] at succeed ⊢
      obtain ⟨here, later⟩ := succeed
      obtain ⟨found, collected, writing⟩ := exists_written_at located here.exists_summary
      obtain rfl := only found collected
      obtain ⟨located_after, present_after, only_after⟩ :=
        preserved_of_written writing present collected
      constructor
      · rw [renderManifest_eq] at writing
        exact ⟨collected, writing⟩
      · exact ih located_after present_after only_after later

/-- A place in a directory that the walk through one of the source directories is to
enter. -/
def Enclosed (fs : Filesystem) (root : Path) (config : Config) (place : Location) : Prop :=
  ∃ directory ∈ config.sourceDirs, ∃ base above name,
    fs.locate (root.join directory) = .ok base ∧ Entered fs config base above ∧
      place = base ++ (above ++ [name])

theorem unwanted_of_location {file : File} {place : Location} (below : file.place ≠ [])
    (same : file.location = place) : Unwanted config place ↔ Unwanted config file.place := by
  rw [Unwanted, Unwanted, ← same, File.location, List.getLast?_append_of_ne_nil _ below]

/-- A file that is listed after something has been written lies where a walk came by
before. -/
theorem enclosed_of_listed {path : Path} {written : Location} {content : Bytes}
    {after : Filesystem} (writing : Written fs path written content after) {file : File}
    (listed : file.Listed after root config) : Enclosed fs root config file.location := by
  obtain ⟨front, last, shape⟩ := List.eq_nil_or_concat' file.place |>.resolve_left
    listed.listable.below
  obtain ⟨found, there⟩ := listed.exists_at
  have prior : front <+: file.place := shape ▸ List.prefix_append _ _
  have entered : Entered after config file.base front := by
    apply Scan.entered_of_isPrefix there listed.listable.unpruned prior
    rw [shape]
    simp
  obtain ⟨node, begins, inside⟩ := (entered.of_isPrefix List.nil_prefix).directory
  rw [List.append_nil] at begins
  have located := writing.sameWays.symm.locate listed.located begins inside
  exact ⟨file.directory, listed.configured, file.base, front, last, located,
    entered.of_written writing, by rw [File.location, shape]⟩

/-- How the generations of a series are related: the first one writes to a place, the
others repeat each other there, and the first one finds the entries that they find
except those of files which were not there yet. Only the output can be such a file,
and it is none if it was there, is excluded, or is not enclosed. -/
structure Stable (fs : Filesystem) (root : Path) (config : Config) (first : String)
    (later : List String) (place : Location) (files : List File) : Prop where
  written : ∃ content, Written fs (config.outputPath root) place content
    (generate fs root config first).filesystem
  repeats : ∀ turn ∈ Turn.series root config (generate fs root config first).filesystem later,
    turn.Repeats root config (files.map File.entry) place (manifestRest (files.map File.entry))
  earlier : (collect fs root config).outcome =
    .ok ((files.filter (File.present fs)).map File.entry)
  listed : ∀ file ∈ files, file.Listed (generate fs root config first).filesystem root config
  new : ∀ file ∈ files, file.present fs = false → file.location = place
  nothing_new : (fs.top.at? place).isSome = true ∨ Unwanted config place ∨
      ¬ Enclosed fs root config place →
    (collect fs root config).outcome = .ok (files.map File.entry)

/-- Whenever two generations or more succeed one after the other, they are stable. -/
theorem generate_stable {first second : String} {later : List String}
    (succeed : ∀ turn ∈ Turn.series root config fs (first :: second :: later),
      turn.Succeeds root config) :
    ∃ place files, Stable fs root config first (second :: later) place files := by
  rw [Turn.series, List.forall_mem_cons] at succeed
  obtain ⟨here, others⟩ := succeed
  obtain ⟨summary, succeeded⟩ := here.exists_summary
  obtain ⟨entries, place, collected, writing, -⟩ := exists_written succeeded
  obtain ⟨permissions, stands, -⟩ := writing.stands
  have present : ((generate fs root config first).filesystem.top.at? place).isSome = true := by
    rw [stands]
    rfl
  obtain ⟨more, again, -⟩ := exists_written_at writing.leads
    (others ⟨_, second⟩ List.mem_cons_self).exists_summary
  obtain ⟨files, rfl, rfl, told⟩ := Scan.exists_files_of_written writing collected again
  have only (found : List Entry)
      (once_more : (collect (generate fs root config first).filesystem root config).outcome =
        .ok found) : found = files.map File.entry := by
    cases again.symm.trans once_more
    rfl
  refine ⟨place, files, ⟨_, writing⟩, repeats_of_present writing.leads present only others,
    collected, fun file inside => (told file inside).1, fun file inside => (told file inside).2, ?_⟩
  intro kept_out
  have all_present : files.filter (File.present fs) = files := by
    rw [List.filter_eq_self]
    intro file inside
    by_contra missing
    rw [Bool.not_eq_true] at missing
    obtain ⟨listed, here⟩ := told file inside
    obtain rfl := here missing
    rcases kept_out with there | unwanted | outside
    · rw [File.present, there] at missing
      cases missing
    · exact listed.wanted ((unwanted_of_location listed.listable.below rfl).mp unwanted)
    · exact outside (enclosed_of_listed writing listed)
  rw [collected, all_present]

/-- A project whose manifest goes to its only source directory. -/
def withinSource : Config := { oneSource with output := .ofString "src/b.appcache" }

/-- Three generations, the second of which finds the output of the first among the
files of the directory behind the link. -/
theorem generate_stable_linked :
    (collect Scan.linked (.ofString "/") withinSource).outcome =
        .ok [⟨"src", "/src/a.js"⟩, ⟨"src", "/src/gone"⟩] ∧
      (collect (generate Scan.linked (.ofString "/") withinSource "1").filesystem (.ofString "/")
          withinSource).outcome =
        .ok [⟨"src", "/src/a.js"⟩, ⟨"src", "/src/b.appcache"⟩, ⟨"src", "/src/gone"⟩] ∧
      ∃ place files,
        Stable Scan.linked (.ofString "/") withinSource "1" ["2", "3"] place files := by
  exact ⟨by decide +kernel, by decide +kernel, generate_stable (by decide +kernel)⟩

end CacheManifest
