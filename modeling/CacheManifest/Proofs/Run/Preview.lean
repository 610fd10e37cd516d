/-
# Runs that show what another one writes

A manifest may be shown before it is written, and its entries may be listed in three
formats. Over one file system all of these runs have the same entries, since they
collect them in the same way and do so before anything else. They fail together when
collecting fails. Otherwise those that show something succeed, and the one that writes
may still find that its output cannot be opened.

The file systems are arbitrary, and so are root and settings: nothing is asked for
but the names of the formats.
-/

import CacheManifest.Proofs.Generation.Effect
import CacheManifest.Proofs.Manifest.Addresses
import CacheManifest.Proofs.Run.Listings
import CacheManifest.Proofs.Scan.Files

namespace CacheManifest

open CommandLine (Command)
open Config (Project)
open Filesystem (Written)

/-- Whatever is collected has an address, from any root. -/
theorem path_ne_empty_of_collect {fs : Filesystem} {root : Path} {config : Config}
    {entries : List Entry} (collected : (collect fs root config).outcome = .ok entries) :
    ∀ entry ∈ entries, entry.path ≠ "" := by
  obtain ⟨parts, each, rfl⟩ := Scan.exists_lists_of_collectFrom collected
  intro entry inside empty
  obtain ⟨file, member, rfl⟩ := List.mem_map.mp inside
  have listed := Scan.listed_of_mem_flatten each (List.Subset.refl _) member
  have address := Scan.isAddress_address file.directory listed.listable.below
  have blank : Manifest.isAddress (Utf8.encode "") = false := by rfl
  change Entry.address file.directory (Scan.relativePath file.place) = "" at empty
  rw [empty, blank] at address
  cases address

/-- A manifest is the text listing of its entries between the lines that open it and
those that close it. -/
theorem renderManifest_eq_listing {entries : List Entry}
    (named : ∀ entry ∈ entries, entry.path ≠ "") (timestamp : String) :
    renderManifest timestamp entries =
      "CACHE MANIFEST\n#" ++ timestamp ++ "\n\n" ++ Run.listing .text entries ++
        "\nNETWORK:\n*\n" := by
  rewrite [Run.listing_text named]
  rfl

namespace Run

/-! ## One command -/

section Commands

variable {fs : Filesystem} {project : Project} {timestamp : String} {failure : Failure}
  {entries : List Entry}

theorem perform_list {name : String} {format : ListFormat}
    (known : ListFormat.ofName? name = some format) :
    perform fs project timestamp (.list name) = showing fs project (listing format) := by
  simp only [perform, known]

theorem showing_of_error
    (failed : (collect fs project.root project.config).outcome = .error failure)
    (display : List Entry → String) :
    (showing fs project display).outcome = .error (.during .collect failure) ∧
      (showing fs project display).output = "" ∧
      (showing fs project display).filesystem = fs := by
  simp [showing, failed, Run.failed]

theorem showing_of_ok
    (collected : (collect fs project.root project.config).outcome = .ok entries)
    (display : List Entry → String) :
    (showing fs project display).outcome = .ok () ∧
      (showing fs project display).output = display entries ∧
      (showing fs project display).filesystem = fs := by
  simp [showing, collected]

theorem writing_of_error
    (failed : (generate fs project.root project.config timestamp).outcome = .error failure) :
    (writing fs project timestamp).outcome =
        .error (.during (.generate (project.config.outputPath project.root)) failure) ∧
      (writing fs project timestamp).filesystem =
        (generate fs project.root project.config timestamp).filesystem := by
  simp [writing, failed, Run.failed]

theorem writing_of_ok {summary : Summary}
    (succeeded : (generate fs project.root project.config timestamp).outcome = .ok summary) :
    (writing fs project timestamp).outcome = .ok () ∧
      (writing fs project timestamp).log.getLast? = some (.wrote summary.output summary.entries) ∧
      (writing fs project timestamp).filesystem =
        (generate fs project.root project.config timestamp).filesystem := by
  simp only [writing, succeeded, List.cons_append, List.getLast?_cons, List.getLast?_append,
    true_and]
  simp

end Commands

/-! ## All commands together -/

/-- What runs come to that show the entries of a project, as text, line by line, as a
list or as a manifest, and what one comes to that writes the manifest, when these
entries have been collected. -/
structure Agreement (fs : Filesystem) (project : Project) (timestamp : String)
    (entries : List Entry) (text lines list preview generation : Run) : Prop where
  shown : ∀ run ∈ [text, lines, list, preview], run.outcome = .ok () ∧ run.filesystem = fs
  block : text.output = String.join (entries.map Entry.line)
  manifest : preview.output =
    "CACHE MANIFEST\n#" ++ timestamp ++ "\n\n" ++ text.output ++ "\nNETWORK:\n*\n"
  lines_read : readLines? lines.output = some entries
  list_read : readList? list.output = some entries
  written :
    let output := project.config.outputPath project.root
    let generated := generate fs project.root project.config timestamp
    (∃ place, generation.outcome = .ok () ∧
      Written fs output place (Utf8.encode preview.output) generation.filesystem ∧
      generated.outcome = .ok ⟨output, entries.length⟩ ∧
      generation.log.getLast? = some (.wrote output entries.length)) ∨
    ∃ cause, fs.openEmpty output = .error cause ∧ generation.filesystem = fs ∧
      generation.outcome = .error (.during (.generate output) (.system output cause))

/-- What the same runs come to when collecting fails: nothing is shown, nothing is
written, and the failure is told in each of them. -/
structure Refusal (fs : Filesystem) (project : Project) (failure : Failure)
    (text lines list preview generation : Run) : Prop where
  shown : ∀ run ∈ [text, lines, list, preview],
    run.outcome = .error (.during .collect failure) ∧ run.output = "" ∧ run.filesystem = fs
  written : generation.filesystem = fs ∧ generation.outcome =
    .error (.during (.generate (project.config.outputPath project.root)) failure)

variable {fs : Filesystem} {project : Project} {timestamp : String}

theorem refusal_of_error {failure : Failure}
    (failed : (collect fs project.root project.config).outcome = .error failure) :
    Refusal fs project failure (showing fs project (listing .text))
      (showing fs project (listing .lines)) (showing fs project (listing .json))
      (showing fs project (renderManifest timestamp)) (writing fs project timestamp) where
  shown := by
    simp only [List.forall_mem_cons]
    exact ⟨showing_of_error failed _, showing_of_error failed _, showing_of_error failed _,
      showing_of_error failed _, List.forall_mem_nil _⟩
  written := by
    rcases generate_cases fs project.root project.config timestamp with
      ⟨reason, prevented, told, same⟩ | ⟨entries, _, _, collected, -⟩
    · obtain ⟨outcome, left⟩ := writing_of_error told
      cases prevented with
      | collecting _ first =>
          cases failed.symm.trans first
          exact ⟨left.trans same, outcome⟩
      | opening entries cause collected refused => cases failed.symm.trans collected
    · cases failed.symm.trans collected

theorem agreement_of_ok {entries : List Entry}
    (collected : (collect fs project.root project.config).outcome = .ok entries) :
    Agreement fs project timestamp entries (showing fs project (listing .text))
      (showing fs project (listing .lines)) (showing fs project (listing .json))
      (showing fs project (renderManifest timestamp)) (writing fs project timestamp) := by
  have named := path_ne_empty_of_collect collected
  obtain ⟨text_ok, text_output, text_same⟩ := showing_of_ok collected (listing .text)
  obtain ⟨lines_ok, lines_output, lines_same⟩ := showing_of_ok collected (listing .lines)
  obtain ⟨list_ok, list_output, list_same⟩ := showing_of_ok collected (listing .json)
  obtain ⟨preview_ok, preview_output, preview_same⟩ :=
    showing_of_ok collected (renderManifest timestamp)
  constructor
  · simp only [List.forall_mem_cons]
    exact ⟨⟨text_ok, text_same⟩, ⟨lines_ok, lines_same⟩, ⟨list_ok, list_same⟩,
      ⟨preview_ok, preview_same⟩, List.forall_mem_nil _⟩
  · rw [text_output, listing_text named]
  · rw [preview_output, text_output, renderManifest_eq_listing named]
  · rw [lines_output, readLines?_listing]
  · rw [list_output, readList?_listing]
  · rcases generate_cases fs project.root project.config timestamp with
      ⟨reason, prevented, told, same⟩ | ⟨again, opened, place, found, opening, result, told⟩
    · obtain ⟨outcome, left⟩ := writing_of_error told
      cases prevented with
      | collecting _ failed => cases collected.symm.trans failed
      | opening _ cause _ refused => exact Or.inr ⟨cause, refused, left.trans same, outcome⟩
    · cases collected.symm.trans found
      obtain ⟨outcome, last, left⟩ := writing_of_ok told
      refine Or.inl ⟨place, outcome, ?_, told, last⟩
      rw [left, result, preview_output]
      exact Filesystem.written_of_openEmpty opening _

/-- The runs over one file system agree: either all of them are refused with the
failure of the collection, or they show and write the same entries. -/
theorem perform_agrees (fs : Filesystem) (project : Project) (timestamp : String)
    {text lines list : String} (text_name : ListFormat.ofName? text = some .text)
    (lines_name : ListFormat.ofName? lines = some .lines)
    (list_name : ListFormat.ofName? list = some .json) :
    match (collect fs project.root project.config).outcome with
    | .error failure =>
      Refusal fs project failure (perform fs project timestamp (.list text))
        (perform fs project timestamp (.list lines)) (perform fs project timestamp (.list list))
        (perform fs project timestamp (.generate true))
        (perform fs project timestamp (.generate false))
    | .ok entries =>
      Agreement fs project timestamp entries (perform fs project timestamp (.list text))
        (perform fs project timestamp (.list lines)) (perform fs project timestamp (.list list))
        (perform fs project timestamp (.generate true))
        (perform fs project timestamp (.generate false)) := by
  rw [perform_list text_name, perform_list lines_name, perform_list list_name]
  cases collected : (collect fs project.root project.config).outcome with
  | error failure => exact refusal_of_error collected
  | ok entries => exact agreement_of_ok collected

/-- With the source directory behind a link, all runs have its two files. -/
theorem perform_agrees_linked :
    ListFormat.ofName? "TXT" = some .text ∧ ListFormat.ofName? "jsonl" = some .lines ∧
      ListFormat.ofName? "Json" = some .json ∧
      Agreement Scan.linked ⟨.ofString "/", oneSource⟩ "t"
        [⟨"src", "/src/a.js"⟩, ⟨"src", "/src/gone"⟩]
        (perform Scan.linked ⟨.ofString "/", oneSource⟩ "t" (.list "TXT"))
        (perform Scan.linked ⟨.ofString "/", oneSource⟩ "t" (.list "jsonl"))
        (perform Scan.linked ⟨.ofString "/", oneSource⟩ "t" (.list "Json"))
        (perform Scan.linked ⟨.ofString "/", oneSource⟩ "t" (.generate true))
        (perform Scan.linked ⟨.ofString "/", oneSource⟩ "t" (.generate false)) := by
  have text_name : ListFormat.ofName? "TXT" = some .text := by decide +kernel
  have lines_name : ListFormat.ofName? "jsonl" = some .lines := by decide +kernel
  have list_name : ListFormat.ofName? "Json" = some .json := by decide +kernel
  have agrees := perform_agrees Scan.linked ⟨.ofString "/", oneSource⟩ "t" text_name lines_name
    list_name
  rw [show (collect Scan.linked (.ofString "/") oneSource).outcome =
    .ok [⟨"src", "/src/a.js"⟩, ⟨"src", "/src/gone"⟩] by rfl] at agrees
  exact ⟨text_name, lines_name, list_name, agrees⟩

end Run

end CacheManifest
