/-
# One line for each file

A manifest that has been written has one line for each entry, between those that
open and close it, as long as no name has a line feed in it. Names are written as
they are, so one that has a line feed ends the line of its file early. What is
behind it is then a line of its own, and may be anything: an address of no file,
a comment, or the head of a section.
-/

import CacheManifest.Proofs.Generation.Effect
import CacheManifest.Proofs.Manifest.Addresses
import CacheManifest.Proofs.Scan.Collection

namespace CacheManifest

open Scan (Listable Unwanted)
open Utf8 (encode lineFeed)

variable {fs : Filesystem} {root : Path} {config : Config} {timestamp : String}

/-- No name on the way to a file that is listed has a line feed in it, from the
source directory on. -/
def SingleLined (fs : Filesystem) (root : Path) (config : Config) : Prop :=
  ∀ directory ∈ config.sourceDirs, ∀ base place,
    fs.locate (root.join directory) = .ok base →
      Listable fs config (root.join directory) base place ∧ ¬ Unwanted config place →
        (∀ name ∈ directory.names, lineFeed ∉ name) ∧ ∀ name ∈ place, lineFeed ∉ name.bytes

/-- The addresses that are collected are single lines exactly if the names are. -/
theorem newline_not_mem_collected_iff (absolute : root.isAbsolute = true) {entries : List Entry}
    (collected : (collect fs root config).outcome = .ok entries) :
    (∀ entry ∈ entries, '\n' ∉ entry.path.toList) ↔ SingleLined fs root config := by
  refine ⟨?_, ?_⟩
  · intro single directory configured base place located listed
    have inside := (Scan.mem_collectFrom_iff absolute collected).mpr
      ⟨directory, configured, base, place, located, listed, rfl⟩
    have plain := single _ inside
    rw [Entry.ofFile, Scan.newline_mem_address listed.1.below, not_or] at plain
    simpa using plain
  · intro single entry inside
    obtain ⟨directory, configured, base, place, located, listed, rfl⟩ :=
      (Scan.mem_collectFrom_iff absolute collected).mp inside
    obtain ⟨above, below⟩ := single directory configured base place located listed
    rw [Entry.ofFile, Scan.newline_mem_address listed.1.below, not_or]
    simpa using ⟨above, below⟩

theorem isAddress_collected (absolute : root.isAbsolute = true) {entries : List Entry}
    (collected : (collect fs root config).outcome = .ok entries) :
    ∀ entry ∈ entries, Manifest.isAddress (encode entry.path) = true := by
  intro entry inside
  obtain ⟨directory, configured, base, place, located, listed, rfl⟩ :=
    (Scan.mem_collectFrom_iff absolute collected).mp inside
  exact Scan.isAddress_address directory listed.1.below

/-- After a generation that succeeds, the output gives the lines it is to have
exactly if no file that is listed has a line feed in its names. Each of the lines
for entries is an address, and there are as many addresses as the summary says. -/
theorem generate_lines (absolute : root.isAbsolute = true)
    (one_line : '\n' ∉ timestamp.toList) {summary : Summary}
    (succeeded : (generate fs root config timestamp).outcome = .ok summary) :
    ∃ entries place permissions content,
      (collect fs root config).outcome = .ok entries ∧
      (generate fs root config timestamp).filesystem.locate (config.outputPath root) =
        .ok place ∧
      (generate fs root config timestamp).filesystem.top.at? place =
        some (.file permissions content) ∧
      (content.splitOn lineFeed = Manifest.lines timestamp entries ++ [[]] ↔
        SingleLined fs root config) ∧
      (∀ entry ∈ entries, Manifest.isAddress (encode entry.path) = true) ∧
      (Manifest.lines timestamp entries).countP Manifest.isAddress = summary.entries := by
  obtain ⟨entries, place, collected, written, rfl⟩ := exists_written succeeded
  obtain ⟨permissions, stands, -⟩ := written.stands
  have addresses := isAddress_collected absolute collected
  refine ⟨entries, place, permissions, _, collected, written.leads, stands, ?_, addresses,
    Manifest.countP_isAddress_lines timestamp addresses⟩
  rw [Manifest.splitOn_renderManifest_iff one_line,
    newline_not_mem_collected_iff absolute collected]

/-- With the source directory behind a link, the lines are those of its two files. -/
theorem generate_lines_linked :
    (generate Scan.linked (.ofString "/") oneSource "t").outcome =
        .ok ⟨.ofString "/cache.appcache", 2⟩ ∧
      ∃ entries place permissions content,
        (collect Scan.linked (.ofString "/") oneSource).outcome = .ok entries ∧
        (generate Scan.linked (.ofString "/") oneSource "t").filesystem.locate
          (oneSource.outputPath (.ofString "/")) = .ok place ∧
        (generate Scan.linked (.ofString "/") oneSource "t").filesystem.top.at? place =
          some (.file permissions content) ∧
        (content.splitOn lineFeed = Manifest.lines "t" entries ++ [[]] ↔
          SingleLined Scan.linked (.ofString "/") oneSource) ∧
        (∀ entry ∈ entries, Manifest.isAddress (encode entry.path) = true) ∧
        (Manifest.lines "t" entries).countP Manifest.isAddress = 2 := by
  have succeeded : (generate Scan.linked (.ofString "/") oneSource "t").outcome =
      .ok ⟨.ofString "/cache.appcache", 2⟩ := by rfl
  exact ⟨succeeded, generate_lines (by decide) (by decide) succeeded⟩

/-- A name with two lines of its own, the second of them the head of a section. -/
def sectionName : Name := ⟨encode "a\nNETWORK:\n", by decide⟩

/-- A source directory with a script in a directory of that name. -/
def divided : Filesystem where
  top :=
    .directory .newDirectory [Scan.sourceName] (List.nodup_singleton _) fun _ =>
      .directory .newDirectory [sectionName] (List.nodup_singleton _) fun _ =>
        .directory .newDirectory [Scan.scriptName] (List.nodup_singleton _) fun _ =>
          .file .newFile []
  workingDirectory := []

/-- The name of one directory opens a section in the manifest and adds an address
to it: with one entry there are two lines that begin like one. -/
theorem generate_divided :
    Utf8.decode? sectionName.bytes = some "a\nNETWORK:\n" ∧
      Path.isAbsolute (.ofString "/") = true ∧ '\n' ∉ "t".toList ∧
      (generate divided (.ofString "/") oneSource "t").outcome =
        .ok ⟨.ofString "/cache.appcache", 1⟩ ∧
      ∃ entries content,
        (collect divided (.ofString "/") oneSource).outcome = .ok entries ∧
        (generate divided (.ofString "/") oneSource "t").filesystem.read
          (.ofString "/cache.appcache") = .ok content ∧
        content.splitOn lineFeed =
          ["CACHE MANIFEST", "#t", "", "/src/a", "NETWORK:", "/a.js", "", "NETWORK:", "*", ""].map
            encode ∧
        (content.splitOn lineFeed).countP Manifest.isAddress = 2 ∧
        content.splitOn lineFeed ≠ Manifest.lines "t" entries ++ [[]] := by
  refine ⟨by rfl, by rfl, by decide, by rfl, [⟨"src", "/src/a\nNETWORK:\n/a.js"⟩],
    encode "CACHE MANIFEST\n#t\n\n/src/a\nNETWORK:\n/a.js\n\nNETWORK:\n*\n", by rfl, by rfl,
    by rfl, by rfl, by decide⟩

end CacheManifest
