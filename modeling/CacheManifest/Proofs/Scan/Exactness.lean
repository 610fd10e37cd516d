/-
# A scan lists exactly the files

What a successful scan answers with is told by the tree: one entry for each
place below the source directory that holds a regular file, or a link leading to
no directory, and that no name keeps out. Nothing is listed twice, even where
two files come to the same entry because their names read alike.
-/

import CacheManifest.Proofs.Scan.Outcomes

namespace CacheManifest

namespace Scan

variable {fs : Filesystem} {config : Config} {root directory origin : Path} {base : Location}

/-- The places a scan lists: all that are listable and wanted and no others, in
the order of a walk. -/
structure Listing (fs : Filesystem) (config : Config) (origin : Path) (base : Location)
    (places : List Location) : Prop where
  ordered : places.Pairwise Location.Before
  mem_iff : ∀ place, place ∈ places ↔
    Listable fs config origin base place ∧ ¬ Unwanted config place

theorem Listing.nodup {places : List Location} (listing : Listing fs config origin base places) :
    places.Nodup :=
  Location.nodup_of_pairwise_before listing.ordered

theorem Listing.below {places : List Location} (listing : Listing fs config origin base places)
    {place : Location} (inside : place ∈ places) : place ≠ [] :=
  ((listing.mem_iff place).mp inside).1.below

theorem listed?_eq_some_iff {visit : Visit} {place : Location} :
    visit.listed? = some place ↔ visit = .listed place := by
  cases visit with
  | listed other => simp [Visit.listed?]
  | excluded other | ignored other | unlistable other cause => simp [Visit.listed?]

theorem mem_filterMap_listed? {trace : List Visit} {place : Location} :
    place ∈ trace.filterMap Visit.listed? ↔ .listed place ∈ trace := by
  simp only [List.mem_filterMap, listed?_eq_some_iff, exists_eq_right]

/-- A trace that meets no obstacle lists what the tree says. -/
theorem listing_visits {start : Node} (located : fs.locate origin = .ok base)
    (begins : fs.top.at? base = some start) (inside : start.isDirectory = true)
    (listed : ∀ place, Entered fs config base place →
      ∃ names, fs.list (spelled origin place) = .ok names) :
    Listing fs config origin base
      (((walkFrom fs config origin).visits start [] true).filterMap Visit.listed?) := by
  refine ⟨?_, ?_⟩
  · rw [List.pairwise_filterMap]
    apply (pairwise_visits start [] true).imp
    intro visit later earlier place shown other shown_later
    rw [listed?_eq_some_iff] at shown shown_later
    subst shown shown_later
    exact earlier
  · intro place
    rw [mem_filterMap_listed?, mem_trace_iff located begins inside]
    exact and_iff_left_of_imp fun holds => Visit.Holds.uncovered holds listed

/-- The entry of a listed place is made from its names. -/
theorem filterMap_entryOf? (written : origin.bytes ≠ []) {places : List Location}
    (below : ∀ place ∈ places, place ≠ []) :
    places.filterMap (entryOf? origin directory) =
      places.map fun place => Entry.ofFile directory (relativePath place) := by
  rw [← List.filterMap_eq_map]
  apply List.filterMap_congr
  intro place inside
  rw [entryOf?, stripPrefix?_spelled written (below place inside)]
  rfl

/-- A scan that walks and succeeds answers with the entries of a listing. -/
theorem exists_listing_of_not_isStandardInput
    (no_input : isStandardInput (root.join directory) = false) {found : List Entry}
    (succeeded : (scan fs root directory config).outcome = .ok found) :
    ∃ base places, fs.locate (root.join directory) = .ok base ∧
      Listing fs config (root.join directory) base places ∧
        found = places.map fun place => Entry.ofFile directory (relativePath place) := by
  have verdict := verdict_of_not_isStandardInput fs config no_input
  rw [succeeded] at verdict
  cases verdict with
  | sound base start located begins inside listed =>
      have listing := listing_visits located begins inside listed
      refine ⟨base, _, located, listing, ?_⟩
      exact filterMap_entryOf? (Filesystem.written_of_locate located).1 fun place => listing.below

/-- A scan from an absolute root that succeeds answers with the entries of a listing. -/
theorem exists_listing (absolute : root.isAbsolute = true) {found : List Entry}
    (succeeded : (scan fs root directory config).outcome = .ok found) :
    ∃ base places, fs.locate (root.join directory) = .ok base ∧
      Listing fs config (root.join directory) base places ∧
        found = places.map fun place => Entry.ofFile directory (relativePath place) :=
  exists_listing_of_not_isStandardInput
    (not_isStandardInput (Path.isAbsolute_join absolute directory)) succeeded

/-- Whenever a scan succeeds, its entries are those of the files below the source
directory, one for each place and nothing else. -/
theorem scan_exact (absolute : root.isAbsolute = true) {found : List Entry}
    (succeeded : (scan fs root directory config).outcome = .ok found) :
    ∃ base, fs.locate (root.join directory) = .ok base ∧
      ∃ places : List Location, places.Nodup ∧
        (∀ place, place ∈ places ↔
          Listable fs config (root.join directory) base place ∧ ¬ Unwanted config place) ∧
        found = places.map fun place =>
          { sourceDir := directory.normalized
            path := Entry.address directory (relativePath place) } := by
  obtain ⟨base, places, located, listing, same⟩ := exists_listing absolute succeeded
  exact ⟨base, located, places, listing.nodup, listing.mem_iff, same⟩

/-- The name that directories of a tree are ignored by. -/
def hiddenName : Name := ⟨Utf8.encode ".svn", by decide⟩

/-- The name of a link to a source directory. -/
def sourceName : Name := ⟨Utf8.encode "src", by decide⟩

/-- The name of a script. -/
def scriptName : Name := ⟨Utf8.encode "a.js", by decide⟩

/-- The name of a recording, which is excluded. -/
def recordingName : Name := ⟨Utf8.encode "b.mp3", by decide⟩

/-- The name of a link that leads back up. -/
def upName : Name := ⟨Utf8.encode "up", by decide⟩

/-- The name of a link that leads nowhere. -/
def danglingName : Name := ⟨Utf8.encode "gone", by decide⟩

/-- A source directory that is a link to a directory with an ignored name. In it
are a script, a recording, a link to where it came from, a link to nothing, and a
directory that is ignored. -/
def linked : Filesystem where
  top :=
    .directory .newDirectory [sourceName, hiddenName] (by decide) fun outer =>
      if outer = sourceName then .link hiddenName.path
      else
        .directory .newDirectory [upName, scriptName, hiddenName, danglingName, recordingName]
          (by decide) fun name =>
            if name = upName then .link ⟨Path.dotDot⟩
            else if name = danglingName then .link (.ofString "nothing")
            else if name = hiddenName then
              .directory .newDirectory [scriptName] (by decide) fun _ => .file .newFile []
            else .file .newFile []
  workingDirectory := []

/-- Of the directory behind the link, the script and the link to nothing are
listed. -/
theorem scan_exact_linked :
    (scan linked (.ofString "/") (.ofString "src") .default).outcome =
        .ok [⟨"src", "/src/a.js"⟩, ⟨"src", "/src/gone"⟩] ∧
      ∃ base, linked.locate (Path.join (.ofString "/") (.ofString "src")) = .ok base ∧
        ∃ places : List Location, places.Nodup ∧
          (∀ place, place ∈ places ↔
            Listable linked .default (Path.join (.ofString "/") (.ofString "src")) base place ∧
              ¬ Unwanted .default place) ∧
          [⟨"src", "/src/a.js"⟩, ⟨"src", "/src/gone"⟩] = places.map fun place =>
            { sourceDir := Path.normalized (.ofString "src")
              path := Entry.address (.ofString "src") (relativePath place) : Entry } := by
  have succeeded : (scan linked (.ofString "/") (.ofString "src") .default).outcome =
      .ok [⟨"src", "/src/a.js"⟩, ⟨"src", "/src/gone"⟩] := by rfl
  exact ⟨succeeded, scan_exact (by decide) succeeded⟩

end Scan

/-- A project with one source directory. -/
def oneSource : Config := { Config.default with sourceDirs := [.ofString "src"] }

end CacheManifest
