/-
# One order for every listing

A walk sorts the names of a directory before it takes them, and the names are
distinct, so the order in which a system lists them leaves no mark: the whole of a
scan is the same, its log and its failures included. The files of a successful scan
then come in the order of their places, component by component and byte by byte, with
files and directories side by side.

This is the order of raw names. It is not that of the entries as texts, in which a
slash between two components counts as a character like others.
-/

import CacheManifest.Proofs.Config.Exclusion
import CacheManifest.Proofs.Filesystem.Reordering
import CacheManifest.Proofs.Scan.Files

namespace CacheManifest

namespace Name

/-- Sorting forgets the order in which distinct names are given. -/
theorem sorted_eq_of_perm {names others : List Name} (distinct : names.Nodup)
    (same : names.Perm others) : sorted names = sorted others := by
  have ordered := pairwise_sorted distinct
  have reordered := pairwise_sorted (same.nodup_iff.mp distinct)
  have unique {sequence : List Name}
      (increasing : sequence.Pairwise fun first second => first.bytes < second.bytes) :
      sequence.Nodup := by
    apply increasing.imp
    rintro name _ smaller rfl
    exact List.lt_irrefl _ smaller
  apply List.Perm.eq_of_pairwise _ ordered reordered
  · rw [List.perm_ext_iff_of_nodup (unique ordered) (unique reordered)]
    intro name
    rw [mem_sorted, mem_sorted, same.mem_iff]
  · intro first second _ _ smaller larger
    exact absurd larger (List.lt_asymm smaller)

end Name

namespace Scan

variable {fs other : Filesystem}

/-- Two walks leave the same trace if they leave out the same names and agree on the paths
below their origin. -/
theorem visits_of_reordered {origin : Path} {config settings : Config}
    {leads again : Path → Bool} (exclusions : config.SameExclusions settings)
    (alike : ∀ place, again (spelled origin place) = leads (spelled origin place))
    {first second : Node} (same : first.Reordered second) (place : Location) (reachable : Bool) :
    (Walk.mk origin settings again).visits second place reachable =
      (Walk.mk origin config leads).visits first place reachable := by
  have file_visit (place : Location) (name : Name) :
      (Walk.mk origin settings again).fileVisit place name =
        (Walk.mk origin config leads).fileVisit place name := by
    rw [Walk.fileVisit, Walk.fileVisit, exclusions.excludes]
  induction same generalizing place reachable with
  | file permissions content => rfl
  | link target => rfl
  | pipe => rfl
  | @directory permissions names others distinct unique child entry same each ih =>
      rw [visits_directory, visits_directory, Name.sorted_eq_of_perm distinct same]
      have obstacle : (Walk.mk origin settings again).obstacle place reachable permissions =
          (Walk.mk origin config leads).obstacle place reachable permissions := rfl
      rw [obstacle]
      cases (Walk.mk origin config leads).obstacle place reachable permissions with
      | some cause => rfl
      | none =>
          apply List.flatMap_congr
          intro name inside
          have listed : name ∈ names := same.mem_iff.mpr (Name.mem_sorted.mp inside)
          have below := ih name listed (place ++ [name]) permissions.enter
          have kind := each name listed
          generalize child name = node at below kind
          generalize entry name = node_again at below kind
          cases kind with
          | file => exact congrArg (fun visit => [visit]) (file_visit _ _)
          | pipe => rfl
          | link target => simp only [Walk.entryVisits, alike, file_visit]
          | directory =>
              rw [Walk.entryVisits.eq_def, Walk.entryVisits.eq_def]
              dsimp only
              rw [below, exclusions.ignores]

/-- A scan is the same in both file systems and with both configurations, whatever it comes
to. -/
theorem scan_of_reordered (same : fs.top.Reordered other.top) {root : Path}
    (start : root.isAbsolute = true ∨ other.workingDirectory = fs.workingDirectory)
    (directory : Path) {config settings : Config} (exclusions : config.SameExclusions settings) :
    scan other root directory settings = scan fs root directory config := by
  have starts (place : Location) : (spelled (root.join directory) place).isAbsolute = true ∨
      other.workingDirectory = fs.workingDirectory :=
    start.imp_left fun absolute => isAbsolute_spelled_join absolute directory place
  have leads (place : Location) :=
    Filesystem.isDirectory_of_reordered same (starts place)
  have traced : trace other root directory settings = trace fs root directory config := by
    rw [trace, trace]
    obtain ⟨cause, found, again⟩ | ⟨node, node_again, found, again, here⟩ :=
      Filesystem.metadata_of_reordered same (starts [])
    · rw [spelled_nil] at found again
      rw [found, again]
      cases cause <;> rfl
    · rw [spelled_nil] at found again
      rw [found, again]
      simp only [here.isDirectory_eq, visits_of_reordered exclusions leads here]
  rw [scan, scan, traced]

/-- Entries of files to be listed below a source directory, in the order of the places
of these files: component by component, each by its raw bytes. -/
structure Increasing (fs : Filesystem) (root directory : Path) (config : Config)
    (found : List Entry) (places : List Location) : Prop where
  listed : ∀ place ∈ places, ∃ base, fs.locate (root.join directory) = .ok base ∧
    Listable fs config (root.join directory) base place ∧ ¬ Unwanted config place
  entries : found = places.map fun place => Entry.ofFile directory (relativePath place)
  ordered : places.Pairwise fun first second => first.map Name.bytes < second.map Name.bytes

theorem exists_increasing {root directory : Path} {config : Config} {found : List Entry}
    (succeeded : (scan fs root directory config).outcome = .ok found) :
    ∃ places, Increasing fs root directory config found places := by
  obtain ⟨files, lists, rfl⟩ := exists_lists succeeded
  cases lists with
  | standardInput input => exact ⟨[], by simp, rfl, List.Pairwise.nil⟩
  | walked base places no_input located inside listing =>
      refine ⟨places, ?_, by rw [List.map_map]; rfl, listing.ordered⟩
      intro place member
      exact ⟨base, located, (listing.mem_iff place).mp member⟩

/-- Whatever the order in which the directories of a tree list their names, a scan
comes to the same. If it succeeds, the places of the files increase strictly. -/
theorem scan_canonical (reordered : fs.Reordered other) (root directory : Path)
    (config : Config) :
    scan other root directory config = scan fs root directory config ∧
      ∀ found, (scan fs root directory config).outcome = .ok found →
        ∃ places, Increasing fs root directory config found places :=
  ⟨scan_of_reordered reordered.top (Or.inr reordered.workingDirectory) directory
    (.refl config), fun _ => exists_increasing⟩

/-- The name of a directory that is the beginning of the name of a script. -/
def shortName : Name := ⟨scriptName.bytes.take 1, by decide⟩

/-- A source directory with a script and, beside it, a directory whose name the name of the
script begins with. The script is listed after the directory or before it. -/
def besides (names : List Name) (distinct : names.Nodup) : Filesystem where
  top :=
    .directory .newDirectory [sourceName] (List.nodup_singleton _) fun _ =>
      .directory .newDirectory names distinct fun name =>
        if name = shortName then
          .directory .newDirectory [scriptName] (List.nodup_singleton _) fun _ => .file .newFile []
        else .file .newFile []
  workingDirectory := []

/-- The file in the directory comes before the script, although its entry is the greater
text, in whichever order the two names are listed. -/
theorem scan_canonical_besides :
    (besides [shortName, scriptName] (by decide)).Reordered
        (besides [scriptName, shortName] (by decide)) ∧
      (scan (besides [shortName, scriptName] (by decide)) (.ofString "/") (.ofString "src")
          .default).outcome = .ok [⟨"src", "/src/a/a.js"⟩, ⟨"src", "/src/a.js"⟩] ∧
      "/src/a.js" < "/src/a/a.js" ∧
      scan (besides [scriptName, shortName] (by decide)) (.ofString "/") (.ofString "src")
          .default =
        scan (besides [shortName, scriptName] (by decide)) (.ofString "/") (.ofString "src")
          .default ∧
      ∃ places, Increasing (besides [shortName, scriptName] (by decide)) (.ofString "/")
        (.ofString "src") .default [⟨"src", "/src/a/a.js"⟩, ⟨"src", "/src/a.js"⟩] places := by
  have reordered : (besides [shortName, scriptName] (by decide)).Reordered
      (besides [scriptName, shortName] (by decide)) := by
    refine ⟨.directory _ _ _ (List.Perm.refl _) fun _ _ => ?_, rfl⟩
    refine .directory _ _ _ (List.Perm.swap _ _ _) fun name _ => ?_
    split
    · exact .directory _ _ _ (List.Perm.refl _) fun _ _ => .file _ _
    · exact .file _ _
  have succeeded : (scan (besides [shortName, scriptName] (by decide)) (.ofString "/")
      (.ofString "src") .default).outcome =
        .ok [⟨"src", "/src/a/a.js"⟩, ⟨"src", "/src/a.js"⟩] := by rfl
  obtain ⟨same, increasing⟩ := scan_canonical reordered (.ofString "/") (.ofString "src") .default
  exact ⟨reordered, succeeded, by decide, same, increasing _ succeeded⟩

end Scan

end CacheManifest
