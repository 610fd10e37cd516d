/-
# A subdirectory scanned by itself

A file below a subdirectory has two names: its place below the source directory, and
its place below the subdirectory once that is the source directory. The path that a
walk finds it by is the same byte for byte, and so is its address, wherever the path is
split between what is configured and what is walked.

In the order of places all that lies below one place stands together. A scan of a real
directory that a walk enters is therefore a block of the scan of the whole.
-/

import CacheManifest.Proofs.Manifest.Addresses
import CacheManifest.Proofs.Path.Components
import CacheManifest.Proofs.Scan.Canonical
import CacheManifest.Proofs.Scan.Relisting

namespace CacheManifest

namespace Scan

/-! ## One path, split in two ways -/

theorem not_isAbsolute_relativePath (place : Location) :
    (relativePath place).isAbsolute = false := by
  by_cases below : place = []
  · subst below
    rfl
  · by_contra absolute
    rw [Bool.not_eq_false] at absolute
    have rooted := (Path.spelling_of_isAbsolute absolute).1
    rw [spelling_relativePath below] at rooted
    cases rooted

theorem spelled_append (origin : Path) (sub place : Location) :
    spelled origin (sub ++ place) = spelled (spelled origin sub) place :=
  List.foldl_append

/-- Joining the names of a place at once spells what joining them one by one does. -/
theorem join_relativePath {origin : Path} (written : origin.bytes ≠ []) {sub : Location}
    (below : sub ≠ []) : origin.join (relativePath sub) = spelled origin sub := by
  rw [Path.mk.injEq, Path.bytes_join written (not_isAbsolute_relativePath sub),
    bytes_spelled written below]

/-- The empty path leaves what is joined to it as it is. -/
theorem join_of_bytes_eq_nil {directory : Path} (empty : directory.bytes = []) (rest : Path) :
    directory.join rest = rest := by
  simp [Path.join, empty]

/-- A subdirectory is found by the path that a walk through its source directory finds
it by. -/
theorem join_join_relativePath {root : Path} (written : root.bytes ≠ []) (directory : Path)
    {sub : Location} (below : sub ≠ []) :
    root.join (directory.join (relativePath sub)) = spelled (root.join directory) sub := by
  have relative := not_isAbsolute_relativePath sub
  by_cases absolute : directory.isAbsolute = true
  · have stays (path : Path) (rooted : path.isAbsolute = true) : root.join path = path := by
      rw [Path.join, if_pos rooted]
    rw [stays _ (Path.isAbsolute_join absolute _), stays _ absolute]
    exact join_relativePath (Path.bytes_ne_nil_of_isAbsolute absolute) below
  · rw [Bool.not_eq_true] at absolute
    have joined : (root.join directory).bytes ≠ [] := by
      rw [Path.bytes_join written absolute]
      simp
    rw [Path.mk.injEq, bytes_spelled joined below, Path.stem_join written absolute]
    by_cases empty : directory.bytes = []
    · rw [if_pos empty, join_of_bytes_eq_nil empty, Path.bytes_join written relative]
    · have still_relative : (directory.join (relativePath sub)).isAbsolute = false := by
        rw [join_relativePath empty below, isAbsolute_spelled empty, absolute]
      rw [if_neg empty, Path.bytes_join written still_relative, Path.bytes_join empty relative,
        List.append_assoc, List.cons_append]

/-- The names of a subdirectory are those of its source directory and those of its place. -/
theorem names_join_relativePath (directory : Path) (sub : Location) :
    (directory.join (relativePath sub)).names = directory.names ++ sub.map Name.bytes := by
  have relative := not_isAbsolute_relativePath sub
  by_cases empty : directory.bytes = []
  · have nameless : directory.names = [] := by
      simp [Path.names_eq, Path.bearingSegments, empty, Path.bearing]
    rw [join_of_bytes_eq_nil empty, names_relativePath, nameless, List.nil_append]
  · rw [← names_relativePath sub, Path.names_eq, Path.names_eq, Path.names_eq,
      Path.bearingSegments_join empty relative, List.filter_append]

/-- A file has the same address whether a directory above it is walked to or configured. -/
theorem address_join_relativePath (directory : Path) (sub : Location) {place : Location}
    (below : place ≠ []) :
    Entry.address (directory.join (relativePath sub)) (relativePath place) =
      Entry.address directory (relativePath (sub ++ place)) := by
  obtain ⟨front, last, rfl⟩ := List.eq_nil_or_concat' place |>.resolve_left below
  rw [Entry.address, Entry.address, ← List.append_assoc, addressChars_relativePath,
    addressChars_relativePath, names_join_relativePath, List.map_append, List.append_assoc]

/-! ## What a walk meets below a subdirectory -/

variable {fs : Filesystem} {config : Config} {root directory origin : Path}
  {base sub place : Location}

theorem entered_append_iff (unpruned : ∀ name ∈ sub, name.text ∉ config.ignoredDirs) :
    Entered fs config (base ++ sub) place ↔ Entered fs config base (sub ++ place) := by
  refine ⟨?_, ?_⟩
  · rintro ⟨stands, free⟩
    rw [List.append_assoc] at stands
    exact ⟨stands, List.forall_mem_append.mpr ⟨unpruned, free⟩⟩
  · rintro ⟨stands, free⟩
    rw [← List.append_assoc] at stands
    exact ⟨stands, (List.forall_mem_append.mp free).2⟩

theorem listable_append_iff (entered : Entered fs config base sub) :
    Listable fs config (spelled origin sub) (base ++ sub) place ↔
      Listable fs config origin base (sub ++ place) := by
  by_cases here : place = []
  · subst here
    refine iff_of_false (fun listable => listable.below rfl) fun listable => ?_
    obtain ⟨node, there, inside⟩ := entered.directory
    rw [List.append_nil] at listable
    rw [listable.not_isDirectory there] at inside
    cases inside
  · have above : (sub ++ place).dropLast = sub ++ place.dropLast :=
      List.dropLast_append_of_ne_nil here
    refine ⟨?_, ?_⟩
    · rintro ⟨-, kind, free⟩
      rw [List.append_assoc, ← spelled_append] at kind
      refine ⟨List.append_ne_nil_of_right_ne_nil sub here, kind, ?_⟩
      rw [above]
      exact List.forall_mem_append.mpr ⟨entered.unpruned, free⟩
    · rintro ⟨-, kind, free⟩
      rw [← List.append_assoc, spelled_append] at kind
      rw [above] at free
      exact ⟨here, kind, (List.forall_mem_append.mp free).2⟩

theorem unwanted_append_iff (below : place ≠ []) :
    Unwanted config (sub ++ place) ↔ Unwanted config place := by
  rw [Unwanted, Unwanted, List.getLast?_append_of_ne_nil sub below]

/-- What is listed below a subdirectory is what is listed below its place. -/
theorem Listing.mem_append_iff {places inner : List Location}
    (listing : Listing fs config origin base places)
    (inner_listing : Listing fs config (spelled origin sub) (base ++ sub) inner)
    (entered : Entered fs config base sub) : place ∈ inner ↔ sub ++ place ∈ places := by
  rw [listing.mem_iff, inner_listing.mem_iff, listable_append_iff entered]
  refine and_congr_right fun listable => not_congr ?_
  exact (unwanted_append_iff ((listable_append_iff entered).mpr listable).below).symm

/-- A directory that is entered below a sound source directory is sound itself. -/
theorem Sound.append (sound : Sound fs config origin) (located : fs.locate origin = .ok base)
    (entered : Entered fs config base sub) : Sound fs config (spelled origin sub) := by
  have found := sound.locate_entered located entered
  obtain ⟨node, there, inside⟩ := entered.directory
  refine ⟨Filesystem.isDirectory_iff.mpr ⟨base ++ sub, node, found, there, inside⟩, ?_⟩
  intro other place relocated below
  cases found.symm.trans relocated
  rw [← spelled_append]
  exact sound.listed base _ located ((entered_append_iff entered.unpruned).mp below)

/-- What a scan of a subdirectory is to the scan of its source directory: among the places that
are listed, those below the subdirectory stand together, and the subdirectory by itself gives
just these, with the addresses they have in the whole. -/
structure Block (fs : Filesystem) (root directory : Path) (config : Config)
    (base sub : Location) (found part : List Entry) (earlier inner later : List Location) :
    Prop where
  whole : Listing fs config (root.join directory) base
    (earlier ++ inner.map (sub ++ ·) ++ later)
  outside : ∀ place ∈ earlier ++ later, ¬ sub <+: place
  found : found = (earlier ++ inner.map (sub ++ ·) ++ later).map fun place =>
    Entry.ofFile directory (relativePath place)
  part : part = inner.map fun place =>
    { sourceDir := (directory.join (relativePath sub)).normalized
      path := Entry.address directory (relativePath (sub ++ place)) }

/-- A scan that succeeds is made of the scans of its subdirectories: every real directory that
it enters can be scanned by itself, and gives a block of the same addresses. -/
theorem scan_subdirectory (absolute : root.isAbsolute = true) {found : List Entry}
    (succeeded : (scan fs root directory config).outcome = .ok found)
    (located : fs.locate (root.join directory) = .ok base) (below : sub ≠ [])
    (entered : Entered fs config base sub) :
    ∃ part earlier inner later,
      (scan fs root (directory.join (relativePath sub)) config).outcome = .ok part ∧
        Block fs root directory config base sub found part earlier inner later := by
  have written := Path.bytes_ne_nil_of_isAbsolute absolute
  obtain ⟨again, places, relocated, listing, rfl⟩ := exists_listing absolute succeeded
  cases located.symm.trans relocated
  have sound := (scan_eq_ok_iff absolute).mp ⟨_, succeeded⟩
  have same_path := join_join_relativePath written directory below
  obtain ⟨part, part_succeeded⟩ := (scan_eq_ok_iff absolute).mpr
    (same_path.symm ▸ sound.append located entered)
  obtain ⟨start, inner, start_located, inner_listing, rfl⟩ :=
    exists_listing absolute part_succeeded
  rw [same_path] at start_located inner_listing
  cases (sound.locate_entered located entered).symm.trans start_located
  obtain ⟨earlier, later, rfl, outside⟩ := Location.exists_block listing.ordered
    inner_listing.ordered fun place => listing.mem_append_iff inner_listing entered
  refine ⟨_, earlier, inner, later, part_succeeded, listing, outside, rfl, ?_⟩
  apply List.map_congr_left
  intro place inside
  rw [Entry.ofFile, address_join_relativePath directory sub (inner_listing.below inside)]

/-- The directory beside a script, found through itself: its address has its name twice, in
the scan of its parent and in its own. -/
theorem scan_subdirectory_besides :
    let fs := besides [shortName, scriptName] (by decide)
    (scan fs (.ofString "/") (.ofString "src/a/..") .default).outcome =
        .ok [⟨"src/a/..", "/src/a/a/a.js"⟩, ⟨"src/a/..", "/src/a/a.js"⟩] ∧
      (scan fs (.ofString "/") (.ofString "src/a/../a") .default).outcome =
        .ok [⟨"src/a/../a", "/src/a/a/a.js"⟩] ∧
      ∃ earlier inner later, Block fs (.ofString "/") (.ofString "src/a/..") .default
        [sourceName] [shortName]
        [⟨"src/a/..", "/src/a/a/a.js"⟩, ⟨"src/a/..", "/src/a/a.js"⟩]
        [⟨"src/a/../a", "/src/a/a/a.js"⟩] earlier inner later := by
  intro fs
  have succeeded : (scan fs (.ofString "/") (.ofString "src/a/..") .default).outcome =
      .ok [⟨"src/a/..", "/src/a/a/a.js"⟩, ⟨"src/a/..", "/src/a/a.js"⟩] := by rfl
  have by_itself : (scan fs (.ofString "/") (.ofString "src/a/../a") .default).outcome =
      .ok [⟨"src/a/../a", "/src/a/a/a.js"⟩] := by rfl
  have located : fs.locate (Path.join (.ofString "/") (.ofString "src/a/..")) =
      .ok [sourceName] := by rfl
  have entered : Entered fs .default [sourceName] [shortName] :=
    ⟨⟨_, rfl, rfl⟩, by decide⟩
  obtain ⟨part, earlier, inner, later, part_succeeded, block⟩ :=
    scan_subdirectory (by decide) succeeded located (by decide) entered
  cases by_itself.symm.trans part_succeeded
  exact ⟨succeeded, by_itself, earlier, inner, later, block⟩

end Scan

end CacheManifest
