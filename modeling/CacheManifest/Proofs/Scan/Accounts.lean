/-
# Nothing is left out in silence

What a walk meets goes two ways: a file to list becomes an entry, and all that is left
out becomes a line of the log. An account of a source directory keeps both in the order
of the walk. It tells every file that is reached once, on one of the two sides, and
every ignored directory once, at the place where the walk would have gone into it;
whatever is inside such a directory is on neither side. Behind the lines of a source
directory stands one that counts its entries.

Two files may have the same entry, so entries are counted by the places they are made
for. Lines are counted as they are shown. A line shows a path as it reads, so files whose
names read alike are told by lines that look the same, one for each of them. Exclusion goes
by what names read as, too, so that no line about an excluded file looks like one about a
file that has an entry, and none looks as if it were about something inside an ignored
directory. A path with a line feed makes several lines of its own line, and nothing else in
the log does.
-/

import CacheManifest.Proofs.Log.Lines
import CacheManifest.Proofs.Scan.Collection

namespace CacheManifest

open Utf8 (lineFeed)

namespace Scan

variable {fs : Filesystem} {config : Config} {root directory origin : Path} {base : Location}

/-- A file that a walk reaches: one that is listed unless its name is excluded. Through
the standard input nothing is reached. -/
def Reached (fs : Filesystem) (config : Config) (origin : Path) (base place : Location) : Prop :=
  isStandardInput origin = false ∧ Listable fs config origin base place

/-- A directory that a walk reaches and does not go into because of its name. -/
def Skipped (fs : Filesystem) (config : Config) (origin : Path) (base place : Location) : Prop :=
  isStandardInput origin = false ∧ CutOff fs config base place

/-! ## Lines as they are shown -/

/-- The line of a file that is left out because of its name. -/
def excludedLine (path : String) : String := "DEBUG excluded by extension path=" ++ path

/-- The line of a directory that is left out because of its name. -/
def ignoredLine (path : String) : String := "DEBUG skipping ignored directory path=" ++ path

/-- The line behind those of a source directory. -/
def countLine (directory : String) (count : Nat) : String :=
  "DEBUG collected entries dir=" ++ directory ++ " count=" ++ toString count

/-- The place of a file that is left out. -/
def Visit.excluded? : Visit → Option Location
  | .excluded place => some place
  | _ => none

/-- The place of a directory that is left out. -/
def Visit.ignored? : Visit → Option Location
  | .ignored place => some place
  | _ => none

/-- The line of a visit, if it has one, where places are shown in a certain way. -/
def Visit.line? (shown : Location → String) : Visit → Option String
  | .listed _ => none
  | .excluded place => some (excludedLine (shown place))
  | .ignored place => some (ignoredLine (shown place))
  | .unlistable _ _ => none

/-- A source directory, where it leads, and what the walk from there meets. -/
structure Account where
  directory : Path
  base : Location
  visits : List Visit

namespace Account

/-- The places of the files that have an entry. -/
def listed (account : Account) : List Location := account.visits.filterMap Visit.listed?

/-- The places of the files that are left out because of their names. -/
def excluded (account : Account) : List Location := account.visits.filterMap Visit.excluded?

/-- The places of the directories that are left out because of their names. -/
def ignored (account : Account) : List Location := account.visits.filterMap Visit.ignored?

/-- The entries of a source directory. -/
def entries (account : Account) : List Entry :=
  account.listed.map fun place => Entry.ofFile account.directory (relativePath place)

/-- What a place is shown as. -/
def shown (root : Path) (account : Account) (place : Location) : String :=
  (spelled (root.join account.directory) place).display

/-- The lines of what is left out. -/
def lines (root : Path) (account : Account) : List String :=
  account.visits.filterMap (Visit.line? (account.shown root))

/-- All lines of a source directory, the last of which has the number of its entries. -/
def report (root : Path) (account : Account) : List String :=
  account.lines root ++ [countLine account.directory.display account.entries.length]

/-- No path that is shown has a line feed. -/
structure SingleLined (root : Path) (account : Account) : Prop where
  directory : lineFeed ∉ account.directory.bytes
  excluded : ∀ place ∈ account.excluded,
    lineFeed ∉ (spelled (root.join account.directory) place).bytes
  ignored : ∀ place ∈ account.ignored,
    lineFeed ∉ (spelled (root.join account.directory) place).bytes

/-- An account that tells what is there and nothing else, in the order of a walk. -/
structure Faithful (fs : Filesystem) (root : Path) (config : Config) (account : Account) :
    Prop where
  located : fs.locate (root.join account.directory) = .ok account.base
  ordered : account.visits.Pairwise fun visit later => visit.place.Before later.place
  mem_iff : ∀ visit, visit ∈ account.visits ↔
    isStandardInput (root.join account.directory) = false ∧
      visit.Holds fs config (root.join account.directory) account.base
  unobstructed : ∀ place cause, .unlistable place cause ∉ account.visits

/-- An account in which nothing is missing and nothing stands twice.

A file that is reached has an entry or is excluded, and a line shows its path exactly if it
is excluded. Such a line stands as often as excluded files are shown so, hence once if no
other file is shown like this one. The same holds of ignored directories. About what is
inside one there is neither an entry nor a line, and its own line has all that precedes what
is inside on one side and all that follows it on the other. -/
structure Complete (fs : Filesystem) (root : Path) (config : Config) (account : Account) :
    Prop where
  located : fs.locate (root.join account.directory) = .ok account.base
  ordered : account.visits.Pairwise fun visit later => visit.place.Before later.place
  file : ∀ place, Reached fs config (root.join account.directory) account.base place →
    account.listed.count place + account.excluded.count place = 1
  excluded : ∀ place, Reached fs config (root.join account.directory) account.base place →
    (place ∈ account.excluded ↔ Unwanted config place)
  excluded_shown : ∀ place, Reached fs config (root.join account.directory) account.base place →
    (excludedLine (account.shown root place) ∈ account.lines root ↔ place ∈ account.excluded)
  excluded_lines : ∀ path, (account.lines root).count (excludedLine path) =
    (account.excluded.map (account.shown root)).count path
  excluded_once : ∀ place ∈ account.excluded,
    ((account.lines root).count (excludedLine (account.shown root place)) = 1 ↔
      ∀ other, Reached fs config (root.join account.directory) account.base other →
        account.shown root other = account.shown root place → other = place)
  ignored : ∀ place, Skipped fs config (root.join account.directory) account.base place →
    account.ignored.count place = 1
  ignored_lines : ∀ path, (account.lines root).count (ignoredLine path) =
    (account.ignored.map (account.shown root)).count path
  ignored_once : ∀ place ∈ account.ignored,
    ((account.lines root).count (ignoredLine (account.shown root place)) = 1 ↔
      ∀ other, Skipped fs config (root.join account.directory) account.base other →
        account.shown root other = account.shown root place → other = place)
  inside : ∀ place, Skipped fs config (root.join account.directory) account.base place →
    ∀ visit ∈ account.visits, place <+: visit.place → visit = .ignored place
  inside_lines : ∀ place, Skipped fs config (root.join account.directory) account.base place →
    ∀ inner, inner ≠ [] → excludedLine (account.shown root (place ++ inner)) ∉ account.lines root ∧
      ignoredLine (account.shown root (place ++ inner)) ∉ account.lines root
  position : ∀ place, Skipped fs config (root.join account.directory) account.base place →
    ∃ earlier later, account.visits = earlier ++ .ignored place :: later ∧
      account.lines root = earlier.filterMap (Visit.line? (account.shown root)) ++
        ignoredLine (account.shown root place) ::
          later.filterMap (Visit.line? (account.shown root)) ∧
      ∀ inner, (∀ visit ∈ earlier, visit.place.Before (place ++ inner)) ∧
        ∀ visit ∈ later, Location.Before (place ++ inner) visit.place
  nothing_else : ∀ visit ∈ account.visits,
    (∃ place, Reached fs config (root.join account.directory) account.base place ∧
      (visit = .listed place ∨ visit = .excluded place)) ∨
    ∃ place, Skipped fs config (root.join account.directory) account.base place ∧
      visit = .ignored place

end Account

/-! ## Places and lines of a trace -/

section Traces

theorem excluded?_eq_some_iff {visit : Visit} {place : Location} :
    visit.excluded? = some place ↔ visit = .excluded place := by
  cases visit with
  | excluded other => simp [Visit.excluded?]
  | listed other | ignored other | unlistable other cause => simp [Visit.excluded?]

theorem ignored?_eq_some_iff {visit : Visit} {place : Location} :
    visit.ignored? = some place ↔ visit = .ignored place := by
  cases visit with
  | ignored other => simp [Visit.ignored?]
  | listed other | excluded other | unlistable other cause => simp [Visit.ignored?]

variable {trace : List Visit} {place : Location} {path other line : String}
  {shown : Location → String} {read : Visit → Option Location} {make : Location → Visit}

theorem mem_filterMap_excluded? :
    place ∈ trace.filterMap Visit.excluded? ↔ .excluded place ∈ trace := by
  simp only [List.mem_filterMap, excluded?_eq_some_iff, exists_eq_right]

theorem mem_filterMap_ignored? :
    place ∈ trace.filterMap Visit.ignored? ↔ .ignored place ∈ trace := by
  simp only [List.mem_filterMap, ignored?_eq_some_iff, exists_eq_right]

/-- What is read off the visits of a trace without repetition has none either, if each
visit is told by what is read off it. -/
theorem nodup_filterMap_visit
    (told : ∀ {visit place}, read visit = some place ↔ visit = make place)
    (once : trace.Nodup) : (trace.filterMap read).Nodup := by
  apply once.filterMap
  intro visit other place here there
  exact (told.mp here).trans (told.mp there).symm

@[simp]
theorem excludedLine_inj : excludedLine path = excludedLine other ↔ path = other := by
  unfold excludedLine
  exact String.append_right_inj _

@[simp]
theorem ignoredLine_inj : ignoredLine path = ignoredLine other ↔ path = other := by
  unfold ignoredLine
  exact String.append_right_inj _

/-- The two kinds of lines are told apart by their first words. -/
theorem excludedLine_ne_ignoredLine : excludedLine path ≠ ignoredLine other := by
  intro same
  unfold excludedLine ignoredLine at same
  have seventh := congrArg (fun line => line.toList[6]?) same
  simp at seventh

theorem line?_eq_excludedLine_iff {visit : Visit} :
    visit.line? shown = some (excludedLine path) ↔
      ∃ place, visit.excluded? = some place ∧ shown place = path := by
  cases visit with
  | listed place | unlistable place cause => simp [Visit.line?, Visit.excluded?]
  | excluded place => simp [Visit.line?, Visit.excluded?]
  | ignored place => simp [Visit.line?, Visit.excluded?, excludedLine_ne_ignoredLine.symm]

theorem line?_eq_ignoredLine_iff {visit : Visit} :
    visit.line? shown = some (ignoredLine path) ↔
      ∃ place, visit.ignored? = some place ∧ shown place = path := by
  cases visit with
  | listed place | unlistable place cause => simp [Visit.line?, Visit.ignored?]
  | excluded place => simp [Visit.line?, Visit.ignored?, excludedLine_ne_ignoredLine]
  | ignored place => simp [Visit.line?, Visit.ignored?]

/-- A line stands as often as places are shown as its path that are told by such lines. -/
theorem count_line
    (told : ∀ {visit : Visit}, visit.line? shown = some line ↔
      ∃ place, read visit = some place ∧ shown place = path) :
    (trace.filterMap (Visit.line? shown)).count line =
      ((trace.filterMap read).map shown).count path := by
  rw [List.map_filterMap, List.count_filterMap, List.count_filterMap]
  apply List.countP_congr
  intro visit _
  rw [beq_iff_eq, beq_iff_eq, told, Option.map_eq_some_iff]

theorem line_mem_iff
    (told : ∀ {visit : Visit}, visit.line? shown = some line ↔
      ∃ place, read visit = some place ∧ shown place = path) :
    line ∈ trace.filterMap (Visit.line? shown) ↔
      ∃ place ∈ trace.filterMap read, shown place = path := by
  rw [← List.count_pos_iff, count_line told, List.count_pos_iff, List.mem_map]

/-- Of places without repetition one is shown once exactly if no other is shown like it. -/
theorem count_map_eq_one_iff {places : List Location} (once : places.Nodup)
    (inside : place ∈ places) :
    (places.map shown).count (shown place) = 1 ↔
      ∀ other ∈ places, shown other = shown place → other = place := by
  obtain ⟨front, back, rfl⟩ := List.append_of_mem inside
  have fresh : place ∉ front ++ back := (List.nodup_cons.mp (List.nodup_middle.mp once)).1
  rw [(List.perm_middle.map shown).count_eq, List.map_cons, List.count_cons_self,
    Nat.add_eq_right, List.count_eq_zero, List.mem_map]
  refine ⟨fun unlike other there same => ?_, ?_⟩
  · rcases List.mem_cons.mp (List.perm_middle.mem_iff.mp there) with rfl | elsewhere
    · rfl
    · exact absurd ⟨other, elsewhere, same⟩ unlike
  · rintro alone ⟨other, elsewhere, same⟩
    have there := List.perm_middle.mem_iff.mpr (List.mem_cons_of_mem place elsewhere)
    exact fresh (alone other there same ▸ elsewhere)

end Traces

/-! ## What names read as -/

section Readings

variable {place other : Location}

/-- Files are excluded by what their names read as. -/
theorem unwanted_congr (same : reading place = reading other) :
    Unwanted config place ↔ Unwanted config other := by
  have by_reading (place : Location) : Unwanted config place ↔
      ∃ text, (reading place).getLast? = some text ∧ config.excludes text = true := by
    simp [Unwanted, reading, List.getLast?_map]
  rw [by_reading, by_reading, same]

/-- Nothing that a walk tells reads as if it were inside a directory that is ignored. -/
theorem CutOff.reading_ne (cut : CutOff fs config base place) {inner : Location}
    (further : inner ≠ []) {visit : Visit} (holds : visit.Holds fs config origin base) :
    reading visit.place ≠ reading (place ++ inner) := by
  obtain ⟨name, last, ignored⟩ := cut.ignored
  intro same
  have passed : name.text ∈ reading visit.place.dropLast := by
    rw [reading, List.map_dropLast, ← reading, same, reading, ← List.map_dropLast,
      List.dropLast_append_of_ne_nil further]
    exact List.mem_map_of_mem (List.mem_append_left _ (List.mem_of_getLast? last))
  obtain ⟨alike, inside, reads⟩ := List.mem_map.mp passed
  exact holds.unpruned alike inside (reads ▸ ignored)

theorem Visit.Holds.place_ne_nil {visit : Visit} (holds : visit.Holds fs config origin base)
    (free : ∀ place cause, visit ≠ .unlistable place cause) : visit.place ≠ [] := by
  cases visit with
  | listed place | excluded place => exact holds.1.below
  | ignored place =>
      obtain ⟨name, last, -⟩ := holds.ignored
      rintro (rfl : place = [])
      cases last
  | unlistable place cause => exact absurd rfl (free place cause)

/-- Of a directory that is left out, the only true visit at it or below it says so. -/
theorem CutOff.eq_ignored (cut : CutOff fs config base place) {visit : Visit}
    (holds : visit.Holds fs config origin base) (below : place <+: visit.place) :
    visit = .ignored place := by
  obtain ⟨node, there, inside⟩ := cut.directory
  obtain ⟨name, last, ignored⟩ := cut.ignored
  have unpruned := cut.unpruned
  obtain ⟨front, rfl⟩ := List.getLast?_eq_some_iff.mp last
  rw [List.dropLast_concat] at unpruned
  exact (holds_iff_of_ignored there inside unpruned ignored).mp ⟨below, holds⟩

end Readings

/-! ## Accounts that are complete -/

namespace Account

variable {account : Account} {place other : Location}

theorem excludedLine_mem_iff {path : String} : excludedLine path ∈ account.lines root ↔
    ∃ place ∈ account.excluded, account.shown root place = path :=
  line_mem_iff line?_eq_excludedLine_iff

theorem ignoredLine_mem_iff {path : String} : ignoredLine path ∈ account.lines root ↔
    ∃ place ∈ account.ignored, account.shown root place = path :=
  line_mem_iff line?_eq_ignoredLine_iff

namespace Faithful

variable (faithful : account.Faithful fs root config)

include faithful

theorem nodup : account.visits.Nodup := by
  apply faithful.ordered.imp
  rintro visit _ earlier rfl
  exact Location.not_before_self _ earlier

theorem holds {visit : Visit} (inside : visit ∈ account.visits) :
    visit.Holds fs config (root.join account.directory) account.base :=
  ((faithful.mem_iff visit).mp inside).2

theorem place_ne_nil {visit : Visit} (inside : visit ∈ account.visits) : visit.place ≠ [] :=
  (faithful.holds inside).place_ne_nil fun place cause same =>
    faithful.unobstructed place cause (same ▸ inside)

theorem mem_listed_iff
    (reached : Reached fs config (root.join account.directory) account.base place) :
    place ∈ account.listed ↔ ¬ Unwanted config place := by
  rw [listed, mem_filterMap_listed?, faithful.mem_iff, and_iff_right reached.1]
  exact and_iff_right reached.2

theorem mem_excluded_iff : place ∈ account.excluded ↔
    Reached fs config (root.join account.directory) account.base place ∧ Unwanted config place := by
  rw [excluded, mem_filterMap_excluded?, faithful.mem_iff, Reached, and_assoc]
  rfl

theorem mem_ignored_iff : place ∈ account.ignored ↔
    Skipped fs config (root.join account.directory) account.base place := by
  rw [ignored, mem_filterMap_ignored?, faithful.mem_iff, Skipped]
  rfl

theorem nodup_excluded : account.excluded.Nodup :=
  nodup_filterMap_visit excluded?_eq_some_iff faithful.nodup

theorem nodup_ignored : account.ignored.Nodup :=
  nodup_filterMap_visit ignored?_eq_some_iff faithful.nodup

/-- A file that is reached stands on one side of the account, and there once. -/
theorem count_file
    (reached : Reached fs config (root.join account.directory) account.base place) :
    account.listed.count place + account.excluded.count place = 1 := by
  have once : account.listed.Nodup := nodup_filterMap_visit listed?_eq_some_iff faithful.nodup
  rw [once.count, faithful.nodup_excluded.count]
  by_cases unwanted : Unwanted config place
  · rw [if_neg fun listed => (faithful.mem_listed_iff reached).mp listed unwanted,
      if_pos (faithful.mem_excluded_iff.mpr ⟨reached, unwanted⟩)]
  · rw [if_pos ((faithful.mem_listed_iff reached).mpr unwanted),
      if_neg fun excluded => unwanted (faithful.mem_excluded_iff.mp excluded).2]

/-- Places are shown alike exactly if their names read alike. -/
theorem shown_eq_iff (below : place ≠ []) (other_below : other ≠ []) :
    account.shown root place = account.shown root other ↔ reading place = reading other :=
  display_spelled_eq_iff (Filesystem.written_of_locate faithful.located).1 below other_below

/-- No line about an excluded file looks like one about a file that has an entry. -/
theorem excludedLine_shown_mem_iff
    (reached : Reached fs config (root.join account.directory) account.base place) :
    excludedLine (account.shown root place) ∈ account.lines root ↔ place ∈ account.excluded := by
  rw [excludedLine_mem_iff]
  refine ⟨?_, fun excluded => ⟨place, excluded, rfl⟩⟩
  rintro ⟨other, excluded, same⟩
  obtain ⟨other_reached, unwanted⟩ := faithful.mem_excluded_iff.mp excluded
  have alike := (faithful.shown_eq_iff other_reached.2.below reached.2.below).mp same
  exact faithful.mem_excluded_iff.mpr ⟨reached, (unwanted_congr alike).mp unwanted⟩

theorem count_excludedLine_eq_one_iff (excluded : place ∈ account.excluded) :
    (account.lines root).count (excludedLine (account.shown root place)) = 1 ↔
      ∀ other, Reached fs config (root.join account.directory) account.base other →
        account.shown root other = account.shown root place → other = place := by
  obtain ⟨reached, unwanted⟩ := faithful.mem_excluded_iff.mp excluded
  rw [lines, count_line line?_eq_excludedLine_iff]
  refine (count_map_eq_one_iff faithful.nodup_excluded excluded).trans
    ⟨fun alone other other_reached same => ?_, fun alone other inside same => ?_⟩
  · have alike := (faithful.shown_eq_iff other_reached.2.below reached.2.below).mp same
    refine alone other (faithful.mem_excluded_iff.mpr ⟨other_reached, ?_⟩) same
    exact (unwanted_congr alike).mpr unwanted
  · exact alone other (faithful.mem_excluded_iff.mp inside).1 same

theorem count_ignoredLine_eq_one_iff (ignored : place ∈ account.ignored) :
    (account.lines root).count (ignoredLine (account.shown root place)) = 1 ↔
      ∀ other, Skipped fs config (root.join account.directory) account.base other →
        account.shown root other = account.shown root place → other = place := by
  rw [lines, count_line line?_eq_ignoredLine_iff]
  refine (count_map_eq_one_iff faithful.nodup_ignored ignored).trans (forall_congr' fun other => ?_)
  rw [faithful.mem_ignored_iff]

theorem eq_ignored
    (skipped : Skipped fs config (root.join account.directory) account.base place)
    {visit : Visit} (inside : visit ∈ account.visits) (below : place <+: visit.place) :
    visit = .ignored place :=
  skipped.2.eq_ignored (faithful.holds inside) below

/-- Nothing inside an ignored directory is shown as anything that has a line. -/
theorem not_mem_lines_inside
    (skipped : Skipped fs config (root.join account.directory) account.base place)
    {inner : Location} (further : inner ≠ []) :
    excludedLine (account.shown root (place ++ inner)) ∉ account.lines root ∧
      ignoredLine (account.shown root (place ++ inner)) ∉ account.lines root := by
  have below : place ++ inner ≠ [] := List.append_ne_nil_of_right_ne_nil place further
  have unlike {visit : Visit} (inside : visit ∈ account.visits) :
      account.shown root visit.place ≠ account.shown root (place ++ inner) := by
    rw [Ne, faithful.shown_eq_iff (faithful.place_ne_nil inside) below]
    exact skipped.2.reading_ne further (faithful.holds inside)
  rw [excludedLine_mem_iff, ignoredLine_mem_iff]
  refine ⟨?_, ?_⟩
  · rintro ⟨other, excluded, same⟩
    exact unlike (mem_filterMap_excluded?.mp excluded) same
  · rintro ⟨other, ignored, same⟩
    exact unlike (mem_filterMap_ignored?.mp ignored) same

/-- The line of an ignored directory has all that precedes what is in the directory on one
side, and all that follows it on the other. -/
theorem exists_position
    (skipped : Skipped fs config (root.join account.directory) account.base place) :
    ∃ earlier later, account.visits = earlier ++ .ignored place :: later ∧
      account.lines root = earlier.filterMap (Visit.line? (account.shown root)) ++
        ignoredLine (account.shown root place) ::
          later.filterMap (Visit.line? (account.shown root)) ∧
      ∀ inner, (∀ visit ∈ earlier, visit.place.Before (place ++ inner)) ∧
        ∀ visit ∈ later, Location.Before (place ++ inner) visit.place := by
  have there := mem_filterMap_ignored?.mp (faithful.mem_ignored_iff.mpr skipped)
  obtain ⟨earlier, later, split⟩ := List.append_of_mem there
  have ordered := faithful.ordered
  rw [split, List.pairwise_append, List.pairwise_cons] at ordered
  obtain ⟨-, ⟨behind, -⟩, ahead⟩ := ordered
  have told : account.lines root = earlier.filterMap (Visit.line? (account.shown root)) ++
      ignoredLine (account.shown root place) ::
        later.filterMap (Visit.line? (account.shown root)) := by
    rw [lines, split, List.filterMap_append]
    rfl
  refine ⟨earlier, later, split, told,
    fun inner => ⟨fun visit inside => ?_, fun visit inside => ?_⟩⟩
  · exact (ahead visit inside _ List.mem_cons_self).append inner
  · have past : place.Before visit.place := behind visit inside
    refine Location.before_of_not_isPrefix past (fun below => ?_) inner
    have member : visit ∈ account.visits := by
      rw [split]
      exact List.mem_append_right _ (List.mem_cons_of_mem _ inside)
    rw [faithful.eq_ignored skipped member below] at past
    exact Location.not_before_self place past

theorem complete : account.Complete fs root config where
  located := faithful.located
  ordered := faithful.ordered
  file _ reached := faithful.count_file reached
  excluded _ reached := faithful.mem_excluded_iff.trans (and_iff_right reached)
  excluded_shown _ reached := faithful.excludedLine_shown_mem_iff reached
  excluded_lines _ := count_line line?_eq_excludedLine_iff
  excluded_once _ excluded := faithful.count_excludedLine_eq_one_iff excluded
  ignored _ skipped :=
    List.count_eq_one_of_mem faithful.nodup_ignored (faithful.mem_ignored_iff.mpr skipped)
  ignored_lines _ := count_line line?_eq_ignoredLine_iff
  ignored_once _ ignored := faithful.count_ignoredLine_eq_one_iff ignored
  inside _ skipped _ inside below := faithful.eq_ignored skipped inside below
  inside_lines _ skipped _ further := faithful.not_mem_lines_inside skipped further
  position _ skipped := faithful.exists_position skipped
  nothing_else visit inside := by
    obtain ⟨walks, holds⟩ := (faithful.mem_iff visit).mp inside
    cases visit with
    | listed place => exact Or.inl ⟨place, ⟨walks, holds.1⟩, Or.inl rfl⟩
    | excluded place => exact Or.inl ⟨place, ⟨walks, holds.1⟩, Or.inr rfl⟩
    | ignored place => exact Or.inr ⟨place, ⟨walks, holds⟩, rfl⟩
    | unlistable place cause => exact absurd inside (faithful.unobstructed place cause)

end Faithful

/-! ## Events behind the lines -/

/-- What is reported about a source directory. -/
def events (root : Path) (account : Account) : List Log.Event :=
  account.visits.filterMap (Visit.event? (root.join account.directory)) ++
    [.collected account.directory account.entries.length]

/-- The lines of a source directory are what its events are shown as. -/
theorem map_shown_events : (account.events root).map Log.Event.shown = account.report root := by
  have told : (account.visits.filterMap (Visit.event? (root.join account.directory))).map
      Log.Event.shown = account.lines root := by
    rw [List.map_filterMap, lines]
    apply List.filterMap_congr
    intro visit _
    cases visit with
    | listed place | unlistable place cause => rfl
    | excluded place => exact congrArg some (Log.Event.shown_excluded _)
    | ignored place => exact congrArg some (Log.Event.shown_ignored _)
  rw [events, report, List.map_append, told, List.map_singleton, Log.Event.shown_collected]
  rfl

/-- The events of a source directory are shown on one line each exactly if none of its paths
has a line feed. -/
theorem singleLined_iff :
    account.SingleLined root ↔ ∀ event ∈ account.events root, event.SingleLined := by
  refine ⟨fun single event inside => ?_, fun each => ⟨?_, ?_, ?_⟩⟩
  · rcases List.mem_append.mp inside with told | counted
    · obtain ⟨visit, met, told⟩ := List.mem_filterMap.mp told
      cases visit with
      | listed place | unlistable place cause => cases told
      | excluded place =>
          cases told
          exact single.excluded place (mem_filterMap_excluded?.mpr met)
      | ignored place =>
          cases told
          exact single.ignored place (mem_filterMap_ignored?.mpr met)
    · obtain rfl := List.mem_singleton.mp counted
      exact single.directory
  · exact each _ (List.mem_append_right _ List.mem_cons_self)
  · intro place inside
    have met := mem_filterMap_excluded?.mp inside
    exact each _ (List.mem_append_left _ (List.mem_filterMap.mpr ⟨_, met, rfl⟩))
  · intro place inside
    have met := mem_filterMap_ignored?.mp inside
    exact each _ (List.mem_append_left _ (List.mem_filterMap.mpr ⟨_, met, rfl⟩))

end Account

/-! ## Accounts of scans and collections -/

/-- A scan that succeeds tells its entries and its log from one trace, in which no
directory stands that could not be listed. -/
theorem exists_trace_of_scan {found : List Entry}
    (succeeded : (scan fs root directory config).outcome = .ok found) :
    ∃ visits, trace fs root directory config = .ok visits ∧ obstructed? visits = none ∧
      found = Scan.entries (root.join directory) directory visits ∧
      (scan fs root directory config).log =
        visits.filterMap (Visit.event? (root.join directory)) := by
  cases traced : trace fs root directory config with
  | error failure => simp [scan, traced] at succeeded
  | ok visits =>
      cases blocked : obstructed? visits with
      | some pair => simp [scan, traced, blocked] at succeeded
      | none =>
          simp only [scan, traced, blocked, before_eq_self blocked] at succeeded ⊢
          cases succeeded
          exact ⟨visits, rfl, blocked, rfl, rfl⟩

/-- A scan that succeeds is told by an account. -/
theorem exists_account {found : List Entry}
    (succeeded : (scan fs root directory config).outcome = .ok found) :
    ∃ account : Account, account.directory = directory ∧ account.Faithful fs root config ∧
      found = account.entries ∧ (scan fs root directory config).log =
        account.visits.filterMap (Visit.event? (root.join directory)) := by
  obtain ⟨start, lookup, inside⟩ := exists_start_of_scan succeeded
  obtain ⟨base, located, begins⟩ := Filesystem.exists_of_metadata lookup
  obtain ⟨visits, traced, free, rfl, logged⟩ := exists_trace_of_scan succeeded
  have faithful : Account.Faithful fs root config ⟨directory, base, visits⟩ := by
    cases input : isStandardInput (root.join directory) with
    | true =>
        obtain rfl : [] = visits := by simpa [trace, lookup, inside, input] using traced
        exact ⟨located, List.Pairwise.nil, by simp [input], by simp⟩
    | false =>
        obtain rfl : (walkFrom fs config (root.join directory)).visits start [] true = visits := by
          simpa [trace, lookup, inside, input] using traced
        have listed := (obstructed?_eq_none_iff_forall_listed located begins inside).mp free
        refine ⟨located, pairwise_visits start [] true, fun visit => ?_,
          obstructed?_eq_none_iff.mp free⟩
        rw [mem_trace_iff located begins inside, and_iff_right input]
        exact and_iff_left_of_imp fun holds => holds.uncovered listed
  refine ⟨⟨directory, base, visits⟩, rfl, faithful, ?_, logged⟩
  apply filterMap_entryOf? (Filesystem.written_of_locate located).1
  intro place inside
  exact faithful.place_ne_nil (mem_filterMap_listed?.mp inside)

/-- All entries and events of a collection that succeeds are told by accounts of its source
directories, one for each in the order they are configured in. -/
theorem exists_accounts {directories : List Path} {collected : List Entry}
    (succeeded : (collectFrom fs root config directories).outcome = .ok collected) :
    ∃ accounts : List Account, accounts.map Account.directory = directories ∧
      (∀ account ∈ accounts, account.Faithful fs root config) ∧
      collected = accounts.flatMap Account.entries ∧
      (collectFrom fs root config directories).log = accounts.flatMap (Account.events root) := by
  induction directories generalizing collected with
  | nil =>
      cases succeeded
      exact ⟨[], rfl, by simp, rfl, rfl⟩
  | cons directory others ih =>
      obtain ⟨parts, each, rfl⟩ := collectFrom_eq_ok_iff.mp succeeded
      cases each with
      | @cons _ part _ parts here each =>
          have rest := collectFrom_eq_ok_iff.mpr ⟨parts, each, rfl⟩
          obtain ⟨account, rfl, faithful, rfl, logged⟩ := exists_account here
          obtain ⟨accounts, rfl, all_faithful, collected, log⟩ := ih rest
          have each_faithful := List.forall_mem_cons.mpr ⟨faithful, all_faithful⟩
          refine ⟨account :: accounts, rfl, each_faithful, ?_, ?_⟩
          · rw [List.flatten_cons, collected, List.flatMap_cons]
          · simp only [collectFrom, here, logged, log, Account.events, List.flatMap_cons,
              List.append_assoc, List.singleton_append]

/-- A collection that succeeds accounts for all that its walks reach, source directory by
source directory in the order they are configured in: the entries are those of complete
accounts, and the debug log is their lines, each directory's followed by the number of its
entries. Cut at its line feeds it gives these lines exactly if no path in them has one. -/
theorem collect_accounts {collected : List Entry}
    (succeeded : (collect fs root config).outcome = .ok collected) :
    ∃ accounts : List Account, accounts.map Account.directory = config.sourceDirs ∧
      (∀ account ∈ accounts, account.Complete fs root config) ∧
      collected = accounts.flatMap Account.entries ∧
      Log.lines .debug (collect fs root config).log =
        String.join ((accounts.flatMap (Account.report root)).map (· ++ "\n")) ∧
      ((Log.lines .debug (collect fs root config).log).toList.splitOn '\n' =
          (accounts.flatMap (Account.report root)).map String.toList ++ [[]] ↔
        ∀ account ∈ accounts, account.SingleLined root) := by
  obtain ⟨accounts, configured, faithful, entries, log⟩ := exists_accounts succeeded
  have whole : (collect fs root config).log = accounts.flatMap (Account.events root) := log
  have shown : accounts.flatMap (Account.report root) =
      (collect fs root config).log.map Log.Event.shown := by
    simp only [whole, List.map_flatMap, Account.map_shown_events]
  refine ⟨accounts, configured, fun account inside => (faithful account inside).complete,
    entries, ?_, ?_⟩
  · rw [shown, Log.lines, Log.filter_shows_debug, List.map_map]
    rfl
  · have cut := Log.splitOn_lines_iff .debug (collect fs root config).log
    rw [Log.filter_shows_debug] at cut
    rw [shown, List.map_map]
    refine cut.trans ?_
    simp only [whole, List.forall_mem_flatMap, Account.singleLined_iff]

/-- In the directory behind the link, a directory is ignored and a recording excluded before
the entries are counted. -/
theorem collect_accounts_linked :
    (collect linked (.ofString "/") oneSource).outcome =
        .ok [⟨"src", "/src/a.js"⟩, ⟨"src", "/src/gone"⟩] ∧
      Log.lines .debug (collect linked (.ofString "/") oneSource).log =
        "DEBUG skipping ignored directory path=/src/.svn\n" ++
          "DEBUG excluded by extension path=/src/b.mp3\n" ++
            "DEBUG collected entries dir=src count=2\n" ∧
      ∃ accounts : List Account, accounts.map Account.directory = [.ofString "src"] ∧
        (∀ account ∈ accounts, account.Complete linked (.ofString "/") oneSource) ∧
        [⟨"src", "/src/a.js"⟩, ⟨"src", "/src/gone"⟩] = accounts.flatMap Account.entries ∧
        Log.lines .debug (collect linked (.ofString "/") oneSource).log =
          String.join ((accounts.flatMap (Account.report (.ofString "/"))).map (· ++ "\n")) ∧
        ((Log.lines .debug (collect linked (.ofString "/") oneSource).log).toList.splitOn '\n' =
            (accounts.flatMap (Account.report (.ofString "/"))).map String.toList ++ [[]] ↔
          ∀ account ∈ accounts, account.SingleLined (.ofString "/")) := by
  have succeeded : (collect linked (.ofString "/") oneSource).outcome =
      .ok [⟨"src", "/src/a.js"⟩, ⟨"src", "/src/gone"⟩] := by rfl
  exact ⟨succeeded, by decide +kernel, collect_accounts succeeded⟩

/-- The name of a recording with a line feed in it. -/
def cutName : Name := ⟨Utf8.encode "x\n.mp3", by decide⟩

/-- The name of a recording that begins with a byte that begins no character. -/
def lowName : Name := ⟨0xFE :: Utf8.encode ".mp3", by decide⟩

/-- The name of a recording that begins with another such byte. -/
def highName : Name := ⟨0xFF :: Utf8.encode ".mp3", by decide⟩

/-- Three recordings, of which the names of two read alike and that of one makes two lines. -/
def blurred : Filesystem where
  top :=
    .directory .newDirectory [sourceName] (List.nodup_singleton _) fun _ =>
      .directory .newDirectory [lowName, cutName, highName] (by decide) fun _ =>
        .file .newFile []
  workingDirectory := []

/-- Three files are excluded and none of them has exactly one line with its path: one has
none, and the other two have the same one twice. -/
theorem collect_blurred :
    (collect blurred (.ofString "/") oneSource).outcome = .ok [] ∧
      (∀ name ∈ [cutName, lowName, highName],
        Reached blurred oneSource (Path.join (.ofString "/") (.ofString "src")) [sourceName]
          [name]) ∧
      Log.lines .debug (collect blurred (.ofString "/") oneSource).log =
        "DEBUG excluded by extension path=/src/x\n.mp3\n" ++
          "DEBUG excluded by extension path=/src/\uFFFD.mp3\n" ++
            "DEBUG excluded by extension path=/src/\uFFFD.mp3\n" ++
              "DEBUG collected entries dir=src count=0\n" ∧
      [cutName, lowName, highName].map (fun name =>
        (Log.lines .debug (collect blurred (.ofString "/") oneSource).log).toList.splitOn '\n'
          |>.count (excludedLine (spelled (.ofString "/src") [name]).display).toList) =
        [0, 2, 2] := by
  have logged : Log.lines .debug (collect blurred (.ofString "/") oneSource).log =
      "DEBUG excluded by extension path=/src/x\n.mp3\n" ++
        "DEBUG excluded by extension path=/src/\uFFFD.mp3\n" ++
          "DEBUG excluded by extension path=/src/\uFFFD.mp3\n" ++
            "DEBUG collected entries dir=src count=0\n" := by decide +kernel
  rw [logged]
  refine ⟨by rfl, fun name inside => ?_, rfl, by decide +kernel⟩
  refine ⟨by rfl, by simp, Or.inl ⟨.newFile, [], ?_⟩, by simp⟩
  fin_cases inside <;> rfl

end Scan

end CacheManifest
