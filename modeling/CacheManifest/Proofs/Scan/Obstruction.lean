/-
# The first directory that cannot be listed

A scan ends at the first directory of its trace that could not be listed. Since
traces follow the order of places, that directory precedes every other one in
the tree that a walk is to enter and that cannot be listed, those included that
are hidden below it and never tried.

A scan goes through if and only if there is none.
-/

import CacheManifest.Proofs.Scan.Visits

namespace CacheManifest

namespace Scan

theorem obstructed?_eq_none_iff {trace : List Visit} :
    obstructed? trace = none ↔ ∀ place cause, .unlistable place cause ∉ trace := by
  induction trace with
  | nil => simp [obstructed?]
  | cons visit others ih =>
      cases visit with
      | listed seen | excluded seen | ignored seen => simp [obstructed?, ih]
      | unlistable seen reason =>
          refine ⟨?_, ?_⟩
          · intro free
            cases free
          · intro absent
            exact absurd List.mem_cons_self (absent seen reason)

theorem before_eq_self {trace : List Visit} (free : obstructed? trace = none) :
    before trace = trace := by
  induction trace with
  | nil => rfl
  | cons visit others ih =>
      cases visit with
      | listed seen | excluded seen | ignored seen =>
          rw [obstructed?] at free
          · simp [before, ih free]
          · simp
      | unlistable seen reason => cases free

/-- In an ordered trace, the obstruction that ends a scan is the least one. -/
theorem mem_of_obstructed? {trace : List Visit}
    (ordered : trace.Pairwise fun visit later => visit.place.Before later.place)
    {place : Location} {cause : SystemError} (first : obstructed? trace = some (place, cause)) :
    .unlistable place cause ∈ trace ∧
      ∀ other reason, .unlistable other reason ∈ trace → ¬ other.Before place := by
  induction trace with
  | nil => cases first
  | cons visit others ih =>
      obtain ⟨head, tail⟩ := List.pairwise_cons.mp ordered
      cases visit with
      | listed seen | excluded seen | ignored seen =>
          obtain ⟨met, least⟩ := ih tail first
          refine ⟨?_, ?_⟩
          · exact List.mem_cons_of_mem _ met
          · intro other reason inside
            exact least other reason (by simpa using inside)
      | unlistable seen reason =>
          cases first
          refine ⟨?_, ?_⟩
          · exact List.mem_cons_self
          · intro other reason inside
            rcases List.mem_cons.mp inside with same | later
            · cases same
              exact Location.not_before_self _
            · exact (head _ later).asymm

variable {fs : Filesystem} {config : Config} {origin : Path} {base : Location}

/-- What is above something in the tree is entered, if nothing on the way is
ignored. -/
theorem entered_of_isPrefix {place above : Location} {found : Node}
    (there : fs.top.at? (base ++ place) = some found)
    (unpruned : ∀ name ∈ place.dropLast, name.text ∉ config.ignoredDirs)
    (prior : above <+: place) (strictly : above ≠ place) : Entered fs config base above := by
  obtain ⟨rest, rfl⟩ := prior
  have further : rest ≠ [] := fun none_left => strictly (by rw [none_left, List.append_nil])
  rw [← List.append_assoc] at there
  refine ⟨?_, ?_⟩
  · exact Node.isDirectory_of_at?_append further there
  · intro name inside
    apply unpruned
    rw [List.dropLast_append_of_ne_nil further]
    exact List.mem_append_left _ inside

theorem Entered.of_isPrefix {place above : Location} (entered : Entered fs config base place)
    (prior : above <+: place) : Entered fs config base above := by
  by_cases same : above = place
  · exact same ▸ entered
  · obtain ⟨found, there, -⟩ := entered.directory
    exact entered_of_isPrefix there
      (fun name inside => entered.unpruned name (List.dropLast_subset _ inside)) prior same

/-- On the way to what a visit truly tells no directory is ignored. -/
theorem Visit.Holds.unpruned {visit : Visit} (holds : visit.Holds fs config origin base) :
    ∀ name ∈ visit.place.dropLast, name.text ∉ config.ignoredDirs := by
  cases visit with
  | listed place | excluded place => exact holds.1.unpruned
  | ignored place => exact CutOff.unpruned holds
  | unlistable place cause =>
      exact fun name inside => holds.1.unpruned name (List.dropLast_subset _ inside)

/-- Above what a visit truly tells all directories are entered, so that none of them hides
it if all that are entered can be listed. -/
theorem Visit.Holds.uncovered {visit : Visit} (holds : visit.Holds fs config origin base)
    (listed : ∀ place, Entered fs config base place →
      ∃ names, fs.list (spelled origin place) = .ok names) : Uncovered fs origin visit.place := by
  obtain ⟨found, there⟩ := holds.exists_at
  intro above prior strictly
  exact listed above (entered_of_isPrefix there holds.unpruned prior strictly)

/-- Above a directory that cannot be listed, or at it, there is an uppermost one. -/
theorem exists_uppermost {place : Location} {cause : SystemError}
    (entered : Entered fs config base place)
    (refused : fs.list (spelled origin place) = .error cause) :
    ∃ (upper : Location) (reason : SystemError), upper <+: place ∧ Entered fs config base upper ∧
      fs.list (spelled origin upper) = .error reason ∧ Uncovered fs origin upper := by
  induction hlength : place.length using Nat.strong_induction_on generalizing place cause with
  | _ length ih =>
      by_cases uncovered : Uncovered fs origin place
      · exact ⟨place, cause, List.prefix_rfl, entered, refused, uncovered⟩
      · simp only [Uncovered, not_forall] at uncovered
        obtain ⟨above, prior, strictly, unlisted⟩ := uncovered
        have shorter : above.length < length :=
          hlength ▸ prior.length_le.lt_of_ne fun same => strictly (prior.eq_of_length same)
        cases listing : fs.list (spelled origin above) with
        | ok names => exact absurd ⟨names, listing⟩ unlisted
        | error earlier =>
            obtain ⟨upper, reason, higher, found⟩ :=
              ih _ shorter (entered.of_isPrefix prior) listing rfl
            exact ⟨upper, reason, higher.trans prior, found⟩

/-- The first directory a walk is to enter and cannot list, in the order of places. -/
structure FirstUnlistable (fs : Filesystem) (config : Config) (origin : Path)
    (base place : Location) (cause : SystemError) : Prop where
  entered : Entered fs config base place
  refused : fs.list (spelled origin place) = .error cause
  first : ∀ other reason, Entered fs config base other →
    fs.list (spelled origin other) = .error reason → ¬ other.Before place

/-- There is only one first directory. -/
theorem FirstUnlistable.unique {place other : Location} {cause reason : SystemError}
    (here : FirstUnlistable fs config origin base place cause)
    (there : FirstUnlistable fs config origin base other reason) :
    place = other ∧ cause = reason := by
  obtain rfl : place = other := Location.eq_of_not_before
    (there.first _ _ here.entered here.refused) (here.first _ _ there.entered there.refused)
  cases here.refused.symm.trans there.refused
  exact ⟨rfl, rfl⟩

section Walk

variable {start : Node} (located : fs.locate origin = .ok base)
  (begins : fs.top.at? base = some start) (directory : start.isDirectory = true)

include located begins directory

/-- The trace of a whole walk holds the true visits that no directory hides. -/
theorem mem_trace_iff (visit : Visit) :
    visit ∈ (walkFrom fs config origin).visits start [] true ↔
      visit.Holds fs config origin base ∧ Uncovered fs origin visit.place := by
  have entered : Entered fs config base [] := ⟨⟨start, by simpa using begins, directory⟩, by simp⟩
  have uncovered : Uncovered fs origin [] := fun above prior strictly =>
    absurd (List.prefix_nil.mp prior) strictly
  have whole := mem_visits_iff located begins (Node.at?_nil start) entered uncovered visit
  rw [Node.admits_nil] at whole
  rw [whole, and_iff_right (List.nil_prefix)]

/-- A directory that is to be entered and cannot be listed leaves a mark in the
trace, of its own or of a directory above it. -/
theorem exists_unlistable_mem_trace {place : Location} {cause : SystemError}
    (entered : Entered fs config base place)
    (refused : fs.list (spelled origin place) = .error cause) :
    ∃ (upper : Location) (reason : SystemError), upper <+: place ∧
      .unlistable upper reason ∈ (walkFrom fs config origin).visits start [] true := by
  obtain ⟨upper, reason, above, entered_upper, refused_upper, uncovered⟩ :=
    exists_uppermost entered refused
  exact ⟨upper, reason, above, (mem_trace_iff located begins directory _).mpr
    ⟨⟨entered_upper, refused_upper⟩, uncovered⟩⟩

/-- A walk is obstructed exactly at the first directory that cannot be listed. -/
theorem obstructed?_eq_some_iff {place : Location} {cause : SystemError} :
    obstructed? ((walkFrom fs config origin).visits start [] true) = some (place, cause) ↔
      FirstUnlistable fs config origin base place cause := by
  have least {found : Location} {reason : SystemError}
      (first : obstructed? ((walkFrom fs config origin).visits start [] true) =
        some (found, reason)) : FirstUnlistable fs config origin base found reason := by
    obtain ⟨met, earliest⟩ := mem_of_obstructed? (pairwise_visits start [] true) first
    obtain ⟨⟨entered, refused⟩, -⟩ := (mem_trace_iff located begins directory _).mp met
    refine ⟨entered, refused, fun other why entered_other refused_other earlier => ?_⟩
    obtain ⟨upper, what, above, tried⟩ :=
      exists_unlistable_mem_trace located begins directory entered_other refused_other
    -- What hides a directory is no later than it.
    have not_earlier := earliest upper what tried
    by_cases same : upper = other
    · exact not_earlier (same ▸ earlier)
    · have ahead : upper.Before other := by
        by_contra behind
        exact same (Location.eq_of_not_before behind (Location.not_before_of_isPrefix above))
      exact not_earlier (ahead.trans earlier)
  refine ⟨?_, ?_⟩
  · exact least
  · intro first
    cases found : obstructed? ((walkFrom fs config origin).visits start [] true) with
    | none =>
        obtain ⟨upper, what, -, tried⟩ :=
          exists_unlistable_mem_trace located begins directory first.entered first.refused
        exact absurd tried (obstructed?_eq_none_iff.mp found upper what)
    | some pair =>
        obtain ⟨rfl, rfl⟩ := (least found).unique first
        rfl

/-- A walk is unobstructed exactly if all it is to enter can be listed. -/
theorem obstructed?_eq_none_iff_forall_listed :
    obstructed? ((walkFrom fs config origin).visits start [] true) = none ↔
      ∀ place, Entered fs config base place →
        ∃ names, fs.list (spelled origin place) = .ok names := by
  refine ⟨?_, ?_⟩
  · intro free place entered
    cases listing : fs.list (spelled origin place) with
    | ok names => exact ⟨names, rfl⟩
    | error cause =>
        obtain ⟨upper, what, -, tried⟩ :=
          exists_unlistable_mem_trace located begins directory entered listing
        exact absurd tried (obstructed?_eq_none_iff.mp free upper what)
  · intro all_listed
    rw [obstructed?_eq_none_iff]
    intro place cause met
    obtain ⟨⟨entered, refused⟩, -⟩ := (mem_trace_iff located begins directory _).mp met
    obtain ⟨names, listing⟩ := all_listed place entered
    cases listing.symm.trans refused

end Walk

end Scan

end CacheManifest
