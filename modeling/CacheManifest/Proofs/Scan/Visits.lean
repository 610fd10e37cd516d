/-
# What a walk meets

The trace of a walk is told by the tree alone: a visit is in it exactly if what
the visit says is true of its place and every directory above that place can be
listed. What can be listed is what the file system says about the path of the
directory; the walk itself looks at lengths and permissions instead, and the two
agree.

A directory that cannot be listed hides what is below it. There is therefore
always an uppermost one, and that one is in the trace.
-/

import CacheManifest.Proofs.Scan.Order

namespace CacheManifest

namespace Filesystem

/-- The names that the directory at a path lists, as a process is told that opens
and reads it. -/
def list (fs : Filesystem) (path : Path) : Except SystemError (List Name) :=
  match fs.metadata path with
  | .ok (.directory permissions names _ _) =>
    if permissions.read then .ok names else .error .permissionDenied
  | .ok _ => .error .notDirectory
  | .error cause => .error cause

end Filesystem

namespace Scan

/-- A directory that a walk from `base` is to enter: a real one, as no place
passes through a link, with no ignored name on the way or of its own. The
directory the walk starts from has the empty place, so its name is not asked
for. -/
structure Entered (fs : Filesystem) (config : Config) (base place : Location) : Prop where
  directory : ∃ node, fs.top.at? (base ++ place) = some node ∧ node.isDirectory = true
  unpruned : ∀ name ∈ place, name.text ∉ config.ignoredDirs

/-- Something below `base` that is listed like a file unless its name is
excluded: a regular file, or a link whose path leads to no directory, with no
ignored directory on the way. -/
structure Listable (fs : Filesystem) (config : Config) (origin : Path)
    (base place : Location) : Prop where
  below : place ≠ []
  kind : (∃ permissions content,
      fs.top.at? (base ++ place) = some (.file permissions content)) ∨
    ((∃ target, fs.top.at? (base ++ place) = some (.link target)) ∧
      fs.isDirectory (spelled origin place) = false)
  unpruned : ∀ name ∈ place.dropLast, name.text ∉ config.ignoredDirs

/-- A directory below `base` that a walk reaches and leaves out by its name. -/
structure CutOff (fs : Filesystem) (config : Config) (base place : Location) : Prop where
  directory : ∃ node, fs.top.at? (base ++ place) = some node ∧ node.isDirectory = true
  unpruned : ∀ name ∈ place.dropLast, name.text ∉ config.ignoredDirs
  ignored : ∃ name, place.getLast? = some name ∧ name.text ∈ config.ignoredDirs

/-- A place whose last name is that of an excluded file. -/
def Unwanted (config : Config) (place : Location) : Prop :=
  ∃ name, place.getLast? = some name ∧ config.excludes name.text = true

/-- Every directory above a place, down from `origin`, can be listed. -/
def Uncovered (fs : Filesystem) (origin : Path) (place : Location) : Prop :=
  ∀ above, above <+: place → above ≠ place → ∃ names, fs.list (spelled origin above) = .ok names

/-- What a visit says about its place. -/
def Visit.Holds (fs : Filesystem) (config : Config) (origin : Path) (base : Location) :
    Visit → Prop
  | .listed place => Listable fs config origin base place ∧ ¬ Unwanted config place
  | .excluded place => Listable fs config origin base place ∧ Unwanted config place
  | .ignored place => CutOff fs config base place
  | .unlistable place cause =>
    Entered fs config base place ∧ fs.list (spelled origin place) = .error cause

variable {fs : Filesystem} {config : Config} {origin : Path} {base : Location}

/-- The walk from a path in a file system. -/
abbrev walkFrom (fs : Filesystem) (config : Config) (origin : Path) : Walk :=
  ⟨origin, config, fs.isDirectory⟩

/-! ## Obstacles -/

/-- What keeps a walk from listing a directory is what the file system answers
when the directory is opened by its path. -/
theorem list_spelled (config : Config) {start : Node} {place : Location} {permissions : Permissions}
    {names : List Name} {distinct : names.Nodup} {child : Name → Node}
    (located : fs.locate origin = .ok base) (begins : fs.top.at? base = some start)
    (there : start.at? place = some (.directory permissions names distinct child)) :
    fs.list (spelled origin place) =
      match (walkFrom fs config origin).obstacle place (start.admits place) permissions with
      | some cause => .error cause
      | none => .ok names := by
  rw [Filesystem.list,
    Filesystem.metadata_spelled located begins there (fun target impossible => by cases impossible),
    Walk.obstacle]
  by_cases long : Filesystem.pathLimit ≤ (spelled origin place).bytes.length
  · simp only [if_pos long]
  · simp only [if_neg long]
    cases start.admits place <;> cases readable : permissions.read <;> simp [readable]

/-! ## Visits to what is not a directory -/

theorem Visit.Holds.exists_at {visit : Visit} (holds : visit.Holds fs config origin base) :
    ∃ found, fs.top.at? (base ++ visit.place) = some found := by
  cases visit with
  | listed place | excluded place =>
      obtain ⟨⟨-, kind, -⟩, -⟩ := holds
      rcases kind with ⟨permissions, content, there⟩ | ⟨⟨target, there⟩, -⟩
      · exact ⟨_, there⟩
      · exact ⟨_, there⟩
  | ignored place =>
      obtain ⟨⟨node, there, -⟩, -, -⟩ := holds
      exact ⟨node, there⟩
  | unlistable place cause =>
      obtain ⟨⟨⟨node, there, -⟩, -⟩, -⟩ := holds
      exact ⟨node, there⟩

/-- Where a directory stands, no visit speaks of a file or a link. -/
theorem Listable.not_isDirectory {place : Location} {node : Node}
    (listable : Listable fs config origin base place)
    (there : fs.top.at? (base ++ place) = some node) : node.isDirectory = false := by
  rcases listable.kind with ⟨permissions, content, found⟩ | ⟨⟨target, found⟩, -⟩
  · cases there.symm.trans found
    rfl
  · cases there.symm.trans found
    rfl

theorem eq_fileVisit_iff {walk : Walk} {place : Location} {name : Name}
    (last : place.getLast? = some name) {visit : Visit} :
    visit = walk.fileVisit place name ↔
      (visit = .listed place ∧ ¬ Unwanted walk.config place) ∨
        (visit = .excluded place ∧ Unwanted walk.config place) := by
  have unwanted : Unwanted walk.config place ↔ walk.config.excludes name.text = true := by
    simp [Unwanted, last]
  rw [unwanted, Walk.fileVisit]
  by_cases excluded : walk.config.excludes name.text = true <;> simp [excluded]

/-- Where no directory stands, the only true visit is the one a walk makes to a
file, and it is true exactly if there is something to list. -/
theorem holds_iff_of_not_isDirectory {place : Location} {name : Name} {node : Node}
    (there : fs.top.at? (base ++ place) = some node) (leaf : node.isDirectory = false)
    (last : place.getLast? = some name) {visit : Visit} :
    (place <+: visit.place ∧ visit.Holds fs config origin base) ↔
      Listable fs config origin base place ∧
        visit = (walkFrom fs config origin).fileVisit place name := by
  refine ⟨?_, ?_⟩
  · rintro ⟨⟨rest, same⟩, holds⟩
    have stays : rest = [] := by
      by_contra further
      obtain ⟨found, reached⟩ := holds.exists_at
      rw [← same, ← List.append_assoc] at reached
      obtain ⟨next, inside, directory⟩ := Node.isDirectory_of_at?_append further reached
      cases there.symm.trans inside
      simp [leaf] at directory
    rw [stays, List.append_nil] at same
    rw [eq_fileVisit_iff last]
    cases visit with
    | listed other =>
        obtain rfl : place = other := same
        exact ⟨holds.1, Or.inl ⟨rfl, holds.2⟩⟩
    | excluded other =>
        obtain rfl : place = other := same
        exact ⟨holds.1, Or.inr ⟨rfl, holds.2⟩⟩
    | ignored other =>
        obtain rfl : place = other := same
        obtain ⟨found, stands, directory⟩ := holds.directory
        cases there.symm.trans stands
        simp [leaf] at directory
    | unlistable other cause =>
        obtain rfl : place = other := same
        obtain ⟨found, stands, directory⟩ := holds.1.directory
        cases there.symm.trans stands
        simp [leaf] at directory
  · rintro ⟨listable, made⟩
    rcases (eq_fileVisit_iff last).mp made with ⟨rfl, wanted⟩ | ⟨rfl, unwanted⟩
    · exact ⟨List.prefix_rfl, listable, wanted⟩
    · exact ⟨List.prefix_rfl, listable, unwanted⟩

/-! ## Visits to directories -/

/-- Where a directory with an ignored name stands, the only true visit is the one
that says so: nothing below it is spoken of. -/
theorem holds_iff_of_ignored {place : Location} {name : Name} {node : Node}
    (there : fs.top.at? (base ++ (place ++ [name])) = some node)
    (directory : node.isDirectory = true)
    (unpruned : ∀ outer ∈ place, outer.text ∉ config.ignoredDirs)
    (ignored : name.text ∈ config.ignoredDirs) {visit : Visit} :
    (place ++ [name] <+: visit.place ∧ visit.Holds fs config origin base) ↔
      visit = .ignored (place ++ [name]) := by
  refine ⟨?_, ?_⟩
  · rintro ⟨⟨rest, same⟩, holds⟩
    have inside : rest ≠ [] → name ∈ visit.place.dropLast := by
      intro further
      rw [← same, List.dropLast_append_of_ne_nil further]
      simp
    have stays : visit.place.dropLast ⊆ visit.place := List.dropLast_subset _
    cases visit with
    | listed other | excluded other =>
        have top : rest = [] := by
          by_contra further
          exact holds.1.unpruned name (inside further) ignored
        obtain rfl : place ++ [name] = other := by simpa [top] using same
        simp [holds.1.not_isDirectory there] at directory
    | ignored other =>
        have top : rest = [] := by
          by_contra further
          exact holds.unpruned name (inside further) ignored
        obtain rfl : place ++ [name] = other := by simpa [top] using same
        rfl
    | unlistable other cause =>
        refine absurd ignored (holds.1.unpruned name ?_)
        obtain rfl : place ++ [name] ++ rest = other := same
        simp
  · rintro rfl
    exact ⟨List.prefix_rfl, ⟨node, there, directory⟩, by simpa using unpruned,
      name, by simp, ignored⟩

/-- Of a directory that is entered, the only true visit says that it cannot be
listed. -/
theorem Visit.Holds.exists_unlistable {visit : Visit} {node : Node}
    (holds : visit.Holds fs config origin base)
    (there : fs.top.at? (base ++ visit.place) = some node) (directory : node.isDirectory = true)
    (entered : Entered fs config base visit.place) :
    ∃ cause, visit = .unlistable visit.place cause ∧
      fs.list (spelled origin visit.place) = .error cause := by
  cases visit with
  | listed place | excluded place => simp [holds.1.not_isDirectory there] at directory
  | ignored place =>
      obtain ⟨last, final, ignored⟩ := holds.ignored
      exact absurd ignored (entered.unpruned last (List.mem_of_getLast? final))
  | unlistable place cause => exact ⟨cause, rfl, holds.2⟩

/-- Where an entered directory cannot be listed, the only true visit that nothing
hides is the one that says so. -/
theorem holds_iff_of_unlistable {place : Location} {node : Node} {cause : SystemError}
    (there : fs.top.at? (base ++ place) = some node) (directory : node.isDirectory = true)
    (entered : Entered fs config base place) (uncovered : Uncovered fs origin place)
    (refused : fs.list (spelled origin place) = .error cause) {visit : Visit} :
    (place <+: visit.place ∧ visit.Holds fs config origin base ∧
        Uncovered fs origin visit.place) ↔
      visit = .unlistable place cause := by
  refine ⟨?_, ?_⟩
  · rintro ⟨above, holds, open_above⟩
    have same : place = visit.place := by
      by_contra strictly
      obtain ⟨listed, found⟩ := open_above place above strictly
      cases refused.symm.trans found
    rw [same] at there entered refused
    obtain ⟨reason, shape, again⟩ := holds.exists_unlistable there directory entered
    cases refused.symm.trans again
    rw [shape, same]
  · rintro rfl
    exact ⟨List.prefix_rfl, ⟨entered, refused⟩, uncovered⟩

/-- Of an entered directory that can be listed, every true visit is at or below one
of its entries. -/
theorem exists_entry_of_holds {place : Location} {permissions : Permissions} {names : List Name}
    {distinct : names.Nodup} {child : Name → Node}
    (there : fs.top.at? (base ++ place) = some (.directory permissions names distinct child))
    (entered : Entered fs config base place)
    (listing : fs.list (spelled origin place) = .ok names) {visit : Visit}
    (below : place <+: visit.place) (holds : visit.Holds fs config origin base) :
    ∃ name ∈ names, place ++ [name] <+: visit.place := by
  obtain ⟨rest, same⟩ := below
  cases rest with
  | nil =>
      rw [List.append_nil] at same
      rw [same] at there entered listing
      obtain ⟨reason, -, refused⟩ := holds.exists_unlistable there rfl entered
      cases listing.symm.trans refused
  | cons name others =>
      refine ⟨name, ?_, others, by rw [← same, List.append_assoc, List.singleton_append]⟩
      obtain ⟨found, exists_there⟩ := holds.exists_at
      rw [← same, ← List.append_assoc, Node.at?_append, there, Option.bind_some, Node.at?_cons,
        Node.child?_directory] at exists_there
      by_contra absent
      simp [absent] at exists_there

theorem Uncovered.concat {place : Location} {names : List Name}
    (uncovered : Uncovered fs origin place)
    (listing : fs.list (spelled origin place) = .ok names) (name : Name) :
    Uncovered fs origin (place ++ [name]) := by
  intro above prior strictly
  by_cases here : above = place
  · exact ⟨names, here ▸ listing⟩
  · exact uncovered above ((List.prefix_concat_iff.mp prior).resolve_left strictly) here

/-- Only what is reached can be listed. -/
theorem reached_of_obstacle_eq_none {walk : Walk} {place : Location} {reachable : Bool}
    {permissions : Permissions} (free : walk.obstacle place reachable permissions = none) :
    reachable = true := by
  cases reachable with
  | true => rfl
  | false =>
      simp only [Walk.obstacle, Bool.false_and, Bool.false_eq_true, if_false] at free
      split at free <;> cases free

/-- What an entry of a directory contributes to a trace are the true visits at or
below it, provided this is so of an entry that is walked into. -/
theorem mem_entryVisits_iff {place : Location} {name : Name} {node : Node} {reachable : Bool}
    {visit : Visit} (there : fs.top.at? (base ++ (place ++ [name])) = some node)
    (unpruned : ∀ outer ∈ place, outer.text ∉ config.ignoredDirs)
    (uncovered : Uncovered fs origin (place ++ [name]))
    (onward : Entered fs config base (place ++ [name]) →
      (visit ∈ (walkFrom fs config origin).visits node (place ++ [name]) reachable ↔
        place ++ [name] <+: visit.place ∧ visit.Holds fs config origin base ∧
          Uncovered fs origin visit.place)) :
    visit ∈ (walkFrom fs config origin).entryVisits node (place ++ [name]) name reachable ↔
      place ++ [name] <+: visit.place ∧ visit.Holds fs config origin base ∧
        Uncovered fs origin visit.place := by
  have at_leaf (leaf : node.isDirectory = false) :
      (place ++ [name] <+: visit.place ∧ visit.Holds fs config origin base ∧
          Uncovered fs origin visit.place) ↔
        Listable fs config origin base (place ++ [name]) ∧
          visit = (walkFrom fs config origin).fileVisit (place ++ [name]) name := by
    rw [← and_assoc, holds_iff_of_not_isDirectory there leaf
      (show (place ++ [name]).getLast? = some name by simp),
      and_iff_left_iff_imp]
    rintro ⟨-, rfl⟩
    rw [place_fileVisit]
    exact uncovered
  have outer_unpruned : ∀ outer ∈ (place ++ [name]).dropLast,
      outer.text ∉ config.ignoredDirs := by simpa using unpruned
  cases node with
  | file permissions content =>
      have listable : Listable fs config origin base (place ++ [name]) :=
        ⟨by simp, Or.inl ⟨permissions, content, there⟩, outer_unpruned⟩
      rw [at_leaf rfl, and_iff_right listable]
      exact List.mem_singleton
  | link target =>
      rw [at_leaf rfl, Walk.entryVisits.eq_def]
      dsimp only
      by_cases leads : fs.isDirectory (spelled origin (place ++ [name])) = true
      · have not_listable : ¬ Listable fs config origin base (place ++ [name]) := by
          rintro ⟨-, ⟨permissions, content, found⟩ | ⟨-, nowhere⟩, -⟩
          · cases there.symm.trans found
          · simp [leads] at nowhere
        simp [leads, not_listable]
      · have listable : Listable fs config origin base (place ++ [name]) :=
          ⟨by simp, Or.inr ⟨⟨target, there⟩, by simpa using leads⟩, outer_unpruned⟩
        simp [leads, listable]
  | pipe =>
      have not_listable : ¬ Listable fs config origin base (place ++ [name]) := by
        rintro ⟨-, ⟨permissions, content, found⟩ | ⟨⟨target, found⟩, -⟩, -⟩
        · cases there.symm.trans found
        · cases there.symm.trans found
      rw [at_leaf rfl, iff_false_right fun holds => not_listable holds.1]
      exact List.not_mem_nil
  | directory permissions names distinct child =>
      rw [Walk.entryVisits.eq_def]
      dsimp only
      by_cases ignored : name.text ∈ config.ignoredDirs
      · rw [if_pos (by simpa [Config.ignores] using ignored), List.mem_singleton, ← and_assoc,
          holds_iff_of_ignored there rfl unpruned ignored, iff_self_and]
        rintro rfl
        exact uncovered
      · rw [if_neg (by simpa [Config.ignores] using ignored)]
        refine onward ⟨⟨_, there, rfl⟩, fun outer inside => ?_⟩
        rcases List.mem_append.mp inside with inside | final
        · exact unpruned outer inside
        · exact List.mem_singleton.mp final ▸ ignored

/-- A trace below a directory holds the true visits below it, as long as the
directories above them can be listed. The induction is on the tree; it carries
that the directory has been entered and that all above it could be listed. -/
theorem mem_visits_iff {start node : Node} {place : Location}
    (located : fs.locate origin = .ok base) (begins : fs.top.at? base = some start)
    (there : start.at? place = some node) (entered : Entered fs config base place)
    (uncovered : Uncovered fs origin place) (visit : Visit) :
    visit ∈ (walkFrom fs config origin).visits node place (start.admits place) ↔
      place <+: visit.place ∧ visit.Holds fs config origin base ∧
        Uncovered fs origin visit.place := by
  have stands (other : Location) : fs.top.at? (base ++ other) = start.at? other := by
    rw [Node.at?_append, begins, Option.bind_some]
  have inside : node.isDirectory = true := by
    obtain ⟨found, reached, inside⟩ := entered.directory
    rw [stands, there] at reached
    cases reached
    exact inside
  induction node generalizing place with
  | file permissions content => cases inside
  | link target => cases inside
  | pipe => cases inside
  | directory permissions names distinct child ih =>
      have listing := list_spelled config located begins there
      have seen : fs.top.at? (base ++ place) =
          some (.directory permissions names distinct child) := by rw [stands, there]
      rw [visits_directory]
      cases blocked : (walkFrom fs config origin).obstacle place (start.admits place)
          permissions with
      | some cause =>
          rw [blocked] at listing
          rw [holds_iff_of_unlistable seen rfl entered uncovered listing]
          exact List.mem_singleton
      | none =>
          rw [blocked] at listing
          have reached := reached_of_obstacle_eq_none blocked
          have entry_visits (name : Name) (listed : name ∈ names) :
              visit ∈ (walkFrom fs config origin).entryVisits (child name) (place ++ [name]) name
                  permissions.enter ↔
                place ++ [name] <+: visit.place ∧ visit.Holds fs config origin base ∧
                  Uncovered fs origin visit.place := by
            have child_at : start.at? (place ++ [name]) = some (child name) := by
              rw [Node.at?_concat, there, Option.bind_some, Node.child?_directory, if_pos listed]
            refine mem_entryVisits_iff (by rw [stands, child_at]) entered.unpruned
              (uncovered.concat listing name) fun entered_below => ?_
            obtain ⟨found, reached_below, inside_below⟩ := entered_below.directory
            rw [stands, child_at] at reached_below
            cases reached_below
            have onward :=
              ih name child_at entered_below (uncovered.concat listing name) inside_below
            rwa [Node.admits_concat there, reached, Bool.true_and] at onward
          simp only [List.mem_flatMap, Name.mem_sorted]
          refine ⟨?_, ?_⟩
          · rintro ⟨name, listed, met⟩
            obtain ⟨below, holds, open_above⟩ := (entry_visits name listed).mp met
            exact ⟨(List.prefix_append _ _).trans below, holds, open_above⟩
          · rintro ⟨below, holds, open_above⟩
            obtain ⟨name, listed, further⟩ :=
              exists_entry_of_holds seen entered listing below holds
            exact ⟨name, listed, (entry_visits name listed).mpr ⟨further, holds, open_above⟩⟩

end Scan

end CacheManifest
