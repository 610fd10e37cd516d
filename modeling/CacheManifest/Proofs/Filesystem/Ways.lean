/-
# Trees with the same ways

A path passes through directories and links. Two trees that have these in common, with
the same permissions, are walked alike: whatever leads to a directory in one of them
leads to it in the other. Files and pipes may differ, as every way ends there.

So writing a file changes nothing about what leads to a directory. And the file itself
is then opened where it was created, because a path that can be opened for writing
leads to the same place when it is looked up.
-/

import CacheManifest.Proofs.Filesystem.Writing

namespace CacheManifest

namespace Node

/-- Two trees have their directories, with what their owner may do, and their links
in the same places. -/
structure SameWays (first second : Node) : Prop where
  directory : ∀ place permissions, first.faceAt place = some (.directory permissions) ↔
    second.faceAt place = some (.directory permissions)
  link : ∀ place target, first.faceAt place = some (.link target) ↔
    second.faceAt place = some (.link target)

theorem SameWays.symm {first second : Node} (ways : SameWays first second) :
    SameWays second first where
  directory place permissions := (ways.directory place permissions).symm
  link place target := (ways.link place target).symm

theorem faceAt_eq_directory_iff {node : Node} {place : Location} {permissions : Permissions} :
    node.faceAt place = some (.directory permissions) ↔
      ∃ names distinct child,
        node.at? place = some (.directory permissions names distinct child) := by
  rw [faceAt, Option.map_eq_some_iff]
  constructor
  · rintro ⟨found, there, same⟩
    cases found with
    | directory own names distinct child =>
        cases same
        exact ⟨names, distinct, child, there⟩
    | file | link | pipe => cases same
  · rintro ⟨names, distinct, child, there⟩
    exact ⟨_, there, rfl⟩

theorem SameWays.exists_directory {first second node : Node} {place : Location}
    (ways : SameWays first second) (there : first.at? place = some node)
    (inside : node.isDirectory = true) :
    ∃ other, second.at? place = some other ∧ other.isDirectory = true := by
  obtain ⟨permissions, names, distinct, child, rfl⟩ := exists_of_isDirectory inside
  obtain ⟨names, distinct, child, still⟩ := faceAt_eq_directory_iff.mp
    ((ways.directory place permissions).mp (faceAt_eq_directory_iff.mpr ⟨_, _, _, there⟩))
  exact ⟨_, still, rfl⟩

theorem SameWays.link_at {first second : Node} {place : Location} {target : Path}
    (ways : SameWays first second) (there : first.at? place = some (.link target)) :
    second.at? place = some (.link target) := by
  rw [← faceAt_eq_face_iff rfl] at there ⊢
  exact (ways.link place target).mp there

end Node

namespace Filesystem

open Node (SameWays)

variable {first second : Node}

theorem Enterable.of_sameWays {place : Location} (enterable : Enterable first place)
    (ways : SameWays first second) : Enterable second place := by
  obtain ⟨permissions, names, distinct, child, here, enter⟩ := enterable
  obtain ⟨names, distinct, child, still⟩ := Node.faceAt_eq_directory_iff.mp
    ((ways.directory place permissions).mp (Node.faceAt_eq_directory_iff.mpr ⟨_, _, _, here⟩))
  exact ⟨permissions, names, distinct, child, still, enter⟩

/-- What is on the way to a directory is a directory. -/
theorem isDirectory_of_advance {top node found : Node} {purpose : Purpose} {follow : Continuation}
    {place location : Location} {steps : List Step} {demand : Bool}
    (reached : advance top purpose follow place steps demand = .ok (.present location))
    (there : top.at? location = some node) (inside : node.isDirectory = true)
    (starts : top.at? place = some found) : found.isDirectory = true := by
  cases steps with
  | nil =>
      obtain ⟨same, -⟩ := advance_nil_eq_ok_iff.mp reached
      cases same
      cases starts.symm.trans there
      exact inside
  | cons step rest =>
      obtain ⟨permissions, names, distinct, child, here, -⟩ := enterable_of_advance reached
      cases starts.symm.trans here
      rfl

/-- A continuation that finds the directories which another one finds. -/
def FindsDirectories (top : Node) (follow carry : Continuation) : Prop :=
  ∀ place steps demand location node, follow place steps demand = .ok (.present location) →
    top.at? location = some node → node.isDirectory = true →
      carry place steps demand = .ok (.present location)

theorem advance_of_sameWays (ways : SameWays first second) {follow carry : Continuation}
    (finds : FindsDirectories first follow carry) :
    FindsDirectories first (advance first .lookup follow) (advance second .lookup carry) := by
  intro place steps demand location node reached there inside
  induction steps generalizing place with
  | nil =>
      obtain ⟨same, -⟩ := advance_nil_eq_ok_iff.mp reached
      cases same
      obtain ⟨other, still, directory⟩ := ways.exists_directory there inside
      exact advance_nil_eq_ok_iff.mpr ⟨rfl, other, still, fun _ => directory⟩
  | cons step rest ih =>
      obtain ⟨enterable, onward⟩ := onward_of_advance reached
      have enterable_still := enterable.of_sameWays ways
      cases onward with
      | stay taken =>
          rw [advance_stay enterable_still]
          exact ih _ taken
      | up taken =>
          rw [advance_up enterable_still]
          exact ih _ taken
      | vacant name permitted absent last ends => cases ends
      | link name target permitted linked followed =>
          rw [advance_link enterable_still (not_refused_lookup _ _) (ways.link_at linked)]
          exact finds _ _ _ _ _ followed there inside
      | node name found permitted stands unlinked taken =>
          obtain ⟨other, still, directory⟩ := ways.exists_directory stands
            (isDirectory_of_advance taken there inside stands)
          have unlinked_still : ∀ target, other ≠ .link target := by
            rintro target rfl
            cases directory
          rw [advance_node enterable_still (not_refused_lookup _ _) still unlinked_still]
          exact ih _ taken

theorem walk_of_sameWays (ways : SameWays first second) (budget : Nat) :
    FindsDirectories first (walk first .lookup budget) (walk second .lookup budget) := by
  induction budget with
  | zero =>
      apply advance_of_sameWays ways
      intro _ _ _ _ _ impossible
      cases impossible
  | succ budget ih => exact advance_of_sameWays ways ih

/-! ## File systems -/

/-- Two file systems with the same ways, seen from the same directory. -/
structure SameWays (fs other : Filesystem) : Prop where
  top : fs.top.SameWays other.top
  workingDirectory : other.workingDirectory = fs.workingDirectory

variable {fs other : Filesystem} {path : Path}

theorem SameWays.symm (ways : fs.SameWays other) : other.SameWays fs where
  top := ways.top.symm
  workingDirectory := ways.workingDirectory.symm

/-- A path that leads to a directory leads to it in both. -/
theorem SameWays.locate (ways : fs.SameWays other) {location : Location} {node : Node}
    (located : fs.locate path = .ok location) (there : fs.top.at? location = some node)
    (inside : node.isDirectory = true) : other.locate path = .ok location := by
  obtain ⟨sound, walked⟩ := walk_of_resolve (resolve_of_locate located)
  have found := walk_of_sameWays ways.top linkLimit _ _ _ _ _ walked there inside
  rw [Filesystem.locate, resolve, sound]
  dsimp only
  rw [ways.workingDirectory, found]

theorem isDirectory_iff : fs.isDirectory path = true ↔
    ∃ location node, fs.locate path = .ok location ∧ fs.top.at? location = some node ∧
      node.isDirectory = true := by
  rw [Filesystem.isDirectory]
  constructor
  · intro inside
    cases found : fs.metadata path with
    | error cause => simp [found] at inside
    | ok node =>
        obtain ⟨location, located, there⟩ := exists_of_metadata found
        rw [found] at inside
        exact ⟨location, node, located, there, inside⟩
  · rintro ⟨location, node, located, there, inside⟩
    rw [metadata_of_locate located there]
    exact inside

theorem SameWays.isDirectory_eq (ways : fs.SameWays other) (path : Path) :
    other.isDirectory path = fs.isDirectory path := by
  have onward {one two : Filesystem} (ways : one.SameWays two)
      (inside : one.isDirectory path = true) : two.isDirectory path = true := by
    obtain ⟨location, node, located, there, inside⟩ := isDirectory_iff.mp inside
    obtain ⟨same, still, directory⟩ := ways.top.exists_directory there inside
    exact isDirectory_iff.mpr ⟨location, same, ways.locate located there inside, still, directory⟩
  exact Bool.eq_iff_iff.mpr ⟨onward ways.symm, onward ways⟩

/-- Writing a file leaves the ways as they are. -/
theorem Written.sameWays {place : Location} {content : Bytes}
    (written : Written fs path place content other) : fs.SameWays other := by
  obtain ⟨permissions, stands, before⟩ := written.stands
  -- At the place of the file neither tree shows anything but a file.
  have same (elsewhere : Location) (face : Node.Face)
      (unlike : ∀ permissions content, face ≠ .file permissions content) :
      fs.top.faceAt elsewhere = some face ↔ other.top.faceAt elsewhere = some face := by
    by_cases here : elsewhere = place
    · subst here
      constructor
      · intro shown
        rcases before with absent | ⟨old, file⟩
        · simp [Node.faceAt, absent] at shown
        · simp only [Node.faceAt, file, Option.map_some, Option.some.injEq] at shown
          exact absurd shown.symm (unlike _ _)
      · intro shown
        simp only [Node.faceAt, stands, Option.map_some, Option.some.injEq] at shown
        exact absurd shown.symm (unlike _ _)
    · rw [written.elsewhere elsewhere here]
  refine ⟨⟨?_, ?_⟩, written.workingDirectory⟩
  · intro elsewhere leave
    exact same elsewhere _ (by simp)
  · intro elsewhere target
    exact same elsewhere _ (by simp)

/-! ## Opening and looking up -/

/-- Steps that open a file lead to the same place when it is looked up. -/
theorem advance_lookup_of_creation {top : Node} {follow carry : Continuation}
    (follows : ∀ place steps demand destination,
      follow place steps demand = .ok destination → carry place steps demand = .ok destination)
    {steps : List Step} {place : Location} {demand : Bool} {destination : Destination}
    (reached : advance top .creation follow place steps demand = .ok destination) :
    advance top .lookup carry place steps demand = .ok destination := by
  induction steps generalizing place with
  | nil => exact advance_nil_eq_ok_iff.mpr (advance_nil_eq_ok_iff.mp reached)
  | cons step rest ih =>
      obtain ⟨enterable, onward⟩ := onward_of_advance reached
      cases onward with
      | stay taken =>
          rw [advance_stay enterable]
          exact ih taken
      | up taken =>
          rw [advance_up enterable]
          exact ih taken
      | vacant name permitted absent last ends =>
          subst last ends
          simp [advance_enter enterable, absent]
      | link name target permitted linked followed =>
          rw [advance_link enterable (not_refused_lookup _ _) linked]
          exact follows _ _ _ _ followed
      | node name found permitted stands unlinked taken =>
          rw [advance_node enterable (not_refused_lookup _ _) stands unlinked]
          exact ih taken

theorem walk_lookup_of_creation {top : Node} {budget : Nat} {steps : List Step}
    {place : Location} {demand : Bool} {destination : Destination}
    (reached : walk top .creation budget place steps demand = .ok destination) :
    walk top .lookup budget place steps demand = .ok destination := by
  induction budget generalizing place steps demand destination with
  | zero =>
      refine advance_lookup_of_creation ?_ reached
      intro _ _ _ _ impossible
      cases impossible
  | succ budget ih =>
      refine advance_lookup_of_creation ?_ reached
      intro _ _ _ _ carried
      exact ih carried

/-- What a path names is what it opens. -/
theorem place_of_openEmpty {opened : Filesystem} {place location : Location}
    (succeeded : fs.openEmpty path = .ok (opened, place))
    (located : fs.locate path = .ok location) : place = location := by
  obtain ⟨-, -, ⟨destination, resolved, ends⟩, -⟩ := exists_of_openEmpty succeeded
  have walked := walk_lookup_of_creation (walk_of_resolve resolved).2
  cases walked.symm.trans (walk_of_resolve (resolve_of_locate located)).2
  exact ends.symm

end Filesystem

end CacheManifest
