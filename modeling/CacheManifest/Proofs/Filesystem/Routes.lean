/-
# Where a longer path leads

If a path leads to a directory, a longer path leads to wherever the rest of it
leads from there. Some of the links that may be followed have been used up by
then, which is why the number that is left stays open. Below the directory, names
are taken without following links, so the places of a walk are found however many
are left: they can be looked up exactly if every directory on the way may be
entered and the path is not too long.
-/

import CacheManifest.Proofs.Filesystem.Steps

namespace CacheManifest

open Scan (spelled)

namespace Filesystem

variable {top : Node}

/-- A continuation that leads on from the directories it reaches. -/
def LeadsOn (top : Node) (follow : Continuation) : Prop :=
  ∀ place steps directory location node,
    follow place steps directory = .ok (.present location) →
    top.at? location = some node → node.isDirectory = true →
    ∀ more demand, more ≠ [] →
      ∃ budget, follow place (steps ++ more) demand =
        walk top .lookup budget location more demand

/-- Steps that reach a directory may be followed by others, which are then taken
from there. -/
theorem advance_append {follow : Continuation} (follows : LeadsOn top follow)
    {steps : List Step} {place : Location} {directory : Bool} {location : Location} {node : Node}
    (reached : advance top .lookup follow place steps directory = .ok (.present location))
    (there : top.at? location = some node) (inside : node.isDirectory = true)
    {more : List Step} (further : more ≠ []) (demand : Bool) :
    advance top .lookup follow place (steps ++ more) demand =
        advance top .lookup follow location more demand ∨
      ∃ budget, advance top .lookup follow place (steps ++ more) demand =
        walk top .lookup budget location more demand := by
  induction steps generalizing place directory with
  | nil =>
      left
      obtain ⟨same, -⟩ := advance_nil_eq_ok_iff.mp reached
      cases same
      rfl
  | cons step rest ih =>
      obtain ⟨enterable, onward⟩ := onward_of_advance reached
      rw [List.cons_append]
      cases onward with
      | stay taken =>
          rw [advance_stay enterable]
          exact ih taken
      | up taken =>
          rw [advance_up enterable]
          exact ih taken
      | vacant name permitted absent last ends => cases ends
      | link name target permitted found followed =>
          right
          have open_end : (rest ++ more).isEmpty = false := by simp [further]
          rw [advance_link enterable (not_refused_lookup _ _) found, ← List.append_assoc, open_end,
            Bool.false_and, Bool.or_false]
          exact follows _ _ _ _ _ followed there inside _ _ further
      | node name next permitted found unlinked taken =>
          rw [advance_node enterable (not_refused_lookup _ _) found unlinked]
          exact ih taken

theorem leadsOn_walk (budget : Nat) : LeadsOn top (walk top .lookup budget) := by
  induction budget with
  | zero =>
      intro place steps directory location node reached there inside more demand further
      have stuck : LeadsOn top fun _ _ _ => .error .tooManyLinks := by
        intro _ _ _ _ _ impossible
        cases impossible
      rcases advance_append stuck reached there inside further demand with same | found
      · exact ⟨0, same⟩
      · exact found
  | succ budget ih =>
      intro place steps directory location node reached there inside more demand further
      rcases advance_append ih reached there inside further demand with same | found
      · exact ⟨budget + 1, same⟩
      · exact found

/-- Below a directory that has been reached, a path leads on from there. -/
theorem walk_append {budget : Nat} {steps : List Step} {place : Location} {directory : Bool}
    {location : Location} {node : Node}
    (reached : walk top .lookup budget place steps directory = .ok (.present location))
    (there : top.at? location = some node) (inside : node.isDirectory = true)
    {more : List Step} (further : more ≠ []) (demand : Bool) :
    ∃ left, walk top .lookup budget place (steps ++ more) demand =
      walk top .lookup left location more demand :=
  leadsOn_walk budget _ _ _ _ _ reached there inside _ _ further

/-- Names lead to their place without a link being followed, whatever is done at
links, if the directories on the way may be entered. -/
theorem advance_names {purpose : Purpose} {follow : Continuation} {base : Node}
    {location : Location} {place : Location} {found : Node}
    (start : top.at? location = some base) (there : base.at? place = some found)
    (unlinked : ∀ target, found ≠ .link target) :
    advance top purpose follow location (place.map Step.enter) false =
      if base.admits place then .ok (.present (location ++ place))
      else .error .permissionDenied := by
  induction place generalizing location base with
  | nil => simp [advance, start]
  | cons name rest ih =>
      obtain ⟨next, entry, below⟩ := Option.bind_eq_some_iff.mp there
      obtain ⟨permissions, names, distinct, child, rfl⟩ :=
        Node.exists_of_isDirectory (Node.isDirectory_of_child? entry)
      have stands : top.at? (location ++ [name]) = some next := by
        rw [Node.at?_concat, start, Option.bind_some, entry]
      have same : child name = next := by
        rw [Node.child?_directory] at entry
        split at entry
        · exact Option.some.inj entry
        · cases entry
      cases enter : permissions.enter with
      | false => simp [advance, start, enter, Node.admits]
      | true =>
          have onward := ih stands below
          rw [List.append_assoc, List.singleton_append] at onward
          have no_link : ∀ target, next ≠ .link target := by
            intro target linked
            subst linked
            cases rest with
            | nil => exact unlinked target (by simpa using below.symm)
            | cons => cases below
          have enterable : Enterable top location :=
            ⟨permissions, names, distinct, child, start, enter⟩
          have permitted : ¬ Refused purpose (rest.map Step.enter) false := by simp [Refused]
          rw [List.map_cons, advance_node enterable permitted stands no_link, Node.admits, enter,
            Bool.true_and, same]
          exact onward

/-! ## Paths of places below a directory -/

variable {fs : Filesystem} {origin : Path} {location : Location}

/-- A path that is resolved was written without fault, and is walked. -/
theorem walk_of_resolve {purpose : Purpose} {destination : Destination}
    (resolved : fs.resolve purpose origin = .ok destination) :
    spellingError origin = none ∧
      walk fs.top purpose linkLimit (if origin.isAbsolute then [] else fs.workingDirectory)
        (steps origin) (demandsDirectory origin) = .ok destination := by
  rw [resolve] at resolved
  cases fault : spellingError origin with
  | some cause => simp [fault] at resolved
  | none =>
      rw [fault] at resolved
      exact ⟨rfl, resolved⟩

theorem resolve_of_locate (located : fs.locate origin = .ok location) :
    fs.resolve .lookup origin = .ok (.present location) := by
  rw [locate] at located
  cases resolved : fs.resolve .lookup origin with
  | error cause => simp [resolved] at located
  | ok destination =>
      cases destination with
      | vacant directory name => simp [resolved] at located
      | present reached =>
          simp only [resolved] at located
          cases located
          rfl

/-- A path that leads somewhere was written without fault. -/
theorem written_of_locate (located : fs.locate origin = .ok location) :
    origin.bytes ≠ [] ∧ origin.bytes.length < pathLimit ∧ (0 : UInt8) ∉ origin.bytes := by
  obtain ⟨sound, -⟩ := walk_of_resolve (resolve_of_locate located)
  rw [spellingError] at sound
  split at sound
  · cases sound
  · next clean =>
      split at sound
      · cases sound
      · next short =>
          split at sound
          · cases sound
          · next written => exact ⟨written, Nat.lt_of_not_le short, clean⟩

/-- What a path names stands at the place it leads to. -/
theorem exists_of_metadata {start : Node} (found : fs.metadata origin = .ok start) :
    ∃ base, fs.locate origin = .ok base ∧ fs.top.at? base = some start := by
  rw [Filesystem.metadata] at found
  cases located : fs.locate origin with
  | error cause => simp [located] at found
  | ok base =>
      cases there : fs.top.at? base with
      | none => simp [located, there] at found
      | some node =>
          simp only [located, there] at found
          cases found
          exact ⟨base, rfl, there⟩

theorem metadata_of_locate {start : Node} (located : fs.locate origin = .ok location)
    (begins : fs.top.at? location = some start) :
    fs.metadata origin = .ok start := by
  simp only [Filesystem.metadata, located, begins]

theorem exists_walk_eq_advance (top : Node) (purpose : Purpose) (budget : Nat) :
    ∃ follow, walk top purpose budget = advance top purpose follow := by
  cases budget with
  | zero => exact ⟨_, rfl⟩
  | succ budget => exact ⟨_, rfl⟩

theorem spellingError_spelled (located : fs.locate origin = .ok location) (place : Location) :
    spellingError (spelled origin place) =
      if pathLimit ≤ (spelled origin place).bytes.length then some .nameTooLong else none := by
  obtain ⟨written, -, clean⟩ := written_of_locate located
  simp [spellingError, Scan.zero_not_mem_spelled clean written,
    Scan.bytes_spelled_ne_nil written]

/-- A path of a place below a directory leads to that place, unless it is too long
or a directory on the way is closed. -/
theorem locate_spelled {base found : Node} {place : Location}
    (located : fs.locate origin = .ok location) (start : fs.top.at? location = some base)
    (there : base.at? place = some found) (unlinked : ∀ target, found ≠ .link target) :
    fs.locate (spelled origin place) =
      if pathLimit ≤ (spelled origin place).bytes.length then .error .nameTooLong
      else if base.admits place then .ok (location ++ place) else .error .permissionDenied := by
  obtain ⟨written, short, -⟩ := written_of_locate located
  by_cases below : place = []
  · subst below
    simp [located, Nat.not_le.mpr short]
  have inside : base.isDirectory = true := by
    obtain ⟨next, same, inside⟩ := Node.isDirectory_of_at?_append below
      (show base.at? ([] ++ place) = some found from there)
    obtain rfl : base = next := by simpa using same
    exact inside
  obtain ⟨left, onward⟩ := walk_append
    (walk_of_resolve (resolve_of_locate located)).2 start inside
    (show place.map Step.enter ≠ [] by simpa using below) false
  obtain ⟨follow, advances⟩ := exists_walk_eq_advance fs.top .lookup left
  rw [advances, advance_names start there unlinked] at onward
  by_cases long : pathLimit ≤ (spelled origin place).bytes.length
  · simp only [locate, resolve, spellingError_spelled located, if_pos long]
  · simp only [locate, resolve, spellingError_spelled located, if_neg long,
      Scan.isAbsolute_spelled written, Scan.steps_spelled written,
      Scan.not_demandsDirectory_spelled written below, onward]
    cases base.admits place <;> rfl

/-- A path of a place below a directory names what stands there, with the same
exceptions. -/
theorem metadata_spelled {base found : Node} {place : Location}
    (located : fs.locate origin = .ok location) (start : fs.top.at? location = some base)
    (there : base.at? place = some found) (unlinked : ∀ target, found ≠ .link target) :
    fs.metadata (spelled origin place) =
      if pathLimit ≤ (spelled origin place).bytes.length then .error .nameTooLong
      else if base.admits place then .ok found else .error .permissionDenied := by
  have stands : fs.top.at? (location ++ place) = some found := by
    rw [Node.at?_append, start, Option.bind_some, there]
  rw [metadata, locate_spelled located start there unlinked]
  split_ifs
  · rfl
  · simp [stands]
  · rfl

end Filesystem

end CacheManifest
