/-
# What a path passes through

A path that leads somewhere takes each of its steps, be it before or after a link
has been followed. So every name in it is that of an entry, and the steps that
stay where they are can be left out: a directory is then found in the same place,
with the same links followed on the way.
-/

import CacheManifest.Proofs.Filesystem.Routes
import CacheManifest.Proofs.Path.Components

namespace CacheManifest

namespace Filesystem

variable {top : Node}

/-! ## Names that exist -/

/-- A step that can be taken in a tree: if it is one by name, something there is
called by the name. -/
def Step.Known (top : Node) : Step → Prop
  | .stay => True
  | .up => True
  | .enter name => ∃ front found, top.at? (front ++ [name]) = some found
  | .unnameable => False

theorem known_of_advance {purpose : Purpose} {follow : Continuation}
    (follows : ∀ place steps demand location,
      follow place steps demand = .ok (.present location) → ∀ step ∈ steps, step.Known top)
    {steps : List Step} {place location : Location} {demand : Bool}
    (reached : advance top purpose follow place steps demand = .ok (.present location)) :
    ∀ step ∈ steps, step.Known top := by
  induction steps generalizing place with
  | nil => simp
  | cons step rest ih =>
      obtain ⟨-, onward⟩ := onward_of_advance reached
      rw [List.forall_mem_cons]
      cases onward with
      | stay taken => exact ⟨trivial, ih taken⟩
      | up taken => exact ⟨trivial, ih taken⟩
      | vacant name permitted absent last ends => cases ends
      | link name target permitted there followed =>
          have all := follows _ _ _ _ followed
          exact ⟨⟨place, _, there⟩, fun later inside => all later (List.mem_append_right _ inside)⟩
      | node name found permitted there unlinked taken => exact ⟨⟨place, _, there⟩, ih taken⟩

/-- Every step of a path that leads to something is known. -/
theorem known_of_walk {purpose : Purpose} {budget : Nat} {steps : List Step}
    {place location : Location} {demand : Bool}
    (reached : walk top purpose budget place steps demand = .ok (.present location)) :
    ∀ step ∈ steps, step.Known top := by
  induction budget generalizing place location steps demand with
  | zero =>
      refine known_of_advance ?_ reached
      intro _ _ _ _ impossible
      cases impossible
  | succ budget ih =>
      refine known_of_advance ?_ reached
      intro _ _ _ _ carried
      exact ih carried

theorem steps_append_slash (front rest : Bytes) :
    steps ⟨front ++ Path.slash :: rest⟩ = steps ⟨front⟩ ++ steps ⟨rest⟩ := by
  simp only [steps, Path.segments_append_slash, List.filter_append, List.map_append]

/-- The slash at the end of a path makes no step. -/
theorem steps_stem (path : Path) : steps ⟨path.stem⟩ = steps path := by
  rcases path.bytes_eq_stem_or with whole | closed
  · rw [steps, steps, ← whole]
  · rw [steps.eq_def path, closed, Path.segments_append_slash, List.filter_append]
    simp [steps]

theorem steps_join {base rest : Path} (written : base.bytes ≠ [])
    (relative : rest.isAbsolute = false) : steps (base.join rest) = steps base ++ steps rest := by
  rw [steps.eq_def (base.join rest), Path.bytes_join written relative, ← steps_stem base]
  exact steps_append_slash base.stem rest.bytes

/-- The steps of a path that is joined to another are among those of the result. -/
theorem mem_steps_join (base : Path) {rest : Path} {step : Step} (inside : step ∈ steps rest) :
    step ∈ steps (base.join rest) := by
  cases absolute : rest.isAbsolute with
  | true => rwa [Path.join, if_pos absolute]
  | false =>
      by_cases written : base.bytes = []
      · rw [Path.join, absolute, if_neg Bool.false_ne_true, if_pos (Or.inl written), written]
        exact inside
      · rw [steps_join written absolute]
        exact List.mem_append_right _ inside

/-- The names of a source directory that is found are names in the tree. -/
theorem exists_name_of_mem_names {fs : Filesystem} {root directory : Path} {base : Location}
    (located : fs.locate (root.join directory) = .ok base) {bytes : Bytes}
    (inside : bytes ∈ directory.names) :
    ∃ name front found, name.bytes = bytes ∧ fs.top.at? (front ++ [name]) = some found := by
  obtain ⟨cut, nonempty, not_dot, not_dotDot⟩ := Path.mem_names.mp inside
  have taken : Step.ofSegment bytes ∈ steps directory :=
    List.mem_map_of_mem (List.mem_filter.mpr ⟨cut, by simpa using nonempty⟩)
  have known := known_of_walk (walk_of_resolve (resolve_of_locate located)).2 _
    (mem_steps_join root taken)
  rw [Step.ofSegment, if_neg not_dot, if_neg not_dotDot] at known
  cases named : Name.ofBytes? bytes with
  | none => simp [named, Step.Known] at known
  | some name =>
      rw [named] at known
      obtain ⟨front, found, there⟩ := known
      refine ⟨name, front, found, ?_, there⟩
      rw [Name.ofBytes?] at named
      split at named
      · cases named
        rfl
      · cases named

/-! ## Steps that stay -/

/-- Steps that are others without some of those that stay where they are. -/
inductive Fewer : List Step → List Step → Prop where
  | nil : Fewer [] []
  | keep (step : Step) {shorter longer : List Step} (others : Fewer shorter longer) :
    Fewer (step :: shorter) (step :: longer)
  | drop {shorter longer : List Step} (others : Fewer shorter longer) :
    Fewer shorter (.stay :: longer)

theorem Fewer.append_left {shorter longer : List Step} (fewer : Fewer shorter longer)
    (front : List Step) : Fewer (front ++ shorter) (front ++ longer) := by
  induction front with
  | nil => exact fewer
  | cons step others ih => exact .keep step ih

/-- A continuation that finds directories without the steps that stay. -/
def Pares (top : Node) (follow : Continuation) : Prop :=
  ∀ place shorter longer demand location node, Fewer shorter longer →
    follow place longer demand = .ok (.present location) →
      top.at? location = some node → node.isDirectory = true →
        ∀ demanded, follow place shorter demanded = .ok (.present location)

theorem advance_of_fewer {follow : Continuation} (pares : Pares top follow) :
    Pares top (advance top .lookup follow) := by
  intro place shorter longer demand location node fewer reached there inside demanded
  induction fewer generalizing place with
  | nil =>
      obtain ⟨same, -⟩ := advance_nil_eq_ok_iff.mp reached
      cases same
      exact advance_nil_eq_ok_iff.mpr ⟨rfl, node, there, fun _ => inside⟩
  | drop others ih =>
      obtain ⟨-, onward⟩ := onward_of_advance reached
      cases onward with
      | stay taken => exact ih _ taken
  | keep step others ih =>
      obtain ⟨enterable, onward⟩ := onward_of_advance reached
      cases onward with
      | stay taken =>
          rw [advance_stay enterable]
          exact ih _ taken
      | up taken =>
          rw [advance_up enterable]
          exact ih _ taken
      | vacant name permitted absent last ends => cases ends
      | link name target permitted found followed =>
          rw [advance_link enterable (not_refused_lookup _ _) found]
          exact pares _ _ _ _ _ _ (others.append_left _) followed there inside _
      | node name found permitted stands unlinked taken =>
          rw [advance_node enterable (not_refused_lookup _ _) stands unlinked]
          exact ih _ taken

/-- A directory is found without the steps that stay, and no other links are
followed on the way. -/
theorem walk_of_fewer (budget : Nat) : Pares top (walk top .lookup budget) := by
  induction budget with
  | zero =>
      apply advance_of_fewer
      intro _ _ _ _ _ _ _ impossible
      cases impossible
  | succ budget ih => exact advance_of_fewer ih

theorem fewer_of_sublist {shorter longer : List Bytes} (sublist : shorter.Sublist longer)
    (same : shorter.filter Path.bearing = longer.filter Path.bearing) :
    Fewer ((shorter.filter fun segment => segment ≠ []).map Step.ofSegment)
      ((longer.filter fun segment => segment ≠ []).map Step.ofSegment) := by
  induction sublist with
  | slnil => exact .nil
  | @cons shorter longer segment sublist ih =>
      have spells_nothing : Path.bearing segment = false := by
        by_contra spells
        rw [Bool.not_eq_false] at spells
        have count := (sublist.filter Path.bearing).length_le
        rw [same, List.filter_cons_of_pos spells, List.length_cons] at count
        exact absurd count (Nat.not_succ_le_self _)
      rw [List.filter_cons_of_neg (by simp [spells_nothing])] at same
      by_cases empty : segment = []
      · rw [List.filter_cons_of_neg (by simp [empty])]
        exact ih same
      · obtain rfl : segment = Path.dot := by simpa [Path.bearing, empty] using spells_nothing
        rw [List.filter_cons_of_pos (by simp [empty])]
        exact .drop (ih same)
  | @cons_cons shorter longer segment sublist ih =>
      have others : shorter.filter Path.bearing = longer.filter Path.bearing := by
        cases spells : Path.bearing segment with
        | true =>
            rw [List.filter_cons_of_pos spells, List.filter_cons_of_pos spells] at same
            exact List.tail_eq_of_cons_eq same
        | false =>
            rwa [List.filter_cons_of_neg (by simp [spells]),
              List.filter_cons_of_neg (by simp [spells])] at same
      by_cases empty : segment = []
      · rw [List.filter_cons_of_neg (by simp [empty]), List.filter_cons_of_neg (by simp [empty])]
        exact ih others
      · rw [List.filter_cons_of_pos (by simp [empty]), List.filter_cons_of_pos (by simp [empty])]
        exact .keep _ (ih others)

theorem steps_rooted {body : List Bytes} (whole : ∀ segment ∈ body, Path.slash ∉ segment) :
    steps (Path.Spelling.mk .root body).path =
      (body.filter fun segment => segment ≠ []).map Step.ofSegment := by
  rw [steps]
  show ((Path.segments (Path.slash :: Path.ofSegments body)).filter _).map _ = _
  cases body with
  | nil => rfl
  | cons first others =>
      rw [Path.segments_slash_cons, Path.segments_ofSegments (by simp) whole,
        List.filter_cons_of_neg (by simp)]

/-- A directory is found at its place by any path that leaves out some segments
which spell nothing. -/
theorem locate_of_sublist {fs : Filesystem} {shorter longer : List Bytes} {location : Location}
    {node : Node}
    (located : fs.locate (Path.Spelling.mk .root longer).path = .ok location)
    (there : fs.top.at? location = some node) (inside : node.isDirectory = true)
    (whole : ∀ segment ∈ longer, Path.slash ∉ segment) (sublist : shorter.Sublist longer)
    (same : shorter.filter Path.bearing = longer.filter Path.bearing) :
    fs.locate (Path.Spelling.mk .root shorter).path = .ok location := by
  obtain ⟨-, short, clean⟩ := written_of_locate located
  have reached := (walk_of_resolve (resolve_of_locate located)).2
  have still_clean : (0 : UInt8) ∉ (Path.Spelling.mk .root shorter).path.bytes := by
    intro zero
    rcases List.mem_cons.mp zero with impossible | zero
    · exact absurd impossible (by decide)
    · obtain ⟨segment, listed, within⟩ := (Path.mem_ofSegments (by decide)).mp zero
      exact clean (List.mem_cons_of_mem _
        ((Path.mem_ofSegments (by decide)).mpr ⟨segment, sublist.subset listed, within⟩))
  have still_short : (Path.Spelling.mk .root shorter).path.bytes.length < pathLimit := by
    refine Nat.lt_of_le_of_lt ?_ short
    show (Path.slash :: Path.ofSegments shorter).length ≤
      (Path.slash :: Path.ofSegments longer).length
    rw [List.length_cons, List.length_cons, Path.length_ofSegments, Path.length_ofSegments]
    have total :=
      (sublist.map fun segment => segment.length + 1).sum_le_sum fun _ _ => Nat.zero_le _
    omega
  have sound : spellingError (Path.Spelling.mk .root shorter).path = none := by
    rw [spellingError, if_neg still_clean, if_neg (Nat.not_le.mpr still_short)]
    exact if_neg (List.cons_ne_nil _ _)
  have found := walk_of_fewer linkLimit _ _ _ _ _ _ (fewer_of_sublist sublist same)
    (steps_rooted whole ▸ reached) there inside
    (demandsDirectory (Path.Spelling.mk .root shorter).path)
  rw [← steps_rooted fun segment listed => whole segment (sublist.subset listed)] at found
  rw [locate, resolve, sound]
  exact found ▸ rfl

end Filesystem

end CacheManifest
