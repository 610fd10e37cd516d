/-
# What one step does

Every step needs a directory that may be entered to start from. Then it stays, or
goes up, or goes on by a name: to a vacant place if it is the last step, to where
a link is carried on, or to the node there. This is said once, for steps that lead
somewhere and in both directions; whatever is shown of paths later goes through
the cases given here.
-/

import CacheManifest.Proofs.Filesystem.Places

namespace CacheManifest

namespace Filesystem

variable {top : Node} {purpose : Purpose} {follow : Continuation} {place : Location}
  {rest : List Step} {demand : Bool} {destination : Destination}

/-- A place from which steps can be taken: that of a directory which may be entered. -/
def Enterable (top : Node) (place : Location) : Prop :=
  ∃ permissions names distinct child,
    top.at? place = some (.directory permissions names distinct child) ∧ permissions.enter = true

/-- Whether a last step that has to find a directory is refused because a file is
to be opened. -/
def Refused (purpose : Purpose) (rest : List Step) (demand : Bool) : Prop :=
  purpose = .creation ∧ rest = [] ∧ demand = true

theorem not_refused_lookup (rest : List Step) (demand : Bool) :
    ¬ Refused .lookup rest demand := by
  rintro ⟨impossible, -, -⟩
  cases impossible

/-- A file that is to be opened may not have a slash behind it. -/
theorem demand_eq_false_of_not_refused (permitted : ¬ Refused .creation [] demand) :
    demand = false := by
  cases demand with
  | false => rfl
  | true => exact absurd ⟨rfl, rfl, rfl⟩ permitted

/-! ## Carrying a step out -/

theorem advance_stay (enterable : Enterable top place) :
    advance top purpose follow place (.stay :: rest) demand =
      advance top purpose follow place rest demand := by
  obtain ⟨permissions, names, distinct, child, here, enter⟩ := enterable
  simp [advance, here, enter]

theorem advance_up (enterable : Enterable top place) :
    advance top purpose follow place (.up :: rest) demand =
      advance top purpose follow place.dropLast rest demand := by
  obtain ⟨permissions, names, distinct, child, here, enter⟩ := enterable
  rw [advance.eq_def]
  simp [here, enter]

/-- A step by name, told by what stands at the place it leads to. -/
theorem advance_enter (enterable : Enterable top place) (name : Name) :
    advance top purpose follow place (.enter name :: rest) demand =
      if purpose = .creation && rest.isEmpty && demand then .error .isDirectory
      else
        match top.at? (place ++ [name]) with
        | some (.link target) =>
          follow (if target.isAbsolute then [] else place) (steps target ++ rest)
            (demand || (rest.isEmpty && demandsDirectory target))
        | some _ => advance top purpose follow (place ++ [name]) rest demand
        | none => if rest.isEmpty then .ok (.vacant place name) else .error .notFound := by
  obtain ⟨permissions, names, distinct, child, here, enter⟩ := enterable
  rw [Node.at?_concat, here, Option.bind_some, advance, here]
  cases entry : (Node.directory permissions names distinct child).child? name with
  | none => simp [enter, entry]
  | some next => cases next <;> simp [enter, entry]

theorem advance_link (enterable : Enterable top place) (permitted : ¬ Refused purpose rest demand)
    {name : Name} {target : Path} (there : top.at? (place ++ [name]) = some (.link target)) :
    advance top purpose follow place (.enter name :: rest) demand =
      follow (if target.isAbsolute then [] else place) (steps target ++ rest)
        (demand || (rest.isEmpty && demandsDirectory target)) := by
  rw [advance_enter enterable, if_neg (by simpa [Refused, and_assoc] using permitted)]
  simp only [there]

theorem advance_node (enterable : Enterable top place) (permitted : ¬ Refused purpose rest demand)
    {name : Name} {found : Node} (there : top.at? (place ++ [name]) = some found)
    (unlinked : ∀ target, found ≠ .link target) :
    advance top purpose follow place (.enter name :: rest) demand =
      advance top purpose follow (place ++ [name]) rest demand := by
  rw [advance_enter enterable, if_neg (by simpa [Refused, and_assoc] using permitted)]
  cases found with
  | link target => exact absurd rfl (unlinked target)
  | file | pipe | directory => simp only [there]

/-! ## Steps that lead somewhere -/

/-- No further steps lead to the node that is there. -/
theorem advance_nil_eq_ok_iff :
    advance top purpose follow place [] demand = .ok destination ↔
      destination = .present place ∧
        ∃ node, top.at? place = some node ∧ (demand = true → node.isDirectory = true) := by
  rw [advance]
  cases there : top.at? place with
  | none => simp
  | some node =>
      cases demand <;> cases inside : node.isDirectory <;> simp [inside] <;> exact eq_comm

/-- How a step and the ones after it lead to a destination. -/
inductive Onward (top : Node) (purpose : Purpose) (follow : Continuation) (place : Location)
    (rest : List Step) (demand : Bool) (destination : Destination) : Step → Prop where
  | stay (taken : advance top purpose follow place rest demand = .ok destination) :
    Onward top purpose follow place rest demand destination .stay
  | up (taken : advance top purpose follow place.dropLast rest demand = .ok destination) :
    Onward top purpose follow place rest demand destination .up
  | vacant (name : Name) (permitted : ¬ Refused purpose rest demand)
    (absent : top.at? (place ++ [name]) = none) (last : rest = [])
    (ends : destination = .vacant place name) :
    Onward top purpose follow place rest demand destination (.enter name)
  | link (name : Name) (target : Path) (permitted : ¬ Refused purpose rest demand)
    (there : top.at? (place ++ [name]) = some (.link target))
    (followed : follow (if target.isAbsolute then [] else place) (steps target ++ rest)
      (demand || (rest.isEmpty && demandsDirectory target)) = .ok destination) :
    Onward top purpose follow place rest demand destination (.enter name)
  | node (name : Name) (found : Node) (permitted : ¬ Refused purpose rest demand)
    (there : top.at? (place ++ [name]) = some found)
    (unlinked : ∀ target, found ≠ .link target)
    (taken : advance top purpose follow (place ++ [name]) rest demand = .ok destination) :
    Onward top purpose follow place rest demand destination (.enter name)

/-- A step that leads anywhere starts from a directory that may be entered. -/
theorem enterable_of_advance {step : Step}
    (reached : advance top purpose follow place (step :: rest) demand = .ok destination) :
    Enterable top place := by
  rw [advance] at reached
  split at reached
  · next permissions names distinct child there =>
      refine ⟨permissions, names, distinct, child, there, ?_⟩
      cases enter : permissions.enter with
      | true => rfl
      | false => simp [enter] at reached
  · cases reached
  · cases reached

/-- Steps that lead somewhere, taken apart at the first. -/
theorem onward_of_advance {step : Step}
    (reached : advance top purpose follow place (step :: rest) demand = .ok destination) :
    Enterable top place ∧ Onward top purpose follow place rest demand destination step := by
  have enterable := enterable_of_advance reached
  refine ⟨enterable, ?_⟩
  cases step with
  | stay =>
      rw [advance_stay enterable] at reached
      exact .stay reached
  | up =>
      rw [advance_up enterable] at reached
      exact .up reached
  | unnameable =>
      obtain ⟨permissions, names, distinct, child, here, enter⟩ := enterable
      simp only [advance, here, enter, Bool.not_true, Bool.false_eq_true, if_false] at reached
      split at reached <;> cases reached
  | enter name =>
      rw [advance_enter enterable] at reached
      split at reached
      · cases reached
      · next allowed =>
          have permitted : ¬ Refused purpose rest demand := by
            simpa [Refused, and_assoc] using allowed
          cases there : top.at? (place ++ [name]) with
          | none =>
              simp only [there] at reached
              split at reached
              · next last =>
                  cases reached
                  exact .vacant name permitted there (List.isEmpty_iff.mp last) rfl
              · cases reached
          | some found =>
              cases found with
              | link target =>
                  simp only [there] at reached
                  exact .link name target permitted there reached
              | file | pipe | directory =>
                  simp only [there] at reached
                  exact .node name _ permitted there (by simp) reached

end Filesystem

end CacheManifest
