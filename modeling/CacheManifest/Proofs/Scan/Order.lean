/-
# The order of a walk

A walk takes the names of a directory byte by byte in order and each directory
before what is below it. On places this is the lexicographic order of their
names, and a trace is strictly increasing in it. No place is visited twice, and
whatever comes first in the trace comes first in the tree. What lies below one place
stands together in this order.

Nothing here depends on which files are listed or on what may be entered.
-/

import CacheManifest.Proofs.Filesystem.Routes

namespace CacheManifest

namespace Name

theorem mem_insertSorted {name other : Name} {names : List Name} :
    other ∈ insertSorted name names ↔ other = name ∨ other ∈ names := by
  induction names with
  | nil => simp [insertSorted]
  | cons first others ih =>
      rw [insertSorted]
      split
      · simp
      · simp only [List.mem_cons, ih]
        exact or_left_comm

/-- Sorting loses no name and invents none. -/
theorem mem_sorted {name : Name} {names : List Name} : name ∈ sorted names ↔ name ∈ names := by
  induction names with
  | nil => simp [sorted]
  | cons first others ih => simp [sorted, mem_insertSorted, ih]

theorem bytes_lt_of_not_precedes {first second : Name} (different : first ≠ second)
    (later : ¬ first.precedes second = true) : second.bytes < first.bytes := by
  have reversed : ¬ first.bytes < second.bytes := by simpa [precedes] using later
  by_contra also
  exact different (bytes_injective (List.le_antisymm also reversed))

theorem pairwise_insertSorted {name : Name} {names : List Name} (fresh : name ∉ names)
    (ordered : names.Pairwise fun first second => first.bytes < second.bytes) :
    (insertSorted name names).Pairwise fun first second => first.bytes < second.bytes := by
  induction names with
  | nil => simp [insertSorted]
  | cons first others ih =>
      obtain ⟨head, tail⟩ := List.pairwise_cons.mp ordered
      rw [insertSorted]
      split
      · next before =>
          have smaller : name.bytes < first.bytes := by simpa [precedes] using before
          apply List.pairwise_cons.mpr
          refine ⟨?_, ?_⟩
          · intro other inside
            rcases List.mem_cons.mp inside with rfl | inside
            · exact smaller
            · exact List.lt_trans smaller (head other inside)
          · exact ordered
      · next later =>
          have larger : first.bytes < name.bytes :=
            bytes_lt_of_not_precedes (fun same => fresh (by simp [same])) later
          apply List.pairwise_cons.mpr
          refine ⟨?_, ?_⟩
          · intro other inside
            rcases mem_insertSorted.mp inside with rfl | inside
            · exact larger
            · exact head other inside
          · exact ih (fun again => fresh (by simp [again])) tail

/-- Distinct names are sorted into strictly increasing order. -/
theorem pairwise_sorted {names : List Name} (distinct : names.Nodup) :
    (sorted names).Pairwise fun first second => first.bytes < second.bytes := by
  induction names with
  | nil => exact List.Pairwise.nil
  | cons first others ih =>
      obtain ⟨fresh, rest⟩ := List.nodup_cons.mp distinct
      exact pairwise_insertSorted (fun inside => fresh (mem_sorted.mp inside)) (ih rest)

end Name

namespace Location

/-- The order of a depth-first walk by name. A place comes before the places
below it. -/
def Before (first second : Location) : Prop :=
  first.map Name.bytes < second.map Name.bytes

variable {first second third : Location}

theorem Before.trans (earlier : first.Before second) (later : second.Before third) :
    first.Before third :=
  List.lt_trans earlier later

theorem not_before_self (place : Location) : ¬ place.Before place :=
  List.lt_irrefl _

theorem Before.asymm (earlier : first.Before second) : ¬ second.Before first :=
  fun later => not_before_self first (earlier.trans later)

/-- The order is total: places that do not precede each other are the same. -/
theorem eq_of_not_before (not_earlier : ¬ first.Before second)
    (not_later : ¬ second.Before first) : first = second :=
  List.map_injective_iff.mpr Name.bytes_injective (List.le_antisymm not_later not_earlier)

/-- Places that part at a name are ordered by that name. -/
theorem before_of_names (front : Location) {left right : Name} (smaller : left.bytes < right.bytes)
    (rest others : Location) : Before (front ++ left :: rest) (front ++ right :: others) := by
  rw [Before, List.map_append, List.map_append]
  apply List.append_left_lt
  rw [List.map_cons, List.map_cons, List.cons_lt_cons_iff]
  exact Or.inl smaller

/-- Nothing below a place comes before it. -/
theorem not_before_of_isPrefix (above : first <+: second) : ¬ second.Before first := by
  obtain ⟨rest, rfl⟩ := above
  have shorter : first.map Name.bytes <+: (first ++ rest).map Name.bytes := by
    rw [List.map_append]
    exact List.prefix_append _ _
  exact shorter.le

/-- No place is twice in a list in the order of a walk. -/
theorem nodup_of_pairwise_before {places : List Location} (ordered : places.Pairwise Before) :
    places.Nodup := by
  apply ordered.imp
  rintro place _ earlier rfl
  exact not_before_self place earlier

/-- Lists of places in the order of a walk are told by what is in them. -/
theorem eq_of_pairwise_before {places others : List Location} (ordered : places.Pairwise Before)
    (others_ordered : others.Pairwise Before) (same : ∀ place, place ∈ places ↔ place ∈ others) :
    places = others := by
  apply List.Perm.eq_of_pairwise _ ordered others_ordered
  · exact (List.perm_ext_iff_of_nodup (nodup_of_pairwise_before ordered)
      (nodup_of_pairwise_before others_ordered)).mpr same
  · intro place other _ _ earlier later
    exact absurd later earlier.asymm

/-! ## Places below a place -/

section Below

variable {sub place : Location}

theorem before_cons_iff {name other : Name} {first second : Location} :
    Before (name :: first) (other :: second) ↔
      name.bytes < other.bytes ∨ name = other ∧ first.Before second := by
  rw [Before, List.map_cons, List.map_cons, List.cons_lt_cons_iff, Name.bytes_injective.eq_iff,
    Before]

/-- Below one place, the order is that of what follows it. -/
theorem before_append_iff (front : Location) {first second : Location} :
    Before (front ++ first) (front ++ second) ↔ first.Before second := by
  induction front with
  | nil => rfl
  | cons name others ih =>
      rw [List.cons_append, List.cons_append, before_cons_iff, ih]
      exact or_iff_right (List.lt_irrefl _) |>.trans (and_iff_right rfl)

/-- What comes before a place comes before all that is below it. -/
theorem Before.append (earlier : place.Before sub) (rest : Location) :
    place.Before (sub ++ rest) := by
  have not_later := not_before_of_isPrefix (List.prefix_append sub rest)
  by_contra not_earlier
  have same := eq_of_not_before not_earlier fun later => not_later (later.trans earlier)
  exact not_later (same ▸ earlier)

/-- What comes after a place and is not below it comes after all that is. -/
theorem before_of_not_isPrefix (later : sub.Before place) (outside : ¬ sub <+: place)
    (rest : Location) : Before (sub ++ rest) place := by
  induction sub generalizing place with
  | nil => exact absurd List.nil_prefix outside
  | cons name front ih =>
      cases place with
      | nil => cases later
      | cons other others =>
          rw [before_cons_iff] at later
          rw [List.cons_append, before_cons_iff]
          rcases later with smaller | ⟨rfl, later⟩
          · exact Or.inl smaller
          · rw [List.prefix_cons_inj] at outside
            exact Or.inr ⟨rfl, ih later outside⟩

/-- A place comes before another one, or is below it, or comes after all that is. -/
theorem before_or_isPrefix_or_after (sub place : Location) :
    place.Before sub ∨ sub <+: place ∨ (sub.Before place ∧ ¬ sub <+: place) := by
  by_contra nowhere
  simp only [not_or, not_and_not_right] at nowhere
  obtain ⟨not_earlier, outside, not_later⟩ := nowhere
  have same := eq_of_not_before not_earlier fun later => outside (not_later later)
  exact outside (same ▸ List.prefix_rfl)

/-- In an ordered list of places, those below one place stand together. -/
theorem exists_block {places inner : List Location} (ordered : places.Pairwise Before)
    (inner_ordered : inner.Pairwise Before)
    (below : ∀ place, place ∈ inner ↔ sub ++ place ∈ places) :
    ∃ earlier later, places = earlier ++ inner.map (sub ++ ·) ++ later ∧
      ∀ place ∈ earlier ++ later, ¬ sub <+: place := by
  classical
  have mem_block (place : Location) :
      place ∈ inner.map (sub ++ ·) ↔ place ∈ places ∧ sub <+: place := by
    rw [List.mem_map]
    refine ⟨?_, ?_⟩
    · rintro ⟨rest, inside, rfl⟩
      exact ⟨(below rest).mp inside, List.prefix_append sub rest⟩
    · rintro ⟨listed, rest, rfl⟩
      exact ⟨rest, (below rest).mpr listed, rfl⟩
  have before_block {place within : Location} (earlier : place.Before sub)
      (inside : sub <+: within) : place.Before within := by
    obtain ⟨rest, rfl⟩ := inside
    exact earlier.append rest
  have block_before {within place : Location} (inside : sub <+: within)
      (later : sub.Before place ∧ ¬ sub <+: place) : within.Before place := by
    obtain ⟨rest, rfl⟩ := inside
    exact before_of_not_isPrefix later.1 later.2 rest
  refine ⟨places.filter fun place => place.Before sub,
    places.filter fun place => sub.Before place ∧ ¬ sub <+: place, ?_, ?_⟩
  · apply eq_of_pairwise_before ordered
    · simp only [List.pairwise_append, List.mem_append, List.mem_filter, decide_eq_true_eq,
        mem_block]
      refine ⟨⟨ordered.filter _, ?_, ?_⟩, ordered.filter _, ?_⟩
      · rw [List.pairwise_map]
        exact inner_ordered.imp (before_append_iff sub).mpr
      · exact fun place earlier within inside => before_block earlier.2 inside.2
      · rintro place (earlier | inside) other later
        · exact earlier.2.trans later.2.1
        · exact block_before inside.2 later.2
    · intro place
      simp only [List.mem_append, mem_block, List.mem_filter, decide_eq_true_eq]
      have somewhere := before_or_isPrefix_or_after sub place
      tauto
  · simp only [List.mem_append, List.mem_filter, decide_eq_true_eq]
    rintro place (earlier | later) above
    · exact not_before_of_isPrefix above earlier.2
    · exact later.2.2 above

end Below

end Location

namespace Scan

/-- The place a visit is about. -/
@[simp]
def Visit.place : Visit → Location
  | .listed place => place
  | .excluded place => place
  | .ignored place => place
  | .unlistable place _ => place

/-- The part of a trace that one entry of a directory contributes. -/
def Walk.entryVisits (walk : Walk) (node : Node) (place : Location) (name : Name)
    (reachable : Bool) : List Visit :=
  match node with
  | .file _ _ => [walk.fileVisit place name]
  | .link _ =>
    if walk.leadsToDirectory (spelled walk.origin place) then []
    else [walk.fileVisit place name]
  | .pipe => []
  | .directory _ _ _ _ =>
    if walk.config.ignores name.text then [.ignored place] else walk.visits node place reachable

variable {walk : Walk}

theorem visits_directory (permissions : Permissions) (names : List Name) (distinct : names.Nodup)
    (child : Name → Node) (place : Location) (reachable : Bool) :
    walk.visits (.directory permissions names distinct child) place reachable =
      match walk.obstacle place reachable permissions with
      | some cause => [.unlistable place cause]
      | none => (Name.sorted names).flatMap fun name =>
          walk.entryVisits (child name) (place ++ [name]) name permissions.enter := by
  rw [Walk.visits]
  cases walk.obstacle place reachable permissions with
  | some cause => rfl
  | none =>
      apply congrArg (List.flatMap · (Name.sorted names))
      funext name
      cases entry : child name <;> rfl

@[simp]
theorem place_fileVisit (place : Location) (name : Name) :
    (walk.fileVisit place name).place = place := by
  rw [Walk.fileVisit]
  split <;> rfl

/-- An entry is met as a file, as a directory to leave out, or by walking on. -/
theorem mem_entryVisits {node : Node} {place : Location} {name : Name} {reachable : Bool}
    {visit : Visit} (met : visit ∈ walk.entryVisits node place name reachable) :
    visit = walk.fileVisit place name ∨ visit = .ignored place ∨
      visit ∈ walk.visits node place reachable := by
  cases node with
  | file permissions content => exact Or.inl (List.mem_singleton.mp met)
  | link target =>
      rw [Walk.entryVisits.eq_def] at met
      dsimp only at met
      split at met
      · cases met
      · exact Or.inl (List.mem_singleton.mp met)
  | pipe => cases met
  | directory permissions names distinct child =>
      rw [Walk.entryVisits.eq_def] at met
      dsimp only at met
      split at met
      · exact Or.inr (Or.inl (List.mem_singleton.mp met))
      · exact Or.inr (Or.inr met)

/-- A walk below a node stays below the place of the node. -/
theorem place_isPrefix_of_mem_visits {node : Node} {place : Location} {reachable : Bool}
    {visit : Visit} (met : visit ∈ walk.visits node place reachable) :
    place <+: visit.place := by
  induction node generalizing place reachable with
  | file permissions content => cases met
  | link target => cases met
  | pipe => cases met
  | directory permissions names distinct child ih =>
      rw [visits_directory] at met
      cases blocked : walk.obstacle place reachable permissions with
      | some cause =>
          obtain rfl : visit = .unlistable place cause := by simpa [blocked] using met
          exact List.prefix_rfl
      | none =>
          simp only [blocked] at met
          obtain ⟨name, -, met⟩ := List.mem_flatMap.mp met
          suffices below : place ++ [name] <+: visit.place from
            (List.prefix_append place [name]).trans below
          rcases mem_entryVisits met with rfl | rfl | met
          · rw [place_fileVisit]
          · exact List.prefix_rfl
          · exact ih name met

theorem place_isPrefix_of_mem_entryVisits {node : Node} {place : Location} {name : Name}
    {reachable : Bool} {visit : Visit}
    (met : visit ∈ walk.entryVisits node place name reachable) : place <+: visit.place := by
  rcases mem_entryVisits met with rfl | rfl | met
  · rw [place_fileVisit]
  · exact List.prefix_rfl
  · exact place_isPrefix_of_mem_visits met

/-- Visits to different entries of a directory are ordered like the names of the
entries. -/
theorem before_of_mem_entryVisits {place : Location} {left right : Name}
    (smaller : left.bytes < right.bytes) {first second : Node} {reachable : Bool}
    {visit later : Visit}
    (met : visit ∈ walk.entryVisits first (place ++ [left]) left reachable)
    (met_later : later ∈ walk.entryVisits second (place ++ [right]) right reachable) :
    visit.place.Before later.place := by
  obtain ⟨rest, there⟩ := place_isPrefix_of_mem_entryVisits met
  obtain ⟨others, elsewhere⟩ := place_isPrefix_of_mem_entryVisits met_later
  rw [← there, ← elsewhere, List.append_assoc, List.append_assoc, List.singleton_append,
    List.singleton_append]
  exact Location.before_of_names place smaller rest others

/-- A trace is strictly increasing in the order of places. -/
theorem pairwise_visits (node : Node) (place : Location) (reachable : Bool) :
    (walk.visits node place reachable).Pairwise fun visit later =>
      visit.place.Before later.place := by
  induction node generalizing place reachable with
  | file permissions content => exact List.Pairwise.nil
  | link target => exact List.Pairwise.nil
  | pipe => exact List.Pairwise.nil
  | directory permissions names distinct child ih =>
      rw [visits_directory]
      cases walk.obstacle place reachable permissions with
      | some cause => exact List.pairwise_singleton _ _
      | none =>
          rw [List.pairwise_flatMap]
          refine ⟨?_, ?_⟩
          · intro name _
            cases entry : child name with
            | file permissions content => exact List.pairwise_singleton _ _
            | link target =>
                rw [Walk.entryVisits.eq_def]
                dsimp only
                split
                · exact List.Pairwise.nil
                · exact List.pairwise_singleton _ _
            | pipe => exact List.Pairwise.nil
            | directory inner listed unique below =>
                rw [Walk.entryVisits.eq_def]
                dsimp only
                split
                · exact List.pairwise_singleton _ _
                · exact entry ▸ ih name (place ++ [name]) permissions.enter
          · exact (Name.pairwise_sorted distinct).imp fun smaller visit met later met_later =>
              before_of_mem_entryVisits smaller met met_later

end Scan

end CacheManifest
