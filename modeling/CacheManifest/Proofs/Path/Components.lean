/-
# Components told by segments

Whatever a path starts with, its components after the start are the segments that
spell one. So paths that agree in these take the same steps from the same start,
and the names of a path are those of its segments that are neither empty nor a
reserved one. Joining a relative path to a directory appends segments.
-/

import CacheManifest.Proofs.Path.Below

namespace CacheManifest

open Scan (spelled)

namespace Path

/-- The segments of a path that spell a component. -/
def bearingSegments (path : Path) : List Bytes := (segments path.bytes).filter bearing

/-- What a path starts with is no segment that spells a component. -/
theorem filter_bearing_body (path : Path) :
    path.spelling.body.filter bearing = path.bearingSegments := by
  obtain ⟨head, others, cut⟩ := List.exists_cons_of_ne_nil (segments_ne_nil path.bytes)
  rw [bearingSegments, cut]
  by_cases rooted : head = []
  · subst rooted
    cases others with
    | nil => simp [spelling, cut, show ¬ ([] : Bytes) = dot by decide]
    | cons second more => simp [spelling, cut, bearing]
  · rw [spelling_of_head cut rooted]
    by_cases leading_dot : head = dot
    · simp [leading_dot, bearing]
    · simp [leading_dot]

theorem components_eq (path : Path) :
    path.components =
      path.spelling.anchor.components ++ path.bearingSegments.map Component.ofSegment := by
  rw [components, filter_bearing_body]

/-- The names of a path are its segments that name something. -/
theorem names_eq (path : Path) :
    path.names = path.bearingSegments.filter fun segment => segment ≠ dotDot := by
  have anchored : path.spelling.anchor.components.filterMap Component.name? = [] := by
    cases path.spelling.anchor <;> rfl
  have named : Component.name? ∘ Component.ofSegment =
      Option.guard fun segment => segment ≠ dotDot := by
    funext segment
    by_cases reserved : segment = dotDot <;>
      simp [Component.ofSegment, Component.name?, Option.guard, reserved]
  rw [names, components_eq, List.filterMap_append, anchored, List.nil_append, List.filterMap_map,
    named, List.filterMap_eq_filter]

/-- What a name of a path is: a segment of it that is neither empty nor reserved. -/
theorem mem_names {path : Path} {name : Bytes} :
    name ∈ path.names ↔
      name ∈ segments path.bytes ∧ name ≠ [] ∧ name ≠ dot ∧ name ≠ dotDot := by
  simp only [names_eq, bearingSegments, bearing, List.mem_filter, Bool.and_eq_true,
    decide_eq_true_eq, and_assoc]

theorem slash_not_mem_of_mem_names {path : Path} {name : Bytes} (inside : name ∈ path.names) :
    slash ∉ name :=
  slash_not_mem_of_mem_segments (mem_names.mp inside).1

/-- An absolute path begins with the empty segment, and the rest is its body. -/
theorem spelling_of_isAbsolute {path : Path} (absolute : path.isAbsolute = true) :
    path.spelling.anchor = .root ∧ segments path.bytes = [] :: path.spelling.body := by
  obtain ⟨rest, starts⟩ := exists_of_isAbsolute absolute
  obtain ⟨second, others, cut⟩ := List.exists_cons_of_ne_nil (segments_ne_nil rest)
  have shape : segments path.bytes = [] :: second :: others := by
    rw [starts, segments_slash_cons, cut]
  simp [spelling, shape]

/-- An absolute path is the root directory followed by its components. -/
theorem components_of_isAbsolute {path : Path} (absolute : path.isAbsolute = true) :
    path.components = .root :: path.bearingSegments.map Component.ofSegment := by
  rw [components_eq, (spelling_of_isAbsolute absolute).1]
  rfl

/-- An absolute path, taken apart and put together again. -/
theorem path_spelling_of_isAbsolute {path : Path} (absolute : path.isAbsolute = true) :
    (Spelling.mk .root path.spelling.body).path = path := by
  have written := ofSegments_segments path.bytes
  have some_segment : path.spelling.body ≠ [] := by
    intro none_left
    obtain ⟨-, cut⟩ := spelling_of_isAbsolute absolute
    rw [none_left] at cut
    exact segments_ne_singleton_nil (bytes_ne_nil_of_isAbsolute absolute) cut
  obtain ⟨second, others, shape⟩ := List.exists_cons_of_ne_nil some_segment
  rw [(spelling_of_isAbsolute absolute).2, shape, ofSegments_cons_cons, List.nil_append] at written
  rw [shape]
  exact congrArg Path.mk written

/-! ## The last component -/

theorem trimmedEnd_sublist (body : List Bytes) : (trimmedEnd body).Sublist body := by
  rw [← List.reverse_sublist, trimmedEnd, List.reverse_reverse]
  exact List.dropWhile_sublist _

/-- What is trimmed spells nothing. -/
theorem filter_bearing_trimmedEnd (body : List Bytes) :
    (trimmedEnd body).filter bearing = body.filter bearing := by
  induction body using List.reverseRecOn with
  | nil => rfl
  | append_singleton front last ih =>
      by_cases spells : bearing last = true
      · simp [trimmedEnd, spells]
      · have same : trimmedEnd (front ++ [last]) = trimmedEnd front := by
          simp [trimmedEnd, spells]
        rw [same, ih, List.filter_append]
        simp [spells]

/-- A path that ends in a component, without it. -/
theorem parent_of_isAbsolute {path : Path} (absolute : path.isAbsolute = true)
    {front : List Bytes} {last : Bytes} (ends : path.spelling.body = front ++ [last])
    (spells : bearing last = true) :
    path.parent = some (Spelling.mk .root (trimmedEnd front)).path := by
  have whole : trimmedEnd (front ++ [last]) = front ++ [last] := by
    simp [trimmedEnd, spells]
  obtain ⟨first, others, shape⟩ :=
    List.exists_cons_of_ne_nil (show front ++ [last] ≠ [] by simp)
  simp only [parent, ends, whole, (spelling_of_isAbsolute absolute).1]
  rw [shape]
  show some (Spelling.mk .root (trimmedEnd (first :: others).dropLast)).path = _
  rw [← shape, List.dropLast_concat]

theorem fileName_of_isAbsolute {path : Path} (absolute : path.isAbsolute = true)
    {front : List Bytes} {last : Bytes} (ends : path.spelling.body = front ++ [last])
    (spells : bearing last = true) :
    path.fileName = (Component.ofSegment last).name? := by
  have final : path.components =
      (.root :: (front.filter bearing).map Component.ofSegment) ++ [Component.ofSegment last] := by
    rw [components_of_isAbsolute absolute, ← filter_bearing_body, ends]
    simp [spells]
  rw [fileName, final, List.getLast?_concat]
  rfl

/-! ## Joined paths -/

theorem bearingSegments_append_slash (front rest : Bytes) :
    bearingSegments ⟨front ++ slash :: rest⟩ =
      bearingSegments ⟨front⟩ ++ bearingSegments ⟨rest⟩ := by
  rw [bearingSegments, segments_append_slash, List.filter_append]
  rfl

/-- The slash at the end of a path, if there is one, bears nothing. -/
theorem bearingSegments_stem (path : Path) :
    bearingSegments ⟨path.stem⟩ = path.bearingSegments := by
  rcases path.bytes_eq_stem_or with whole | closed
  · rw [bearingSegments, bearingSegments, ← whole]
  · rw [bearingSegments.eq_def path, closed, segments_append_slash, List.filter_append]
    exact (List.append_nil _).symm

theorem bearingSegments_join {base rest : Path} (written : base.bytes ≠ [])
    (relative : rest.isAbsolute = false) :
    (base.join rest).bearingSegments = base.bearingSegments ++ rest.bearingSegments := by
  rw [bearingSegments.eq_def (base.join rest), bytes_join written relative,
    ← bearingSegments_stem base, ← bearingSegments_append_slash]
  rfl

/-- The slash at the end of a joined path is the one between its parts, or that of
the second part. -/
theorem stem_join {base rest : Path} (written : base.bytes ≠ [])
    (relative : rest.isAbsolute = false) :
    (base.join rest).stem =
      if rest.bytes = [] then base.stem else base.stem ++ slash :: rest.stem := by
  rw [stem.eq_def (base.join rest), bytes_join written relative]
  cases shape : rest.bytes with
  | nil => simp
  | cons first others =>
      have last :
          (base.stem ++ slash :: first :: others).getLast? = (first :: others).getLast? := by
        simp [List.getLast?_append, List.getLast?_cons]
      rw [if_neg (List.cons_ne_nil _ _), last, stem.eq_def rest, shape]
      split
      · simp
      · rfl

/-- Below a directory that is joined to a root, the components of a place are those
of the root, of the directory, and the names. -/
theorem bearingSegments_spelled {root directory : Path} (written : root.bytes ≠ [])
    (relative : directory.isAbsolute = false) (place : Location) :
    (spelled (root.join directory) place).bearingSegments =
      root.bearingSegments ++ directory.bearingSegments ++ place.map Name.bytes := by
  rw [← bearingSegments_join written relative]
  by_cases below : place = []
  · subst below
    simp
  · have joined : (root.join directory).bytes ≠ [] := by
      rw [bytes_join written relative]
      simp
    rw [bearingSegments, Scan.segments_spelled joined below, List.filter_append,
      Name.filter_bearing_map, ← bearingSegments_stem (root.join directory)]
    rfl

/-- The segments of a root, those of a directory that spell a component, and the
names of a place are among the segments of the place below that directory. -/
theorem sublist_segments_spelled {root directory : Path} (written : root.bytes ≠ [])
    (relative : directory.isAbsolute = false) (place : Location) :
    (segments root.stem ++ directory.bearingSegments ++ place.map Name.bytes).Sublist
      (segments (spelled (root.join directory) place).bytes) := by
  by_cases below : place = []
  · subst below
    rw [Scan.spelled_nil, bytes_join written relative, segments_append_slash, List.map_nil,
      List.append_nil]
    exact (List.Sublist.refl _).append List.filter_sublist
  · have joined : (root.join directory).bytes ≠ [] := by
      rw [bytes_join written relative]
      simp
    rw [Scan.segments_spelled joined below, stem_join written relative]
    apply List.Sublist.append _ (List.Sublist.refl _)
    split
    · next empty =>
        rw [bearingSegments, empty]
        exact (List.append_nil _).symm ▸ List.Sublist.refl _
    · rw [segments_append_slash, ← bearingSegments_stem directory]
      exact (List.Sublist.refl _).append List.filter_sublist

end Path

end CacheManifest
