/-
# What a scan comes to

A scan either finds its source directory sound, and then answers with one entry
for each listed file of the whole trace, or it finds a fault. The faults are
those of looking the path up, and the first directory that cannot be listed.

A walk from the relative path `-` is taken for one through the standard input,
which holds no files. From an absolute root there is no such walk.
-/

import CacheManifest.Proofs.Scan.Obstruction

namespace CacheManifest

namespace Scan

/-- Only a relative path names the standard input. -/
theorem not_isStandardInput {path : Path} (absolute : path.isAbsolute = true) :
    isStandardInput path = false := by
  obtain ⟨rest, starts⟩ := Path.exists_of_isAbsolute absolute
  obtain ⟨second, others, cut⟩ := List.exists_cons_of_ne_nil (Path.segments_ne_nil rest)
  have rooted : path.components.head? = some .root := by
    simp [Path.components, Path.spelling, starts, cut, Path.Anchor.components]
  rw [isStandardInput, beq_eq_false_iff_ne]
  intro named
  rw [named] at rooted
  cases rooted

variable {fs : Filesystem} {config : Config} {root directory origin : Path} {base : Location}

/-- A source directory that can be scanned: its path leads to a directory, and
every directory that a walk from there is to enter can be listed. -/
structure Sound (fs : Filesystem) (config : Config) (origin : Path) : Prop where
  directory : fs.isDirectory origin = true
  listed : ∀ base place, fs.locate origin = .ok base → Entered fs config base place →
    ∃ names, fs.list (spelled origin place) = .ok names

/-- A directory that a scan enters is found by the path of the walk. -/
theorem Sound.locate_entered {place : Location} (sound : Sound fs config origin)
    (located : fs.locate origin = .ok base) (entered : Entered fs config base place) :
    fs.locate (spelled origin place) = .ok (base ++ place) := by
  obtain ⟨node, there, inside⟩ := entered.directory
  rw [Node.at?_append] at there
  obtain ⟨start, begins, below⟩ := Option.bind_eq_some_iff.mp there
  have unlinked : ∀ target, node ≠ .link target := by
    rintro target rfl
    cases inside
  have led := Filesystem.locate_spelled located begins below unlinked
  obtain ⟨names, listing⟩ := sound.listed base place located entered
  split_ifs at led with long open_way
  · simp [Filesystem.list, Filesystem.metadata, led] at listing
  · exact led
  · simp [Filesystem.list, Filesystem.metadata, led] at listing

/-- What is wrong with a source directory, and the failure that says so. -/
inductive Fault (fs : Filesystem) (config : Config) (origin : Path) : Failure → Prop where
  | missing (lookup : fs.metadata origin = .error .notFound) :
    Fault fs config origin (.directoryNotFound origin)
  | unreachable (cause : SystemError) (lookup : fs.metadata origin = .error cause)
    (other : cause ≠ .notFound) : Fault fs config origin (.system origin cause)
  | misplaced (node : Node) (lookup : fs.metadata origin = .ok node)
    (kind : node.isDirectory = false) : Fault fs config origin (.notDirectory origin)
  | unlistable (base place : Location) (cause : SystemError)
    (located : fs.locate origin = .ok base)
    (first : FirstUnlistable fs config origin base place cause) :
    Fault fs config origin (.walk origin (spelled origin place) cause)

/-- Whatever a scan answers with, it found its source directory sound or at
fault, and answers accordingly. -/
inductive Verdict (fs : Filesystem) (config : Config) (origin directory : Path) :
    Except Failure (List Entry) → Prop where
  | sound (base : Location) (start : Node) (located : fs.locate origin = .ok base)
    (begins : fs.top.at? base = some start) (inside : start.isDirectory = true)
    (listed : ∀ place, Entered fs config base place →
      ∃ names, fs.list (spelled origin place) = .ok names) :
    Verdict fs config origin directory
      (.ok (entries origin directory ((walkFrom fs config origin).visits start [] true)))
  | fault (failure : Failure) (at_fault : Fault fs config origin failure) :
    Verdict fs config origin directory (.error failure)

/-- Every scan that walks ends in a verdict. -/
theorem verdict_of_not_isStandardInput (fs : Filesystem) (config : Config)
    (no_input : isStandardInput (root.join directory) = false) :
    Verdict fs config (root.join directory) directory
      (scan fs root directory config).outcome := by
  cases lookup : fs.metadata (root.join directory) with
  | error cause =>
      by_cases missing : cause = .notFound
      · subst missing
        simp only [scan, trace, lookup]
        exact .fault _ (.missing lookup)
      · have failed : (scan fs root directory config).outcome =
            .error (.system (root.join directory) cause) := by
          cases cause <;> simp [scan, trace, lookup] at missing ⊢
        rw [failed]
        exact .fault _ (.unreachable cause lookup missing)
  | ok start =>
      cases inside : start.isDirectory with
      | false =>
          simp only [scan, trace, lookup, inside, Bool.not_false, if_true]
          exact .fault _ (.misplaced start lookup inside)
      | true =>
          obtain ⟨base, located, begins⟩ := Filesystem.exists_of_metadata lookup
          simp only [scan, trace, lookup, inside, no_input, Bool.not_true, Bool.false_eq_true,
            if_false]
          cases blocked : obstructed?
              ((walkFrom fs config (root.join directory)).visits start [] true) with
          | some pair =>
              exact .fault _ (.unlistable base pair.1 pair.2 located
                ((obstructed?_eq_some_iff located begins inside).mp blocked))
          | none =>
              rw [before_eq_self blocked]
              exact .sound base start located begins inside
                ((obstructed?_eq_none_iff_forall_listed located begins inside).mp blocked)

/-- Every scan from an absolute root ends in a verdict. -/
theorem verdict_scan (fs : Filesystem) (config : Config) (directory : Path)
    (absolute : root.isAbsolute = true) :
    Verdict fs config (root.join directory) directory
      (scan fs root directory config).outcome :=
  verdict_of_not_isStandardInput fs config
    (not_isStandardInput (Path.isAbsolute_join absolute directory))

/-- A scan that succeeds has found a directory. -/
theorem exists_start_of_scan {found : List Entry}
    (succeeded : (scan fs root directory config).outcome = .ok found) :
    ∃ start, fs.metadata (root.join directory) = .ok start ∧ start.isDirectory = true := by
  cases lookup : fs.metadata (root.join directory) with
  | error cause => cases cause <;> simp [scan, trace, lookup] at succeeded
  | ok start =>
      cases inside : start.isDirectory with
      | false => simp [scan, trace, lookup, inside] at succeeded
      | true => exact ⟨start, rfl, inside⟩

theorem isDirectory_of_scan {found : List Entry}
    (succeeded : (scan fs root directory config).outcome = .ok found) :
    fs.isDirectory (root.join directory) = true := by
  obtain ⟨start, lookup, inside⟩ := exists_start_of_scan succeeded
  rw [Filesystem.isDirectory, lookup]
  exact inside

/-- A scan of the standard input that succeeds finds nothing. -/
theorem eq_nil_of_isStandardInput (input : isStandardInput (root.join directory) = true)
    {found : List Entry} (succeeded : (scan fs root directory config).outcome = .ok found) :
    found = [] := by
  obtain ⟨start, lookup, inside⟩ := exists_start_of_scan succeeded
  simp only [scan, trace, lookup, inside, input, Bool.not_true, Bool.false_eq_true,
    if_false, if_true] at succeeded
  cases succeeded
  rfl

/-- A source directory at fault is not sound. -/
theorem Fault.not_sound {failure : Failure} (at_fault : Fault fs config origin failure) :
    ¬ Sound fs config origin := by
  rintro ⟨directory, listed⟩
  rw [Filesystem.isDirectory] at directory
  cases at_fault with
  | missing lookup => simp [lookup] at directory
  | unreachable cause lookup other => simp [lookup] at directory
  | misplaced node lookup kind => simp [lookup, kind] at directory
  | unlistable base place cause located first =>
      obtain ⟨names, found⟩ := listed base place located first.entered
      cases found.symm.trans first.refused

/-- What looking the path up tells about a fault. -/
theorem Fault.lookup {failure : Failure} (at_fault : Fault fs config origin failure) :
    match fs.metadata origin with
    | .error cause =>
      failure = if cause = .notFound then .directoryNotFound origin else .system origin cause
    | .ok node =>
      if node.isDirectory then
        ∃ base place cause, fs.locate origin = .ok base ∧
          FirstUnlistable fs config origin base place cause ∧
            failure = .walk origin (spelled origin place) cause
      else failure = .notDirectory origin := by
  cases at_fault with
  | missing lookup => simp only [lookup, if_true]
  | unreachable cause lookup other => simp only [lookup, if_neg other]
  | misplaced node lookup kind => simp [lookup, kind]
  | unlistable base place cause located first =>
      obtain ⟨start, begins, inside⟩ := (first.entered.of_isPrefix List.nil_prefix).directory
      rw [List.append_nil] at begins
      simp only [Filesystem.metadata_of_locate located begins, inside, if_true]
      exact ⟨base, place, cause, located, first, rfl⟩

/-- A source directory is at fault in one way only. -/
theorem Fault.unique {failure other : Failure} (here : Fault fs config origin failure)
    (there : Fault fs config origin other) : failure = other := by
  have one := here.lookup
  have two := there.lookup
  cases lookup : fs.metadata origin with
  | error cause =>
      rw [lookup] at one two
      exact one.trans two.symm
  | ok node =>
      rw [lookup] at one two
      dsimp only at one two
      split at one
      · next inside =>
          rw [if_pos inside] at two
          obtain ⟨base, place, cause, located, first, rfl⟩ := one
          obtain ⟨other_base, other_place, reason, again, other_first, rfl⟩ := two
          cases located.symm.trans again
          obtain ⟨rfl, rfl⟩ := first.unique other_first
          rfl
      · next outside =>
          rw [if_neg outside] at two
          exact one.trans two.symm

end Scan

end CacheManifest
