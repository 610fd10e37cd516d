/-
# What making a manifest does to a file system

Collecting reads and nothing else. The output is opened when everything has been
collected, and once it is open nothing can fail, so a file system is either left
as it was or has the whole new manifest at the place of the output. The entries
in it are those of the file system as it was found, even where the output lies
among the files that are listed.
-/

import CacheManifest.Generation
import CacheManifest.Proofs.Filesystem.Writing

namespace CacheManifest

open Filesystem (Written)

variable {fs : Filesystem} {root : Path} {config : Config} {timestamp : String}

/-- Why a generation fails: collecting failed, or everything was collected and the
output could not be opened. -/
inductive Prevented (fs : Filesystem) (root : Path) (config : Config) : Failure → Prop where
  | collecting (failure : Failure) (failed : (collect fs root config).outcome = .error failure) :
    Prevented fs root config failure
  | opening (entries : List Entry) (cause : SystemError)
    (collected : (collect fs root config).outcome = .ok entries)
    (refused : fs.openEmpty (config.outputPath root) = .error cause) :
    Prevented fs root config (.system (config.outputPath root) cause)

/-- A generation is either prevented and leaves the file system as it was, or has
opened the output with everything collected, and has written the manifest to it. -/
theorem generate_cases (fs : Filesystem) (root : Path) (config : Config) (timestamp : String) :
    (∃ failure, Prevented fs root config failure ∧
      (generate fs root config timestamp).outcome = .error failure ∧
      (generate fs root config timestamp).filesystem = fs) ∨
    ∃ entries opened place, (collect fs root config).outcome = .ok entries ∧
      fs.openEmpty (config.outputPath root) = .ok (opened, place) ∧
      (generate fs root config timestamp).filesystem =
        opened.append place (Utf8.encode (renderManifest timestamp entries)) ∧
      (generate fs root config timestamp).outcome =
        .ok ⟨config.outputPath root, entries.length⟩ := by
  cases collected : (collect fs root config).outcome with
  | error failure =>
      left
      refine ⟨failure, .collecting failure collected, ?_, ?_⟩
      · simp [generate, collected]
      · simp [generate, collected]
  | ok entries =>
      cases opening : fs.openEmpty (config.outputPath root) with
      | error cause =>
          left
          refine ⟨_, .opening entries cause collected opening, ?_, ?_⟩
          · simp [generate, collected, opening]
          · simp [generate, collected, opening]
      | ok pair =>
          right
          refine ⟨entries, pair.1, pair.2, rfl, rfl, ?_, ?_⟩
          · simp [generate, collected, opening]
          · simp [generate, collected, opening]

/-- A generation that succeeds has written the manifest of what was collected to
the output, has changed nothing else, and says what it has done. -/
theorem exists_written {summary : Summary}
    (succeeded : (generate fs root config timestamp).outcome = .ok summary) :
    ∃ entries place, (collect fs root config).outcome = .ok entries ∧
      Written fs (config.outputPath root) place
        (Utf8.encode (renderManifest timestamp entries))
        (generate fs root config timestamp).filesystem ∧
      summary = ⟨config.outputPath root, entries.length⟩ := by
  rcases generate_cases fs root config timestamp with
    ⟨failure, -, failed, -⟩ | ⟨entries, opened, place, collected, opening, result, outcome⟩
  · cases succeeded.symm.trans failed
  · cases succeeded.symm.trans outcome
    rw [result]
    exact ⟨entries, place, collected, Filesystem.written_of_openEmpty opening _, rfl⟩

/-- Whatever a generation comes to, either it was prevented and the file system is
as it was, or the output alone has changed, and that completely. -/
theorem generate_effect (fs : Filesystem) (root : Path) (config : Config) (timestamp : String) :
    match (generate fs root config timestamp).outcome with
    | .error failure =>
      Prevented fs root config failure ∧ (generate fs root config timestamp).filesystem = fs
    | .ok summary =>
      ∃ entries place, (collect fs root config).outcome = .ok entries ∧
        Written fs (config.outputPath root) place
          (Utf8.encode (renderManifest timestamp entries))
          (generate fs root config timestamp).filesystem ∧
        summary = ⟨config.outputPath root, entries.length⟩ := by
  cases outcome : (generate fs root config timestamp).outcome with
  | ok summary => exact exists_written outcome
  | error failure =>
      show Prevented fs root config failure ∧ (generate fs root config timestamp).filesystem = fs
      rcases generate_cases fs root config timestamp with
        ⟨reason, prevented, failed, same⟩ | ⟨entries, opened, place, -, -, -, succeeded⟩
      · cases outcome.symm.trans failed
        exact ⟨prevented, same⟩
      · cases outcome.symm.trans succeeded

end CacheManifest
