/-
# What calls change

A call ends with a code other than zero exactly if one of its stages fails, and then it has
shown nothing and written nothing: whatever can fail comes before all that is shown or
written. Only a call that is to write the manifest changes the file system, and such a call
shows nothing.

How much is reported does not matter for any of this. It is said by two flags and by a
setting of the environment, and all three reach the diagnostics only.
-/

import CacheManifest.Program
import CacheManifest.Proofs.CommandLine.Tones
import CacheManifest.Proofs.Run.Preview

namespace CacheManifest

open CommandLine (Arguments Command Halt Tone)

namespace Run

variable {fs : Filesystem} {arguments : Arguments} {project : Config.Project}
  {timestamp : String}

/-- The manifest is to be written. Without a command it is. -/
def Writes (arguments : Arguments) : Prop :=
  arguments.command.getD (.generate false) = .generate false

/-- A stage of a run fails: settling the project, reading the format, collecting the entries
of some source directory, or opening the output. -/
inductive Stopped (fs : Filesystem) (arguments : Arguments) : Prop
  | unresolved {trouble : Trouble} (failed : resolve fs arguments = .error trouble)
  | unknownFormat {project : Config.Project} {name : String}
    (resolved : resolve fs arguments = .ok project) (asked : arguments.command = some (.list name))
    (unknown : ListFormat.ofName? name = none)
  | uncollected {project : Config.Project} {failure : Failure}
    (resolved : resolve fs arguments = .ok project)
    (failed : (collect fs project.root project.config).outcome = .error failure)
  | unopened {project : Config.Project} {cause : SystemError}
    (resolved : resolve fs arguments = .ok project) (writes : Writes arguments)
    (refused : fs.openEmpty (project.config.outputPath project.root) = .error cause)

/-- A run that failed and left everything as it was. -/
structure Idle (fs : Filesystem) (run : Run) : Prop where
  failed : ∃ trouble, run.outcome = .error trouble
  output : run.output = ""
  filesystem : run.filesystem = fs
  written : run.written = none

/-- A run that shows something and leaves the file system as it was. -/
structure Shows (fs : Filesystem) (run : Run) : Prop where
  succeeded : run.outcome = .ok ()
  filesystem : run.filesystem = fs
  written : run.written = none

/-! ## One command -/

theorem idle_failed (fs : Filesystem) (log : List Log.Event) (trouble : Trouble) :
    Idle fs (failed fs log trouble) :=
  ⟨⟨trouble, rfl⟩, rfl, rfl, rfl⟩

theorem showing_cases (fs : Filesystem) (project : Config.Project)
    (display : List Entry → String) :
    (∃ failure, (collect fs project.root project.config).outcome = .error failure ∧
      Idle fs (showing fs project display)) ∨
    ∃ entries, (collect fs project.root project.config).outcome = .ok entries ∧
      Shows fs (showing fs project display) := by
  rw [showing]
  cases collected : (collect fs project.root project.config).outcome with
  | error failure => exact Or.inl ⟨failure, rfl, idle_failed _ _ _⟩
  | ok entries => exact Or.inr ⟨entries, rfl, rfl, rfl, rfl⟩

theorem writing_cases (fs : Filesystem) (project : Config.Project) (timestamp : String) :
    (∃ failure, Prevented fs project.root project.config failure ∧
      Idle fs (writing fs project timestamp)) ∨
    ∃ entries opened, (collect fs project.root project.config).outcome = .ok entries ∧
      fs.openEmpty (project.config.outputPath project.root) = .ok opened ∧
      (writing fs project timestamp).outcome = .ok () ∧
      (writing fs project timestamp).output = "" := by
  rw [writing]
  rcases generate_cases fs project.root project.config timestamp with
    ⟨failure, prevented, outcome, same⟩ | ⟨entries, opened, place, collected, opening, -, outcome⟩
  · refine Or.inl ⟨failure, prevented, ?_⟩
    simp only [outcome, same]
    exact idle_failed _ _ _
  · refine Or.inr ⟨entries, _, collected, opening, ?_⟩
    simp only [outcome, and_self]

/-! ## Whole runs -/

/-- What a run comes to: it is stopped and left everything as it was, it shows something, or
it writes the manifest and shows nothing. -/
inductive Ended (fs : Filesystem) (arguments : Arguments) (run : Run) : Prop
  | stopped (why : Stopped fs arguments) (idle : Idle fs run)
  | shown (reads : ¬ Writes arguments) (through : ¬ Stopped fs arguments) (shows : Shows fs run)
  | written (writes : Writes arguments) (through : ¬ Stopped fs arguments)
    (succeeded : run.outcome = .ok ()) (silent : run.output = "")

theorem not_stopped {entries : List Entry} (resolved : resolve fs arguments = .ok project)
    (known : ∀ name, arguments.command = some (.list name) → ListFormat.ofName? name ≠ none)
    (collected : (collect fs project.root project.config).outcome = .ok entries)
    (opens : Writes arguments →
      ∃ opened, fs.openEmpty (project.config.outputPath project.root) = .ok opened) :
    ¬ Stopped fs arguments := by
  rintro (failed | ⟨_, asked, unknown⟩ | ⟨again, failed⟩ | ⟨again, writes, refused⟩)
  · cases resolved.symm.trans failed
  · exact known _ asked unknown
  · cases resolved.symm.trans again
    cases collected.symm.trans failed
  · cases resolved.symm.trans again
    obtain ⟨opened, opening⟩ := opens writes
    cases opening.symm.trans refused

/-- A run that shows something ends in one of the first two ways. -/
theorem ended_showing (resolved : resolve fs arguments = .ok project)
    (reads : ¬ Writes arguments)
    (known : ∀ name, arguments.command = some (.list name) → ListFormat.ofName? name ≠ none)
    (display : List Entry → String) : Ended fs arguments (showing fs project display) := by
  rcases showing_cases fs project display with ⟨failure, failed, idle⟩ | ⟨entries, collected, shows⟩
  · exact .stopped (.uncollected resolved failed) idle
  · exact .shown reads
      (not_stopped resolved known collected fun writes => absurd writes reads) shows

/-- A run that writes ends in the first way or in the last. -/
theorem ended_writing (resolved : resolve fs arguments = .ok project)
    (writes : Writes arguments) : Ended fs arguments (writing fs project timestamp) := by
  have unlisted : ∀ name, arguments.command ≠ some (.list name) := by
    intro name asked
    rw [Writes, asked] at writes
    cases writes
  rcases writing_cases fs project timestamp with
    ⟨failure, prevented, idle⟩ | ⟨entries, opened, collected, opening, succeeded, silent⟩
  · refine .stopped ?_ idle
    cases prevented with
    | collecting failure failed => exact .uncollected resolved failed
    | opening entries cause _ refused => exact .unopened resolved writes refused
  · exact .written writes (not_stopped resolved (fun name asked => absurd asked (unlisted name))
      collected fun _ => ⟨opened, opening⟩) succeeded silent

theorem ended_ofArguments (fs : Filesystem) (arguments : Arguments) (timestamp : String) :
    Ended fs arguments (ofArguments fs arguments timestamp) := by
  rw [ofArguments]
  cases resolved : resolve fs arguments with
  | error trouble => exact .stopped (.unresolved resolved) (idle_failed _ _ _)
  | ok project =>
      dsimp only
      cases asked : arguments.command with
      | none => exact ended_writing resolved (by rw [Writes, asked, Option.getD_none])
      | some command =>
          have reads (other : command ≠ .generate false) : ¬ Writes arguments := by
            rwa [Writes, asked]
          cases command with
          | generate preview =>
              cases preview with
              | false => exact ended_writing resolved (by rw [Writes, asked, Option.getD_some])
              | true =>
                  refine ended_showing resolved (reads (by decide)) ?_ _
                  intro name listed
                  cases asked.symm.trans listed
          | list name =>
              rw [Option.getD_some, perform]
              cases known : ListFormat.ofName? name with
              | none => exact .stopped (.unknownFormat resolved asked known) (idle_failed _ _ _)
              | some format =>
                  refine ended_showing resolved (reads (by simp)) ?_ _
                  intro other listed
                  cases asked.symm.trans listed
                  simp [known]

/-- A run does not depend on how much is reported of it. -/
theorem ofArguments_toned (fs : Filesystem) (arguments : Arguments) (timestamp : String)
    (quiet verbose : Bool) :
    ofArguments fs { arguments with quiet := quiet, verbose := verbose } timestamp =
      ofArguments fs arguments timestamp := rfl

end Run

namespace Program

variable {fs : Filesystem} {timestamp : String}

/-- What a call asks for, unless it is halted. -/
def asked (call : Call) : Except Halt Arguments :=
  CommandLine.read call.arguments call.configSetting

/-- A call that is to write the manifest. Others ask for a listing, for a preview, for help or
for the version, or are misused. -/
def Writes (call : Call) : Prop := ∃ arguments, asked call = .ok arguments ∧ Run.Writes arguments

/-- Why a call fails: its command line is misused, or a stage of its run fails. -/
inductive Stopped (fs : Filesystem) (call : Call) : Prop
  | misused {error : CommandLine.UsageError} (refused : asked call = .error (.misuse error))
  | stopped {arguments : Arguments} (accepted : asked call = .ok arguments)
    (why : Run.Stopped fs arguments)

/-- Two calls that are halted alike, or that ask for the same but for how much is reported. -/
inductive Alike (first second : Call) : Prop
  | halted {halt : Halt} (one : asked first = .error halt) (other : asked second = .error halt)
  | accepted {arguments : Arguments} {quiet verbose : Bool} (one : asked first = .ok arguments)
    (other : asked second = .ok { arguments with quiet := quiet, verbose := verbose })

/-- Two ends that differ in their diagnostics at most. -/
structure SameEffect (first second : Exit) : Prop where
  code : first.code = second.code
  output : first.output = second.output
  filesystem : first.filesystem = second.filesystem
  written : first.written = second.written

/-- What a call may change, and what it may not. -/
structure AllOrNothing (fs : Filesystem) (call : Call) (timestamp : String) (exit : Exit) :
    Prop where
  fails_iff : exit.code ≠ 0 ↔ Stopped fs call
  nothing : exit.code ≠ 0 → exit.output = "" ∧ exit.filesystem = fs ∧ exit.written = none
  kept : ¬ Writes call → exit.filesystem = fs ∧ exit.written = none
  silent : Writes call → exit.output = ""
  unaffected : ∀ other, Alike call other → SameEffect exit (Program.call fs other timestamp)
  logged : ∀ setting, SameEffect exit
    (Program.call fs { call with logSetting := setting } timestamp)
  toned : ∀ (tone : Tone), ∀ argument ∈ tone.spellings,
    let more := { call with arguments := argument :: call.arguments }
    SameEffect exit (Program.call fs more timestamp) ∨ asked more = .error (.misuse .repeated)

theorem sameEffect_of_alike {first second : Call} (alike : Alike first second) :
    SameEffect (call fs first timestamp) (call fs second timestamp) := by
  cases alike with
  | halted one other =>
      rw [asked] at one other
      rw [call, call, one, other]
      exact ⟨rfl, rfl, rfl, rfl⟩
  | accepted one other =>
      rw [asked] at one other
      simp only [call, one, other, Run.ofArguments_toned]
      exact ⟨rfl, rfl, rfl, rfl⟩

theorem alike_logged (call : Call) (setting : Option String) :
    Alike call { call with logSetting := setting } := by
  cases accepted : asked call with
  | error halt => exact .halted accepted accepted
  | ok arguments => exact .accepted accepted accepted

theorem alike_toned {tone : Tone} {argument : Bytes} (spelled : argument ∈ tone.spellings)
    (call : Call) :
    let more := { call with arguments := argument :: call.arguments }
    Alike call more ∨ asked more = .error (.misuse .repeated) := by
  intro more
  rcases (CommandLine.follows_read spelled call.arguments call.configSetting).cases with
    ⟨halt, plain, toned⟩ | ⟨arguments, plain, toned⟩ | repeated
  · exact Or.inl (.halted plain toned)
  · left
    cases tone with
    | quiet => exact .accepted plain toned
    | verbose => exact .accepted plain toned
  · exact Or.inr repeated

/-- The end of a call by what it asks for. -/
theorem call_of_asked {arguments : Arguments} {call : Call} (accepted : asked call = .ok arguments)
    (fs : Filesystem) (timestamp : String) :
    ∃ level, Program.call fs call timestamp =
      ended (Run.ofArguments fs arguments timestamp) level := by
  rw [asked] at accepted
  rw [Program.call, accepted]
  exact ⟨_, rfl⟩

theorem call_of_halted {halt : Halt} {call : Call} (refused : asked call = .error halt) :
    Program.call fs call timestamp = halted fs halt := by
  rw [asked] at refused
  rw [Program.call, refused]

/-- What a call comes to: it fails and leaves everything as it was, it leaves the file system
as it was, or it writes the manifest and shows nothing. -/
inductive Ended (fs : Filesystem) (call : Call) (exit : Exit) : Prop
  | stopped (why : Stopped fs call) (failed : exit.code ≠ 0) (silent : exit.output = "")
    (same : exit.filesystem = fs) (unwritten : exit.written = none)
  | shown (reads : ¬ Writes call) (through : ¬ Stopped fs call) (succeeded : exit.code = 0)
    (same : exit.filesystem = fs) (unwritten : exit.written = none)
  | written (writes : Writes call) (through : ¬ Stopped fs call) (succeeded : exit.code = 0)
    (silent : exit.output = "")

theorem ended_call (fs : Filesystem) (call : Call) (timestamp : String) :
    Ended fs call (Program.call fs call timestamp) := by
  cases accepted : asked call with
  | error halt =>
      have reads : ¬ Writes call := by
        rintro ⟨arguments, again, -⟩
        cases accepted.symm.trans again
      rw [call_of_halted accepted]
      cases halt with
      | misuse error => exact .stopped (.misused accepted) (Nat.succ_ne_zero 1) rfl rfl rfl
      | help | version =>
          refine .shown reads ?_ rfl rfl rfl
          rintro (refused | ⟨again, -⟩)
          · cases accepted.symm.trans refused
          · cases accepted.symm.trans again
  | ok arguments =>
      obtain ⟨level, end_eq⟩ := call_of_asked accepted fs timestamp
      have writes_iff : Writes call ↔ Run.Writes arguments :=
        ⟨fun ⟨_, again, writes⟩ => by cases accepted.symm.trans again; exact writes,
          fun writes => ⟨arguments, accepted, writes⟩⟩
      have stopped_iff : Stopped fs call ↔ Run.Stopped fs arguments := by
        constructor
        · rintro (refused | ⟨again, why⟩)
          · cases accepted.symm.trans refused
          · cases accepted.symm.trans again
            exact why
        · exact .stopped accepted
      rw [end_eq]
      cases Run.ended_ofArguments fs arguments timestamp with
      | stopped why idle =>
          obtain ⟨⟨trouble, failed⟩, silent, same, unwritten⟩ := idle
          refine .stopped (stopped_iff.mpr why) ?_ silent same unwritten
          simp [ended, Run.exitCode, failed]
      | shown reads through shows =>
          refine .shown (mt writes_iff.mp reads) (mt stopped_iff.mp through) ?_ shows.filesystem
            shows.written
          simp [ended, Run.exitCode, shows.succeeded]
      | written writes through succeeded silent =>
          refine .written (writes_iff.mpr writes) (mt stopped_iff.mp through) ?_ silent
          simp [ended, Run.exitCode, succeeded]

/-- A call does all it is asked for, or nothing, and how much is reported does not change
what it does. -/
theorem call_all_or_nothing (fs : Filesystem) (call : Call) (timestamp : String) :
    AllOrNothing fs call timestamp (Program.call fs call timestamp) := by
  have ends := ended_call fs call timestamp
  constructor
  case fails_iff =>
    cases ends with
    | stopped why failed => exact iff_of_true failed why
    | shown _ through succeeded | written _ through succeeded =>
        exact iff_of_false (not_not_intro succeeded) through
  case nothing =>
    intro failed
    cases ends with
    | stopped _ _ silent same unwritten => exact ⟨silent, same, unwritten⟩
    | shown _ _ succeeded | written _ _ succeeded => exact absurd succeeded failed
  case kept =>
    intro reads
    cases ends with
    | stopped _ _ _ same unwritten | shown _ _ _ same unwritten => exact ⟨same, unwritten⟩
    | written writes => exact absurd writes reads
  case silent =>
    intro writes
    cases ends with
    | stopped _ _ silent | written _ _ _ silent => exact silent
    | shown reads => exact absurd writes reads
  case unaffected => exact fun other alike => sameEffect_of_alike alike
  case logged => exact fun setting => sameEffect_of_alike (alike_logged call setting)
  case toned =>
    intro tone argument spelled
    exact (alike_toned spelled call).imp_left sameEffect_of_alike

end Program

end CacheManifest
