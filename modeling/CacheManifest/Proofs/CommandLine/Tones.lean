/-
# How much is reported, and what is asked for

Two flags say how much a run reports. Given in front of a command line, such a flag changes
nothing else in what the line asks for, and it does not make an accepted line of one that is
refused. The only new refusal is that of a flag that is given a second time.

This is shown for each step of the reading and carried on over the arguments.
-/

import CacheManifest.CommandLine.Reading
import CacheManifest.Proofs.Results

namespace CacheManifest

namespace CommandLine

/-- How much is reported: less than usual, or more. -/
inductive Tone where
  | quiet
  | verbose
deriving DecidableEq, Repr

/-- The two spellings of the flag of a tone. -/
def Tone.spellings : Tone → List Bytes
  | quiet => ["-q", "--quiet"].map Utf8.encode
  | verbose => ["-v", "--verbose"].map Utf8.encode

/-- A level with the flag of a tone. -/
def Level.toned (tone : Tone) (level : Level) : Level :=
  match tone with
  | .quiet => { level with quiet := true }
  | .verbose => { level with verbose := true }

/-- A level under way, with the flag of a tone. -/
def Progress.toned (tone : Tone) (progress : Progress) : Progress :=
  { progress with level := progress.level.toned tone }

/-- A level read to its end, with the flag of a tone. -/
def Part.toned (tone : Tone) (part : Part) : Part :=
  { part with progress := part.progress.toned tone }

/-- What a command line asks for, with the flag of a tone. -/
def Arguments.toned (tone : Tone) (arguments : Arguments) : Arguments :=
  match tone with
  | .quiet => { arguments with quiet := true }
  | .verbose => { arguments with verbose := true }

/-- A reading that comes to the same as another one but for a flag, or finds the flag
repeated. -/
def Follows {α : Type} (toned : α → α) (plain after : Except Halt α) : Prop :=
  after = plain.map toned ∨ after = refuse .repeated

variable {tone : Tone} {scope : Scope} {progress : Progress}

/-! ## Steps -/

/-- The cases that a reading with the flag may come to. -/
theorem Follows.cases {α : Type} {toned : α → α} {plain after : Except Halt α}
    (follows : Follows toned plain after) :
    (∃ halt, plain = .error halt ∧ after = .error halt) ∨
      (∃ a, plain = .ok a ∧ after = .ok (toned a)) ∨ after = refuse .repeated := by
  rcases follows with rfl | repeated
  · cases plain with
    | error halt => exact Or.inl ⟨halt, rfl, rfl⟩
    | ok a => exact Or.inr (Or.inl ⟨a, rfl, rfl⟩)
  · exact Or.inr (Or.inr repeated)

theorem Follows.bind {α β : Type} {f : α → α} {g : β → β} {plain after : Except Halt α}
    {next : α → Except Halt β} (follows : Follows f plain after)
    (each : ∀ a, Follows g (next a) (next (f a))) :
    Follows g (plain >>= next) (after >>= next) := by
  rcases follows.cases with ⟨halt, rfl, rfl⟩ | ⟨a, rfl, rfl⟩ | rfl
  · exact Or.inl rfl
  · exact each a
  · exact Or.inr rfl

theorem Follows.of_eq {α : Type} {f : α → α} {plain after : Except Halt α}
    (same : after = plain.map f) : Follows f plain after := Or.inl same

theorem Level.give_toned (level : Level) (parameter : Parameter) (value : Bytes) :
    (level.toned tone).give parameter value = (level.give parameter value).map (toned tone) := by
  have compose {α : Type} (read : Except Halt α) (put : α → Level) :
      (read.map put).map (toned tone) = read.map fun a => (put a).toned tone := by
    cases read <;> rfl
  cases tone <;> cases parameter <;>
    · rw [Level.give, Level.give, compose]
      rfl

theorem Level.follows_raise (level : Level) (flag : Flag) :
    Follows (toned tone) (level.raise flag) ((level.toned tone).raise flag) := by
  obtain ⟨_, _, _, _, _, _, _, quiet, verbose, stdout⟩ := level
  cases tone <;> cases flag
  case quiet.quiet | verbose.verbose => exact Or.inr rfl
  case quiet.help | quiet.version | verbose.help | verbose.version => exact Or.inl rfl
  case quiet.verbose => cases verbose <;> exact Or.inl rfl
  case verbose.quiet => cases quiet <;> exact Or.inl rfl
  case quiet.stdout | verbose.stdout => cases stdout <;> exact Or.inl rfl

namespace Progress

theorem settle_toned (progress : Progress) :
    (progress.toned tone).settle = progress.settle.map (Level.toned tone) := by
  rcases progress with ⟨level, _ | ⟨parameter, _ | value⟩⟩
  · rfl
  · rfl
  · exact level.give_toned parameter value

theorem follows_raise (progress : Progress) (flag : Flag) :
    Follows (toned tone) (progress.raise flag) ((progress.toned tone).raise flag) :=
  .bind (.of_eq progress.settle_toned) fun level =>
    .bind (level.follows_raise flag) fun _ => .of_eq rfl

theorem follows_give (progress : Progress) (parameter : Parameter) (value : Bytes) :
    Follows (toned tone) (progress.give parameter value)
      ((progress.toned tone).give parameter value) :=
  .bind (.of_eq progress.settle_toned) fun level =>
    .bind (.of_eq (level.give_toned parameter value)) fun _ => .of_eq rfl

theorem follows_await (progress : Progress) (parameter : Parameter) :
    Follows (toned tone) (progress.await parameter) ((progress.toned tone).await parameter) :=
  .bind (.of_eq progress.settle_toned) fun _ => .of_eq rfl

theorem take?_toned (progress : Progress) (argument : Bytes) :
    (progress.toned tone).take? argument = (progress.take? argument).map (toned tone) := by
  rcases progress with ⟨level, _ | ⟨parameter, _ | value⟩⟩ <;> rfl

end Progress

/-! ## Arguments -/

theorem follows_readLong (progress : Progress) (text : Bytes) :
    Follows (Progress.toned tone) (readLong scope progress text)
      (readLong scope (progress.toned tone) text) := by
  rw [readLong, readLong]
  split
  · exact Or.inl rfl
  · exact progress.follows_raise _
  · exact Or.inl rfl
  · exact progress.follows_await _
  · exact progress.follows_give _ _

theorem follows_readLetters (progress : Progress) (group : Bytes) :
    Follows (Progress.toned tone) (readLetters scope progress group)
      (readLetters scope (progress.toned tone) group) := by
  induction group generalizing progress with
  | nil => exact Or.inl rfl
  | cons letter rest ih =>
      rw [readLetters, readLetters]
      split
      · exact Or.inl rfl
      · next flag _ =>
          rcases (progress.follows_raise flag).cases with
            ⟨halt, plain, toned⟩ | ⟨next, plain, toned⟩ | toned
          · rw [plain, toned]
            exact Or.inl rfl
          · rw [plain, toned]
            exact ih next
          · rw [toned]
            exact Or.inr rfl
      · cases rest with
        | nil => exact progress.follows_await _
        | cons first value => exact progress.follows_give _ _

/-- A level is read to the same end with the flag of a tone, unless it has this flag
again. -/
theorem follows_readLevel (progress : Progress) (arguments : List Bytes) :
    Follows (Part.toned tone) (readLevel scope progress arguments)
      (readLevel scope (progress.toned tone) arguments) := by
  induction arguments generalizing progress with
  | nil => exact Or.inl rfl
  | cons argument rest ih =>
      rw [readLevel.eq_def, readLevel.eq_def scope (progress.toned tone)]
      dsimp only
      split
      · cases rest <;> exact Or.inl rfl
      · next text _ =>
          rcases (follows_readLong progress text).cases with
            ⟨halt, plain, toned⟩ | ⟨next, plain, toned⟩ | toned
          · rw [plain, toned]
            exact Or.inl rfl
          · rw [plain, toned]
            exact ih next
          · rw [toned]
            exact Or.inr rfl
      · next group _ =>
          rcases (follows_readLetters progress group).cases with
            ⟨halt, plain, toned⟩ | ⟨next, plain, toned⟩ | toned
          · rw [plain, toned]
            exact Or.inl rfl
          · rw [plain, toned]
            exact ih next
          · rw [toned]
            exact Or.inr rfl
      · rw [Progress.take?_toned]
        cases progress.take? argument with
        | some next => exact ih next
        | none =>
            dsimp only [Option.map_none]
            split <;> exact Or.inl rfl

/-! ## Whole command lines -/

theorem finish_toned (progress : Progress) (setting : Option Bytes) :
    finish (progress.toned tone) setting = (finish progress setting).map (Level.toned tone) := by
  have config (level : Level) : (level.toned tone).config = level.config := by cases tone <;> rfl
  rw [finish, finish, progress.settle_toned]
  cases progress.settle with
  | error halt => rfl
  | ok level =>
      dsimp only [Except.map]
      rw [config]
      split
      · next value _ => cases pathValue value <;> rfl
      · rfl

theorem combine_toned (outer inner : Level) (setting : Option Bytes) (command : Option Command) :
    combine (outer.toned tone) inner setting command =
      (combine outer inner setting command).toned tone := by
  cases tone <;> simp [combine, Level.toned, Arguments.toned]

theorem readCommand_toned (outer : Progress) (command : Level → Command) (rest : List Bytes)
    (setting : Option Bytes) :
    readCommand (outer.toned tone) scope command rest setting =
      (readCommand outer scope command rest setting).map (Arguments.toned tone) := by
  rw [readCommand, readCommand, finish_toned]
  cases readLevel scope .start rest with
  | error halt => rfl
  | ok part =>
      dsimp only
      cases finish part.progress setting with
      | error halt => rfl
      | ok inner =>
          cases finish outer setting with
          | error halt => rfl
          | ok level => exact congrArg Except.ok (combine_toned level inner setting _)

/-- The flag of a tone in front of a command line changes nothing but the tone, unless the
flag is given again before a command word. -/
theorem follows_read {argument : Bytes} (spelled : argument ∈ tone.spellings)
    (arguments : List Bytes) (setting : Option Bytes) :
    Follows (Arguments.toned tone) (read arguments setting)
      (read (argument :: arguments) setting) := by
  have begins : readLevel .program .start (argument :: arguments) =
      readLevel .program (Progress.start.toned tone) arguments := by
    cases tone <;> rcases List.mem_pair.mp spelled with rfl | rfl <;> rfl
  rw [read, read, begins]
  rcases (follows_readLevel Progress.start arguments).cases with
    ⟨halt, plain, toned⟩ | ⟨⟨outer, command⟩, plain, toned⟩ | toned
  · rw [plain, toned]
    exact Or.inl rfl
  · rw [plain, toned]
    left
    rcases command with _ | ⟨word, rest⟩
    · dsimp only [Part.toned]
      rw [finish_toned]
      cases finish outer setting with
      | error halt => rfl
      | ok level => exact congrArg Except.ok (combine_toned level .empty setting none)
    · cases word with
      | help => rfl
      | generate | list => exact readCommand_toned outer _ rest setting
  · rw [toned]
    exact Or.inr rfl

end CommandLine

end CacheManifest
