/-
# How a command line is written

The switches of a command line in the order in which they stand, in all their spellings.
A long name has its value behind an equals sign or in the next argument. Letters share a
dash; the first parameter among them has its value behind it, with an equals sign or
without, or in the next argument. Switches stand in front of a command word or behind
it, and two dashes may end the line.

Every command line that is accepted is written in this way.
-/

import CacheManifest.CommandLine.Reading
import CacheManifest.Proofs.Results

namespace CacheManifest

namespace CommandLine

/-- A switch as it is given: a flag, or a parameter with its value. -/
inductive Item where
  | flag (flag : Flag)
  | given (parameter : Parameter) (value : Bytes)
deriving DecidableEq, Repr

/-- The value that an item gives to a parameter. -/
def Item.valueOf? (parameter : Parameter) : Item → Option Bytes
  | .given named value => if named = parameter then some value else none
  | .flag _ => none

/-- The values that items give to a parameter, in their order. -/
def values (parameter : Parameter) (items : List Item) : List Bytes :=
  items.filterMap (Item.valueOf? parameter)

/-- An argument that can be a value on its own: it does not begin with a dash, unless it is
nothing else. -/
def IsWord (argument : Bytes) : Prop := argument.head? = some dash → argument = [dash]

instance (argument : Bytes) : Decidable (IsWord argument) :=
  inferInstanceAs (Decidable (argument.head? = some dash → argument = [dash]))

/-- Letters that share a dash, the items they give, and the parameter that is left without
a value. -/
inductive Group (scope : Scope) : Bytes → List Item → Option Parameter → Prop
  | done : Group scope [] [] none
  | flag {letter : UInt8} {flag : Flag} {letters : Bytes} {items : List Item}
      {waiting : Option Parameter} (known : scope.letter? letter = some (.flag flag))
      (others : Group scope letters items waiting) :
      Group scope (letter :: letters) (.flag flag :: items) waiting
  | joined {letter first : UInt8} {parameter : Parameter} {value : Bytes}
      (known : scope.letter? letter = some (.parameter parameter)) (plain : first ≠ equals) :
      Group scope (letter :: first :: value) [.given parameter (first :: value)] none
  | equated {letter : UInt8} {parameter : Parameter} {value : Bytes}
      (known : scope.letter? letter = some (.parameter parameter)) :
      Group scope (letter :: equals :: value) [.given parameter value] none
  | waiting {letter : UInt8} {parameter : Parameter}
      (known : scope.letter? letter = some (.parameter parameter)) :
      Group scope [letter] [] (some parameter)

/-- The arguments of a level and the items they give. A parameter that has been named
without a value may wait for one, which the first argument is. -/
inductive Written (scope : Scope) : Option Parameter → List Bytes → List Item → Prop
  | done : Written scope none [] []
  | value {parameter : Parameter} {value : Bytes} {rest : List Bytes} {items : List Item}
      (word : IsWord value) (others : Written scope none rest items) :
      Written scope (some parameter) (value :: rest) (.given parameter value :: items)
  | flag {name : Bytes} {flag : Flag} {rest : List Bytes} {items : List Item}
      (known : scope.long? name = some (.flag flag)) (others : Written scope none rest items) :
      Written scope none ((dash :: dash :: name) :: rest) (.flag flag :: items)
  | equated {name value : Bytes} {parameter : Parameter} {rest : List Bytes} {items : List Item}
      (known : scope.long? name = some (.parameter parameter))
      (others : Written scope none rest items) :
      Written scope none ((dash :: dash :: name ++ equals :: value) :: rest)
        (.given parameter value :: items)
  | apart {name : Bytes} {parameter : Parameter} {rest : List Bytes} {items : List Item}
      (known : scope.long? name = some (.parameter parameter))
      (others : Written scope (some parameter) rest items) :
      Written scope none ((dash :: dash :: name) :: rest) items
  | letters {letters : Bytes} {found items : List Item} {waiting : Option Parameter}
      {rest : List Bytes} (some_letter : letters ≠ []) (group : Group scope letters found waiting)
      (others : Written scope waiting rest items) :
      Written scope none ((dash :: letters) :: rest) (found ++ items)

/-- The argument after which no switches come. -/
def dashes : Bytes := [dash, dash]

/-- The scope that a command word opens. -/
def CommandWord.scope? : CommandWord → Option Scope
  | .generate => some .generate
  | .list => some .list
  | .help => none

/-- A command line, the items in front of its command word, and the items behind it. -/
inductive Spelled : List Bytes → List Item → List Item → Prop
  | plain {front ending : List Bytes} {before : List Item}
      (written : Written .program none front before)
      (ended : ending = [] ∨ ending = [dashes]) : Spelled (front ++ ending) before []
  | command {front back ending : List Bytes} {argument : Bytes} {word : CommandWord}
      {scope : Scope} {before after : List Item} (written : Written .program none front before)
      (spelled : CommandWord.ofBytes? argument = some word) (opens : word.scope? = some scope)
      (written_back : Written scope none back after)
      (ended : ending = [] ∨ ending = [dashes]) :
      Spelled (front ++ argument :: (back ++ ending)) before after

/-! ## The parts of an argument -/

theorem Switch.long_plain (switch : Switch) :
    equals ∉ Utf8.encode switch.long ∧ Utf8.encode switch.long ≠ [] := by
  cases switch with
  | flag which => cases which <;> decide
  | parameter which => cases which <;> decide

theorem Scope.plain_of_long? {scope : Scope} {name : Bytes} {switch : Switch}
    (known : scope.long? name = some switch) : equals ∉ name ∧ name ≠ [] := by
  have spelled := List.find?_some known
  rw [beq_iff_eq] at spelled
  rw [← spelled]
  exact switch.long_plain

theorem Shape.ofArgument_long {text : Bytes} (nonempty : text ≠ []) :
    Shape.ofArgument (dash :: dash :: text) = .long text := by
  simp [Shape.ofArgument, nonempty]

theorem Shape.argument_eq (argument : Bytes) :
    match Shape.ofArgument argument with
    | .separator => argument = dashes
    | .long text => argument = dash :: dash :: text
    | .letters group => argument = dash :: group ∧ group ≠ []
    | .word => IsWord argument := by
  match argument with
  | [] => nofun
  | [first] => simp [Shape.ofArgument, IsWord]
  | first :: second :: rest =>
      rw [Shape.ofArgument]
      split_ifs with other letters ended
      · simp [IsWord, other]
      · simp_all
      · simp_all [dashes]
      · simp_all

theorem Shape.ofArgument_of_isWord {argument : Bytes} (word : IsWord argument) :
    Shape.ofArgument argument = .word := by
  match argument with
  | [] => rfl
  | [first] => rfl
  | first :: second :: rest =>
      have other : first ≠ dash := fun same => by simpa using word (congrArg some same)
      rw [Shape.ofArgument, if_pos other]

/-! ## Every accepted command line is spelled -/

namespace Progress

variable {progress next : Progress}

/-- The parameter that waits for its value. -/
def waiting? (progress : Progress) : Option Parameter :=
  match progress.aside with
  | some ⟨parameter, none⟩ => some parameter
  | _ => none

theorem waiting?_of_settle {level : Level} (settled : progress.settle = .ok level) :
    progress.waiting? = none := by
  rcases progress with ⟨before, _ | ⟨parameter, _ | value⟩⟩
  · rfl
  · cases settled
  · rfl

/-- What is given with a known switch finds nothing waiting, and leaves nothing aside. -/
theorem exists_of_act {act : Level → Except Halt Level}
    (acted : (progress.settle >>= fun level => act level >>= fun final =>
      pure (Progress.mk final none)) = .ok next) :
    ∃ level final, progress.settle = .ok level ∧ act level = .ok final ∧
      next = ⟨final, none⟩ := by
  obtain ⟨level, settled, rest⟩ := bind_eq_ok_iff.mp acted
  obtain ⟨final, outcome, shape⟩ := bind_eq_ok_iff.mp rest
  cases shape
  exact ⟨level, final, settled, outcome, rfl⟩

theorem exists_of_raise {flag : Flag} (raised : progress.raise flag = .ok next) :
    ∃ level final, progress.settle = .ok level ∧ level.raise flag = .ok final ∧
      next = ⟨final, none⟩ :=
  exists_of_act raised

theorem exists_of_give {parameter : Parameter} {value : Bytes}
    (given : progress.give parameter value = .ok next) :
    ∃ level final, progress.settle = .ok level ∧ level.give parameter value = .ok final ∧
      next = ⟨final, none⟩ :=
  exists_of_act given

theorem exists_of_await {parameter : Parameter} (awaited : progress.await parameter = .ok next) :
    ∃ level, progress.settle = .ok level ∧ next = ⟨level, some ⟨parameter, none⟩⟩ := by
  obtain ⟨level, settled, shape⟩ := bind_eq_ok_iff.mp awaited
  cases shape
  exact ⟨level, settled, rfl⟩

/-- An argument is taken as a value exactly if a parameter waits for one. -/
theorem exists_of_take? {argument : Bytes} (taken : progress.take? argument = some next) :
    ∃ parameter, progress.aside = some ⟨parameter, none⟩ ∧
      next = ⟨progress.level, some ⟨parameter, some argument⟩⟩ := by
  rcases progress with ⟨level, _ | ⟨parameter, _ | value⟩⟩
  · cases taken
  · cases taken
    exact ⟨parameter, rfl, rfl⟩
  · cases taken

end Progress

/-- What a long switch in a level under way is. -/
theorem exists_written_of_readLong {scope : Scope} {progress next : Progress} {text : Bytes}
    {rest : List Bytes} {items : List Item} (read : readLong scope progress text = .ok next)
    (others : Written scope next.waiting? rest items) :
    progress.waiting? = none ∧
      ∃ found, Written scope none ((dash :: dash :: text) :: rest) found := by
  have whole := List.takeWhile_append_dropWhile (p := fun byte => byte ≠ equals) (l := text)
  rw [readLong] at read
  split at read
  · cases read
  · next flag known ended =>
      obtain ⟨level, final, settled, -, rfl⟩ := Progress.exists_of_raise read
      rw [ended, List.append_nil] at whole
      rw [whole] at known
      exact ⟨Progress.waiting?_of_settle settled, _, .flag known others⟩
  · cases read
  · next parameter known ended =>
      obtain ⟨level, settled, rfl⟩ := Progress.exists_of_await read
      rw [ended, List.append_nil] at whole
      rw [whole] at known
      exact ⟨Progress.waiting?_of_settle settled, _, .apart known others⟩
  · next parameter first value known ended =>
      obtain ⟨level, final, settled, -, rfl⟩ := Progress.exists_of_give read
      have sign : first = equals := by
        have stops := List.head?_dropWhile_not (fun byte => decide (byte ≠ equals)) text
        rw [ended] at stops
        simpa using stops
      rw [ended, sign] at whole
      rw [← whole]
      exact ⟨Progress.waiting?_of_settle settled, _, .equated known others⟩

theorem exists_group_of_readLetters {scope : Scope} {progress next : Progress} {letters : Bytes}
    (some_letter : letters ≠ []) (read : readLetters scope progress letters = .ok next) :
    progress.waiting? = none ∧ ∃ found, Group scope letters found next.waiting? := by
  induction letters generalizing progress with
  | nil => exact absurd rfl some_letter
  | cons letter rest ih =>
      rw [readLetters] at read
      split at read
      · cases read
      · next flag known =>
          split at read
          · cases read
          · next raised outcome =>
              obtain ⟨level, final, settled, -, rfl⟩ := Progress.exists_of_raise outcome
              refine ⟨Progress.waiting?_of_settle settled, ?_⟩
              by_cases ended : rest = []
              · subst ended
                cases read
                exact ⟨_, .flag known .done⟩
              · obtain ⟨-, found, group⟩ := ih ended read
                exact ⟨_, .flag known group⟩
      · next parameter known =>
          split at read
          · obtain ⟨level, settled, rfl⟩ := Progress.exists_of_await read
            exact ⟨Progress.waiting?_of_settle settled, _, .waiting known⟩
          · next first value =>
              obtain ⟨level, final, settled, -, rfl⟩ := Progress.exists_of_give read
              refine ⟨Progress.waiting?_of_settle settled, ?_⟩
              by_cases sign : first = equals
              · subst sign
                exact ⟨_, .equated known⟩
              · exact ⟨_, .joined known sign⟩

/-- How a level ends: with the line, or with a command word. -/
inductive Part.Ends (scope : Scope) (part : Part) : List Bytes → Prop
  | line {ending : List Bytes} (no_command : part.command = none)
      (ended : ending = [] ∨ ending = [dashes]) : Ends scope part ending
  | command {argument : Bytes} {word : CommandWord} {rest : List Bytes}
      (known : scope.command? argument = some word) (command : part.command = some (word, rest)) :
      Ends scope part (argument :: rest)

/-- The arguments of a level that can be settled are switches up to its end. -/
theorem exists_written {scope : Scope} {progress : Progress} {arguments : List Bytes} {part : Part}
    {level : Level} (read : readLevel scope progress arguments = .ok part)
    (settled : part.progress.settle = .ok level) :
    ∃ front tail items, arguments = front ++ tail ∧
      Written scope progress.waiting? front items ∧ part.Ends scope tail := by
  -- The cases are those of the reader. Where it stops, nothing waits for a value, as what
  -- is left waiting cannot be settled.
  fun_induction readLevel scope progress arguments with
  | case1 progress =>
      cases read
      rw [Progress.waiting?_of_settle settled]
      exact ⟨[], [], [], rfl, .done, .line rfl (Or.inl rfl)⟩
  | case2 progress argument separates =>
      have spelled := Shape.argument_eq argument
      rw [separates] at spelled
      cases read
      rw [Progress.waiting?_of_settle settled]
      exact ⟨[], [argument], [], rfl, .done, .line rfl (Or.inr (congrArg ([·]) spelled))⟩
  | case3 | case4 | case6 | case10 => cases read
  | case5 progress argument rest text long next outcome ih =>
      have spelled := Shape.argument_eq argument
      rw [long] at spelled
      obtain ⟨front, tail, items, rfl, written, ends⟩ := ih read
      obtain ⟨idle, found, written⟩ := exists_written_of_readLong outcome written
      rw [idle, spelled]
      exact ⟨_ :: front, tail, found, rfl, written, ends⟩
  | case7 progress argument rest group letters next outcome ih =>
      have spelled := Shape.argument_eq argument
      rw [letters] at spelled
      obtain ⟨rfl, some_letter⟩ := spelled
      obtain ⟨front, tail, items, rfl, written, ends⟩ := ih read
      obtain ⟨idle, found, grouped⟩ := exists_group_of_readLetters some_letter outcome
      rw [idle]
      exact ⟨_ :: front, tail, _, rfl, .letters some_letter grouped written, ends⟩
  | case8 progress argument rest word next taken ih =>
      have spelled := Shape.argument_eq argument
      rw [word] at spelled
      obtain ⟨front, tail, items, rfl, written, ends⟩ := ih read
      obtain ⟨parameter, waits, rfl⟩ := Progress.exists_of_take? taken
      rw [Progress.waiting?, waits]
      exact ⟨argument :: front, tail, _, rfl, .value spelled written, ends⟩
  | case9 progress argument rest word not_taken command known =>
      cases read
      rw [Progress.waiting?_of_settle settled]
      exact ⟨[], argument :: rest, [], rfl, .done, .command known rfl⟩

theorem settle_of_finish {progress : Progress} {setting : Option Bytes} {level : Level}
    (finished : finish progress setting = .ok level) : progress.settle = .ok level := by
  rw [finish] at finished
  cases settled : progress.settle with
  | error halt => rw [settled] at finished; cases finished
  | ok reached =>
      rw [settled] at finished
      dsimp only at finished
      split at finished
      · obtain ⟨path, -, same⟩ := map_eq_ok_iff.mp finished
        exact congrArg Except.ok same
      · exact finished

/-- The levels of a command line, and what they ask for together. -/
inductive ReadAs (arguments : List Bytes) (setting : Option Bytes) : Arguments → Prop
  | program {progress : Progress} {level : Level}
      (read : readLevel .program .start arguments = .ok ⟨progress, none⟩)
      (settled : progress.settle = .ok level) :
      ReadAs arguments setting (combine level .empty setting none)
  | command {progress : Progress} {outer inner : Level} {word : CommandWord} {rest : List Bytes}
      {scope : Scope} {part : Part} {command : Command}
      (read : readLevel .program .start arguments = .ok ⟨progress, some (word, rest)⟩)
      (settled : progress.settle = .ok outer) (opens : word.scope? = some scope)
      (read_back : readLevel scope .start rest = .ok part)
      (settled_back : part.progress.settle = .ok inner) :
      ReadAs arguments setting (combine outer inner setting (some command))

theorem levels_of_readCommand {outer : Progress} {scope : Scope} {command : Level → Command}
    {rest : List Bytes} {setting : Option Bytes} {asked : Arguments}
    (read : readCommand outer scope command rest setting = .ok asked) :
    ∃ part inner level, readLevel scope .start rest = .ok part ∧
      part.progress.settle = .ok inner ∧ outer.settle = .ok level ∧
      asked = combine level inner setting (some (command inner)) := by
  rw [readCommand] at read
  split at read
  · cases read
  · next part outcome =>
      split at read
      · cases read
      · next inner finished_back =>
          split at read
          · cases read
          · next level finished =>
              cases read
              exact ⟨part, inner, level, outcome, settle_of_finish finished_back,
                settle_of_finish finished, rfl⟩

theorem readAs_of_read {arguments : List Bytes} {setting : Option Bytes} {asked : Arguments}
    (accepted : read arguments setting = .ok asked) : ReadAs arguments setting asked := by
  rw [read] at accepted
  split at accepted
  · cases accepted
  · next progress outcome =>
      split at accepted
      · cases accepted
      · next level finished =>
          cases accepted
          exact .program outcome (settle_of_finish finished)
  · cases accepted
  · next progress rest outcome =>
      obtain ⟨part, inner, level, back, settled_back, settled, rfl⟩ :=
        levels_of_readCommand accepted
      exact .command outcome settled rfl back settled_back
  · next progress rest outcome =>
      obtain ⟨part, inner, level, back, settled_back, settled, rfl⟩ :=
        levels_of_readCommand accepted
      exact .command outcome settled rfl back settled_back

/-- No command word is known behind one. -/
theorem CommandWord.command?_of_scope? {word : CommandWord} {scope : Scope}
    (opens : word.scope? = some scope) (argument : Bytes) : scope.command? argument = none := by
  cases word with
  | generate | list => cases opens; rfl
  | help => cases opens

/-- Every command line that is accepted is spelled. -/
theorem exists_spelled {arguments : List Bytes} {setting : Option Bytes} {asked : Arguments}
    (accepted : read arguments setting = .ok asked) :
    ∃ before after, Spelled arguments before after := by
  cases readAs_of_read accepted with
  | program outcome settled =>
      obtain ⟨front, tail, before, rfl, written, ends⟩ := exists_written outcome settled
      cases ends with
      | line _ ended => exact ⟨before, [], .plain written ended⟩
      | command known command => cases command
  | command outcome settled opens outcome_back settled_back =>
      obtain ⟨front, tail, before, rfl, written, ends⟩ := exists_written outcome settled
      cases ends with
      | line no_command => cases no_command
      | command known command =>
          cases command
          obtain ⟨back, ending, after, rfl, written_back, ends_back⟩ :=
            exists_written outcome_back settled_back
          cases ends_back with
          | line _ ended => exact ⟨before, after, .command written known opens written_back ended⟩
          | command known_back =>
              rw [CommandWord.command?_of_scope? opens] at known_back
              cases known_back

end CommandLine

end CacheManifest
