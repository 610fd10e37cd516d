/-
# What the levels of a command line hold

However the switches of a level are spelled, reading them gives them to the level one
after the other. The values of a repeatable parameter are collected in their order on
each level; behind a command word only the values there count, if there are any.
-/

import CacheManifest.Proofs.CommandLine.Spelling

namespace CacheManifest

namespace CommandLine

variable {scope : Scope} {progress next : Progress} {waiting : Option Parameter}
  {front tail : List Bytes} {items found : List Item} {part : Part}

/-- Give an item to a level. -/
def Level.take (level : Level) : Item → Except Halt Level
  | .flag flag => level.raise flag
  | .given parameter value => level.give parameter value

/-! ## Items that are given -/

namespace Progress

/-- The level so far, with the value that has been kept aside. -/
def reached (progress : Progress) : Except Halt Level :=
  match progress.aside with
  | some ⟨parameter, some value⟩ => progress.level.give parameter value
  | _ => .ok progress.level

theorem settle_eq_reached (idle : progress.waiting? = none) :
    progress.settle = progress.reached := by
  rcases progress with ⟨level, _ | ⟨parameter, _ | value⟩⟩
  · rfl
  · cases idle
  · rfl

/-- From one state of a level to a later one, these items are given. -/
def Gains (progress : Progress) (items : List Item) (next : Progress) : Prop :=
  next.reached = progress.reached >>= fun level => items.foldlM Level.take level

theorem Gains.refl (progress : Progress) : progress.Gains [] progress := by
  simp [Gains]

theorem Gains.trans {last : Progress} {others : List Item} (gains : progress.Gains items next)
    (more : next.Gains others last) : progress.Gains (items ++ others) last := by
  rw [Gains, more, gains]
  simp [List.foldlM_append]

theorem gains_of_take {level final : Level} {item : Item} (settled : progress.settle = .ok level)
    (taken : level.take item = .ok final) : progress.Gains [item] ⟨final, none⟩ := by
  rw [settle_eq_reached (waiting?_of_settle settled)] at settled
  rw [Gains, settled]
  show Except.ok final = [item].foldlM Level.take level
  simp [taken]

theorem gains_of_raise {flag : Flag} (raised : progress.raise flag = .ok next) :
    progress.Gains [.flag flag] next ∧ next.waiting? = none := by
  obtain ⟨level, final, settled, outcome, rfl⟩ := exists_of_raise raised
  exact ⟨gains_of_take settled outcome, rfl⟩

theorem gains_of_give {parameter : Parameter} {value : Bytes}
    (given : progress.give parameter value = .ok next) :
    progress.Gains [.given parameter value] next ∧ next.waiting? = none := by
  obtain ⟨level, final, settled, outcome, rfl⟩ := exists_of_give given
  exact ⟨gains_of_take settled outcome, rfl⟩

theorem gains_of_await {parameter : Parameter} (awaited : progress.await parameter = .ok next) :
    progress.Gains [] next ∧ next.waiting? = some parameter := by
  obtain ⟨level, settled, rfl⟩ := exists_of_await awaited
  rw [settle_eq_reached (waiting?_of_settle settled)] at settled
  refine ⟨?_, rfl⟩
  rw [Gains, settled]
  rfl

/-- A word is the value of the parameter that waits for one. -/
theorem take?_of_waiting {parameter : Parameter} (waits : progress.waiting? = some parameter)
    (value : Bytes) : ∃ next, progress.take? value = some next ∧
      progress.Gains [.given parameter value] next ∧ next.waiting? = none := by
  rcases progress with ⟨level, _ | ⟨other, _ | given⟩⟩
  · cases waits
  · cases waits
    refine ⟨_, rfl, ?_, rfl⟩
    show level.give parameter value = [Item.given parameter value].foldlM Level.take level
    simp [Level.take]
  · cases waits

theorem take?_of_idle (idle : progress.waiting? = none) (argument : Bytes) :
    progress.take? argument = none := by
  rcases progress with ⟨level, _ | ⟨other, _ | given⟩⟩
  · rfl
  · cases idle
  · rfl

end Progress

/-! ## One argument -/

theorem other_of_long? {name : Bytes} {switch : Switch} (known : scope.long? name = some switch) :
    ∀ byte ∈ name, decide (byte ≠ equals) = true := by
  intro byte inside
  rw [decide_eq_true_iff]
  rintro rfl
  exact (Scope.plain_of_long? known).1 inside

theorem readLong_flag {name : Bytes} {flag : Flag}
    (known : scope.long? name = some (.flag flag)) (progress : Progress) :
    readLong scope progress name = progress.raise flag := by
  have other := other_of_long? known
  rw [readLong, List.takeWhile_eq_self_iff.mpr other, List.dropWhile_eq_nil_iff.mpr other]
  simp [known]

theorem readLong_apart {name : Bytes} {parameter : Parameter}
    (known : scope.long? name = some (.parameter parameter)) (progress : Progress) :
    readLong scope progress name = progress.await parameter := by
  have other := other_of_long? known
  rw [readLong, List.takeWhile_eq_self_iff.mpr other, List.dropWhile_eq_nil_iff.mpr other]
  simp [known]

theorem readLong_equated {name : Bytes} {parameter : Parameter}
    (known : scope.long? name = some (.parameter parameter)) (progress : Progress)
    (value : Bytes) :
    readLong scope progress (name ++ equals :: value) = progress.give parameter value := by
  have other := other_of_long? known
  rw [readLong, List.takeWhile_append_of_pos other, List.dropWhile_append_of_pos other]
  simp [known]

theorem Group.shape {letters : Bytes} (group : Group scope letters found waiting)
    (some_letter : letters ≠ []) : Shape.ofArgument (dash :: letters) = .letters letters := by
  have unknown : scope.letter? dash = none := by cases scope <;> decide
  have letter_ne {letter : UInt8} {switch : Switch} (known : scope.letter? letter = some switch) :
      letter ≠ dash := by
    rintro rfl
    cases unknown.symm.trans known
  cases group with
  | done => exact absurd rfl some_letter
  | flag known | joined known | equated known | waiting known =>
      simp [Shape.ofArgument, letter_ne known]

/-- Letters give their items and leave the last parameter waiting. -/
theorem gains_of_group {letters : Bytes} (group : Group scope letters found waiting)
    (idle : progress.waiting? = none) (read : readLetters scope progress letters = .ok next) :
    progress.Gains found next ∧ next.waiting? = waiting := by
  induction group generalizing progress with
  | done =>
      cases read
      exact ⟨.refl _, idle⟩
  | flag known others ih =>
      rw [readLetters, known] at read
      dsimp only at read
      split at read
      · cases read
      · next raised outcome =>
          obtain ⟨gains, idle_again⟩ := Progress.gains_of_raise outcome
          obtain ⟨more, left⟩ := ih idle_again read
          exact ⟨gains.trans more, left⟩
  | joined known plain =>
      rw [readLetters, known] at read
      dsimp only at read
      rw [if_neg plain] at read
      exact Progress.gains_of_give read
  | equated known =>
      rw [readLetters, known] at read
      dsimp only at read
      rw [if_pos rfl] at read
      exact Progress.gains_of_give read
  | waiting known =>
      rw [readLetters, known] at read
      exact Progress.gains_of_await read

/-! ## One level -/

theorem exists_of_long {text : Bytes} {rest : List Bytes} (nonempty : text ≠ [])
    (read : readLevel scope progress ((dash :: dash :: text) :: rest) = .ok part) :
    ∃ next, readLong scope progress text = .ok next ∧ readLevel scope next rest = .ok part := by
  rw [readLevel.eq_def] at read
  simp only [Shape.ofArgument_long nonempty] at read
  split at read
  · cases read
  · next reached outcome => exact ⟨reached, outcome, read⟩

theorem exists_of_letters {letters : Bytes} {rest : List Bytes} (some_letter : letters ≠ [])
    (group : Group scope letters found waiting)
    (read : readLevel scope progress ((dash :: letters) :: rest) = .ok part) :
    ∃ next, readLetters scope progress letters = .ok next ∧
      readLevel scope next rest = .ok part := by
  rw [readLevel.eq_def] at read
  simp only [group.shape some_letter] at read
  split at read
  · cases read
  · next reached outcome => exact ⟨reached, outcome, read⟩

theorem readLevel_value {parameter : Parameter} {value : Bytes} {rest : List Bytes}
    (word : IsWord value) (waits : progress.waiting? = some parameter) :
    ∃ next, progress.Gains [.given parameter value] next ∧ next.waiting? = none ∧
      readLevel scope progress (value :: rest) = readLevel scope next rest := by
  obtain ⟨next, taken, gains, idle⟩ := Progress.take?_of_waiting waits value
  refine ⟨next, gains, idle, ?_⟩
  rw [readLevel.eq_def]
  simp only [Shape.ofArgument_of_isWord word, taken]

/-- Behind its switches a level ends with the line. -/
theorem readLevel_ending {ending : List Bytes} (ended : ending = [] ∨ ending = [dashes])
    (progress : Progress) : readLevel scope progress ending = .ok ⟨progress, none⟩ := by
  rcases ended with rfl | rfl <;> rfl

/-- The program's level ends with a command word. -/
theorem readLevel_command {argument : Bytes} {word : CommandWord} {rest : List Bytes}
    (spelled : CommandWord.ofBytes? argument = some word) (idle : progress.waiting? = none) :
    readLevel .program progress (argument :: rest) = .ok ⟨progress, some (word, rest)⟩ := by
  have shape : Shape.ofArgument argument = .word := by
    have same := List.find?_some spelled
    rw [beq_iff_eq] at same
    rw [← same]
    cases word <;> rfl
  rw [readLevel.eq_def]
  simp only [shape, Progress.take?_of_idle idle, Scope.command?, spelled]

/-- Reading the arguments of a level gives their items and goes on behind them. -/
theorem exists_gains_of_written (written : Written scope waiting front items)
    (state : progress.waiting? = waiting)
    (read : readLevel scope progress (front ++ tail) = .ok part) :
    ∃ next, progress.Gains items next ∧ next.waiting? = none ∧
      readLevel scope next tail = .ok part := by
  induction written generalizing progress with
  | done => exact ⟨progress, .refl _, state, read⟩
  | value word others ih =>
      obtain ⟨taken, gains, idle, goes_on⟩ := readLevel_value word state
      obtain ⟨next, more, left, rest⟩ := ih idle (goes_on.symm.trans read)
      exact ⟨next, gains.trans more, left, rest⟩
  | flag known others ih =>
      obtain ⟨-, nonempty⟩ := Scope.plain_of_long? known
      obtain ⟨raised, outcome, read⟩ := exists_of_long nonempty read
      rw [readLong_flag known] at outcome
      obtain ⟨gains, idle⟩ := Progress.gains_of_raise outcome
      obtain ⟨next, more, left, rest⟩ := ih idle read
      exact ⟨next, gains.trans more, left, rest⟩
  | equated known others ih =>
      obtain ⟨given, outcome, read⟩ := exists_of_long (by simp) read
      replace outcome := (readLong_equated known progress _).symm.trans outcome
      obtain ⟨gains, idle⟩ := Progress.gains_of_give outcome
      obtain ⟨next, more, left, rest⟩ := ih idle read
      exact ⟨next, gains.trans more, left, rest⟩
  | apart known others ih =>
      obtain ⟨-, nonempty⟩ := Scope.plain_of_long? known
      obtain ⟨awaiting, outcome, read⟩ := exists_of_long nonempty read
      rw [readLong_apart known] at outcome
      obtain ⟨gains, waits⟩ := Progress.gains_of_await outcome
      obtain ⟨next, more, left, rest⟩ := ih waits read
      exact ⟨next, gains.trans more, left, rest⟩
  | letters some_letter group others ih =>
      obtain ⟨lettered, outcome, read⟩ := exists_of_letters some_letter group read
      obtain ⟨gains, waits⟩ := gains_of_group group state outcome
      obtain ⟨next, more, left, rest⟩ := ih waits read
      exact ⟨next, gains.trans more, left, rest⟩

/-! ## The values that are collected -/

/-- For the repeatable parameters a level has the values of these items. -/
structure Level.Holds (level : Level) (items : List Item) : Prop where
  dirs : level.dirs = (values .dir items).map Path.mk
  excludes : level.excludes.map some = (values .exclude items).map Utf8.decode?
  ignoreDirs : level.ignoreDirs.map some = (values .ignoreDir items).map Utf8.decode?

theorem Level.holds_empty : Level.empty.Holds [] := ⟨rfl, rfl, rfl⟩

theorem values_concat (parameter : Parameter) (items : List Item) (item : Item) :
    values parameter (items ++ [item]) =
      values parameter items ++ (item.valueOf? parameter).toList := by
  cases shape : item.valueOf? parameter <;> simp [values, shape]

theorem textValue_eq_ok {value : Bytes} {text : String} (judged : textValue value = .ok text) :
    Utf8.decode? value = some text := by
  rw [textValue] at judged
  cases decoded : Utf8.decode? value with
  | none => rw [decoded] at judged; cases judged
  | some other => rw [decoded] at judged; cases judged; rfl

theorem pathValue_eq_ok {value : Bytes} {path : Path} (judged : pathValue value = .ok path) :
    path = ⟨value⟩ := by
  rw [pathValue] at judged
  split_ifs at judged
  · cases judged
  · cases judged
    rfl

namespace Level.Holds

variable {level final : Level} {before : List Item}

theorem give {parameter : Parameter} {value : Bytes} (holds : level.Holds before)
    (given : level.give parameter value = .ok final) :
    final.Holds (before ++ [.given parameter value]) := by
  obtain ⟨dirs, excludes, ignoreDirs⟩ := holds
  cases parameter with
  | root | config | output | format =>
      obtain ⟨_, -, rfl⟩ := map_eq_ok_iff.mp given
      constructor <;> simpa [values_concat, Item.valueOf?]
  | dir =>
      obtain ⟨path, judged, rfl⟩ := map_eq_ok_iff.mp given
      constructor <;> simp [values_concat, Item.valueOf?, pathValue_eq_ok judged, *]
  | exclude | ignoreDir =>
      obtain ⟨text, judged, rfl⟩ := map_eq_ok_iff.mp given
      constructor <;> simp [values_concat, Item.valueOf?, textValue_eq_ok judged, *]

theorem raise {flag : Flag} (holds : level.Holds before) (raised : level.raise flag = .ok final) :
    final.Holds (before ++ [.flag flag]) := by
  obtain ⟨dirs, excludes, ignoreDirs⟩ := holds
  cases flag with
  | quiet | verbose | stdout =>
      rw [Level.raise] at raised
      split_ifs at raised
      · cases raised
      · cases raised
        constructor <;> simpa [values_concat, Item.valueOf?]
  | help | version => cases raised

/-- Items that are given to a level are held by it from then on. -/
theorem foldlM_take {items : List Item} (holds : level.Holds before)
    (taken : items.foldlM Level.take level = .ok final) : final.Holds (before ++ items) := by
  induction items generalizing level before with
  | nil =>
      cases taken
      rwa [List.append_nil]
  | cons item others ih =>
      rw [List.foldlM_cons] at taken
      obtain ⟨next, first, rest⟩ := bind_eq_ok_iff.mp taken
      have held : next.Holds (before ++ [item]) := by
        cases item with
        | flag flag => exact holds.raise first
        | given parameter value => exact holds.give first
      have all := ih held rest
      rwa [List.append_assoc] at all

end Level.Holds

/-- Behind the arguments of a level it holds their items. -/
theorem exists_holds_of_written (written : Written scope none front items)
    (read : readLevel scope .start (front ++ tail) = .ok part) :
    ∃ next, readLevel scope next tail = .ok part ∧ next.waiting? = none ∧
      ∀ level, next.settle = .ok level → level.Holds items := by
  obtain ⟨next, gains, idle, rest⟩ := exists_gains_of_written written rfl read
  refine ⟨next, rest, idle, fun level settled => ?_⟩
  rw [Progress.settle_eq_reached idle, gains] at settled
  exact Level.holds_empty.foldlM_take settled

/-! ## Both levels together -/

/-- For each repeatable parameter the values behind the command word prevail. -/
structure Prevail (asked : Arguments) (before after : List Item) : Prop where
  dirs : asked.dirs = (prevailing (values .dir after) (values .dir before)).map Path.mk
  excludes : asked.excludes.map some =
    (prevailing (values .exclude after) (values .exclude before)).map Utf8.decode?
  ignoreDirs : asked.ignoreDirs.map some =
    (prevailing (values .ignoreDir after) (values .ignoreDir before)).map Utf8.decode?

theorem map_prevailing {α β : Type} (convert : α → β) (inner outer : List α) :
    (prevailing inner outer).map convert =
      prevailing (inner.map convert) (outer.map convert) := by
  cases inner <;> rfl

theorem prevail_combine {outer inner : Level} {before after : List Item}
    (holds : outer.Holds before) (holds_back : inner.Holds after) (setting : Option Bytes)
    (command : Option Command) : Prevail (combine outer inner setting command) before after where
  dirs := by rw [map_prevailing, ← holds.dirs, ← holds_back.dirs]; rfl
  excludes := by
    rw [map_prevailing, ← holds.excludes, ← holds_back.excludes, ← map_prevailing]
    rfl
  ignoreDirs := by
    rw [map_prevailing, ← holds.ignoreDirs, ← holds_back.ignoreDirs, ← map_prevailing]
    rfl

/-- However an accepted command line is taken to be spelled, it asks for the values in this
spelling. -/
theorem prevail_of_spelled {arguments : List Bytes} {setting : Option Bytes} {asked : Arguments}
    {before after : List Item} (accepted : read arguments setting = .ok asked)
    (spelled : Spelled arguments before after) : Prevail asked before after := by
  cases readAs_of_read accepted with
  | program outcome settled =>
      cases spelled with
      | plain written ended =>
          obtain ⟨next, rest, -, holds⟩ := exists_holds_of_written written outcome
          cases (readLevel_ending ended next).symm.trans rest
          exact prevail_combine (holds _ settled) Level.holds_empty setting none
      | command written named =>
          obtain ⟨next, rest, idle, -⟩ := exists_holds_of_written written outcome
          cases (readLevel_command named idle).symm.trans rest
  | command outcome settled opens outcome_back settled_back =>
      cases spelled with
      | plain written ended =>
          obtain ⟨next, rest, -, -⟩ := exists_holds_of_written written outcome
          cases (readLevel_ending ended next).symm.trans rest
      | command written named opens_again written_back ended =>
          obtain ⟨next, rest, idle, holds⟩ := exists_holds_of_written written outcome
          cases (readLevel_command named idle).symm.trans rest
          cases opens.symm.trans opens_again
          obtain ⟨last, rest_back, -, holds_back⟩ :=
            exists_holds_of_written written_back outcome_back
          cases (readLevel_ending ended last).symm.trans rest_back
          exact prevail_combine (holds _ settled) (holds_back _ settled_back) setting _

end CommandLine

end CacheManifest
