/-
# Lines of the log

The log shows each event and a line end behind it. Paths stand in a line as they are, so a
path with a line feed makes several lines of one event. Nothing else does: the settings are
shown in quotes, where a line feed is written as two other characters. Cut at its line feeds
the log gives one line for each event that is shown, exactly if none of the paths has one.
-/

import CacheManifest.Log
import CacheManifest.Proofs.Path.Readings

namespace CacheManifest

open Pieces (terminated)
open Utf8 (lineFeed)

/-! ## Text in quotes -/

namespace Quoted

theorem hexDigit_ne_newline {value : Nat} (small : value < 16) :
    hexDigit value ≠ '\n' ∧ (hexDigit value).toUpper ≠ '\n' := by
  revert value
  decide

theorem newline_not_mem_hexadecimal (places value : Nat) :
    '\n' ∉ hexadecimal places value := by
  induction places generalizing value with
  | zero => exact List.not_mem_nil
  | succ places ih =>
      rw [hexadecimal]
      split
      next small => simpa using (hexDigit_ne_newline small).1.symm
      next _ =>
          have last := (hexDigit_ne_newline (Nat.mod_lt value (by decide : 0 < 16))).1
          simpa [ih] using last.symm

theorem newline_not_mem_character (c : Char) : '\n' ∉ character c := by
  rw [character]
  split_ifs with zero tab back feed plain hidden
  · decide
  · decide
  · decide
  · decide
  · simp [Ne.symm feed]
  · simp [byNumber, newline_not_mem_hexadecimal]
  · simp [Ne.symm feed]

theorem newline_not_mem_piece (piece : Utf8.Piece) : '\n' ∉ Quoted.piece piece := by
  cases piece with
  | char c =>
      rw [Quoted.piece]
      split
      next quote => simp [quote]
      next _ => exact newline_not_mem_character c
  | broken bytes =>
      rw [Quoted.piece, List.mem_flatMap]
      rintro ⟨value, -, inside⟩
      have high := (hexDigit_ne_newline (show value.toNat / 16 < 16 by
        have := value.toNat_lt
        omega)).2
      have low := (hexDigit_ne_newline (Nat.mod_lt value.toNat (by decide : 0 < 16))).2
      simp [byte, high.symm, low.symm] at inside

theorem newline_not_mem_text (content : String) : '\n' ∉ (text content).toList := by
  simp [text, newline_not_mem_character]

theorem newline_not_mem_path (path : Path) : '\n' ∉ (Quoted.path path).toList := by
  simp [Quoted.path, newline_not_mem_piece]

theorem newline_not_mem_list {quoted : List String} (each : ∀ one ∈ quoted, '\n' ∉ one.toList) :
    '\n' ∉ (list quoted).toList := by
  have between : '\n' ∉ (", ".intercalate quoted).toList := by
    induction quoted with
    | nil => simp
    | cons first others ih =>
        obtain ⟨here, rest⟩ := List.forall_mem_cons.mp each
        cases others with
        | nil => simpa using here
        | cons second more =>
            rw [String.intercalate_cons_cons]
            simpa [here] using ih rest
  simpa [list] using between

end Quoted

/-! ## Events on one line -/

namespace Log

/-- The settings are shown on one line, whatever they are. -/
theorem newline_not_mem_quotedConfig (config : Config) :
    '\n' ∉ (quotedConfig config).toList := by
  have texts (values : List String) :
      '\n' ∉ (Quoted.list (values.map Quoted.text)).toList :=
    Quoted.newline_not_mem_list
      (List.forall_mem_map.mpr fun text _ => Quoted.newline_not_mem_text text)
  have paths : '\n' ∉ (Quoted.list (config.sourceDirs.map Quoted.path)).toList :=
    Quoted.newline_not_mem_list
      (List.forall_mem_map.mpr fun path _ => Quoted.newline_not_mem_path path)
  have output := Quoted.newline_not_mem_path config.output
  unfold quotedConfig
  generalize Quoted.path config.output = shown at output
  simp [texts, paths, output]

namespace Event

/-- The line of an event without its line end. -/
def shown (event : Event) : String := event.level.tag ++ " " ++ event.text

/-- The path that an event shows as it is has no line feed. -/
def SingleLined : Event → Prop
  | .resolved root _ => lineFeed ∉ root.bytes
  | .ignored directory => lineFeed ∉ directory.bytes
  | .excluded file => lineFeed ∉ file.bytes
  | .collected directory _ => lineFeed ∉ directory.bytes
  | .wrote output _ => lineFeed ∉ output.bytes

theorem shown_resolved (root : Path) (config : Config) :
    (resolved root config).shown =
      "DEBUG resolved configuration root=" ++ root.display ++ " config=" ++ quotedConfig config := by
  show "DEBUG" ++ " " ++ ("resolved configuration root=" ++ root.display ++ " config=" ++
    quotedConfig config) = _
  simp only [← String.append_assoc]
  rfl

theorem shown_ignored (directory : Path) :
    (ignored directory).shown = "DEBUG skipping ignored directory path=" ++ directory.display := by
  show "DEBUG" ++ " " ++ ("skipping ignored directory path=" ++ directory.display) = _
  simp only [← String.append_assoc]
  rfl

theorem shown_excluded (file : Path) :
    (excluded file).shown = "DEBUG excluded by extension path=" ++ file.display := by
  show "DEBUG" ++ " " ++ ("excluded by extension path=" ++ file.display) = _
  simp only [← String.append_assoc]
  rfl

theorem shown_collected (directory : Path) (count : Nat) :
    (collected directory count).shown =
      "DEBUG collected entries dir=" ++ directory.display ++ " count=" ++ toString count := by
  show "DEBUG" ++ " " ++ ("collected entries dir=" ++ directory.display ++ " count=" ++
    toString count) = _
  simp only [← String.append_assoc]
  rfl

theorem shown_wrote (output : Path) (entries : Nat) :
    (wrote output entries).shown =
      " INFO wrote manifest output=" ++ output.display ++ " entries=" ++ toString entries := by
  show " INFO" ++ " " ++ ("wrote manifest output=" ++ output.display ++ " entries=" ++
    toString entries) = _
  simp only [← String.append_assoc]
  rfl

theorem newline_not_mem_toString (count : Nat) : '\n' ∉ (toString count).toList := by
  rw [Nat.toString_eq_ofList_toDigits, String.toList_ofList]
  intro inside
  exact absurd (Nat.isDigit_of_mem_toDigits (by decide) (by decide) inside) (by decide)

/-- An event is shown on one line exactly if its path is. -/
theorem newline_not_mem_shown_iff (event : Event) :
    '\n' ∉ event.shown.toList ↔ event.SingleLined := by
  cases event with
  | resolved root config =>
      have settings := newline_not_mem_quotedConfig config
      rw [shown_resolved, SingleLined, ← Path.newline_mem_display]
      generalize quotedConfig config = quoted at settings
      generalize root.display = path
      simp [settings]
  | ignored path =>
      rw [shown_ignored, SingleLined, ← Path.newline_mem_display]
      generalize path.display = path
      simp
  | excluded path =>
      rw [shown_excluded, SingleLined, ← Path.newline_mem_display]
      generalize path.display = path
      simp
  | collected path count =>
      have digits := newline_not_mem_toString count
      rw [shown_collected, SingleLined, ← Path.newline_mem_display]
      generalize toString count = number at digits
      generalize path.display = path
      simp [digits]
  | wrote path count =>
      have digits := newline_not_mem_toString count
      rw [shown_wrote, SingleLined, ← Path.newline_mem_display]
      generalize toString count = number at digits
      generalize path.display = path
      simp [digits]

end Event

/-- The log is its events, each with a line end behind it. -/
theorem toList_lines (level : Level) (events : List Event) :
    (lines level events).toList =
      terminated '\n' ((events.filter level.shows).map fun event => event.shown.toList) := by
  rw [lines, String.toList_join, terminated, List.flatMap_map, List.flatMap_map]
  apply List.flatMap_congr
  intro event _
  rw [Event.line, String.toList_append]
  rfl

/-- Cut at its line feeds, the log gives one line for each event that is shown exactly if
each of them is shown on one line. -/
theorem splitOn_lines_iff (level : Level) (events : List Event) :
    (lines level events).toList.splitOn '\n' =
        (events.filter level.shows).map (fun event => event.shown.toList) ++ [[]] ↔
      ∀ event ∈ events.filter level.shows, event.SingleLined := by
  rw [toList_lines, Pieces.splitOn_terminated_iff, List.forall_mem_map]
  simp only [Event.newline_not_mem_shown_iff]

/-- The most talkative level but one shows every event. -/
theorem filter_shows_debug (events : List Event) : events.filter Level.debug.shows = events := by
  rw [List.filter_eq_self]
  intro event _
  cases event <;> rfl

end Log

end CacheManifest
