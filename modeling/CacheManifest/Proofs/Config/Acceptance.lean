/-
# The texts that are read as a configuration

The reader of configurations accepts the JSON texts of the values that give one, and reads
the configuration that they give. Each of its parts is exact: what it reads is in the
grammar, and what is in the grammar it reads, whatever follows.

The settings of an object are read one after the other, and so are those of a list. In both
cases the settings read so far are kept, and the next one is none of them.
-/

import CacheManifest.Proofs.Config.Settings

namespace CacheManifest

namespace Config

open Json (Blank Document Lead Parts Spells SpellsField SpellsString blank_nil parts_map_iff
  skipBlanks skipBlanks_eq_cons_iff skipBlanks_eq_nil_iff)

variable {text rest : List Char} {first : Bool} {config final : Config} {field : Field}

/-! ## Lists -/

theorem readListEnd_eq_ok_iff :
    readListEnd text = .ok rest ↔ ∃ gap, Blank gap ∧ text = gap ++ ']' :: rest := by
  have visible : Json.isBlank ']' = false := by decide
  have ends : readListEnd text = .ok rest ↔ skipBlanks text = ']' :: rest := by
    rw [readListEnd]
    cases skipBlanks text with
    | nil => simp
    | cons c others => cases skipBlanks others <;> grind
  rw [ends, skipBlanks_eq_cons_iff]
  simp [visible]

/-- What is read as settings in their order is a list of at most so many values. -/
theorem values_of_readInOrder {fields : List Field} (distinct : fields.Nodup)
    (read : readInOrder fields first config text = .ok (final, rest)) :
    ∃ values body, values.length ≤ fields.length ∧ Parts Spells ']' first values body ∧
      text = body ++ rest ∧ Settles config (fields.zip values) final := by
  induction fields generalizing first config text with
  | nil =>
      obtain ⟨left, ending, whole⟩ := map_eq_ok_iff.mp read
      cases whole
      obtain ⟨gap, blank, rfl⟩ := readListEnd_eq_ok_iff.mp ending
      exact ⟨[], _, Nat.le_refl 0, .done blank, by simp, settles_nil_iff.mpr rfl⟩
  | cons field others ih =>
      obtain ⟨fresh, distinct⟩ := List.nodup_cons.mp distinct
      rw [readInOrder] at read
      split at read
      · cases read
      · next ending =>
          obtain ⟨gap, blank, rfl⟩ := nextElement_eq_end_iff.mp ending
          cases read
          exact ⟨[], _, Nat.zero_le _, .done blank, by simp, settles_nil_iff.mpr rfl⟩
      · next begins =>
          obtain ⟨c, start, rfl, -, ⟨lead, leads, rfl⟩, -⟩ := nextElement_eq_start_iff.mp begins
          split at read
          · cases read
          · next found =>
              obtain ⟨gap, value, piece, blank, spelled, whole, settles⟩ :=
                readSetting_eq_ok_iff.mp found
              obtain ⟨values, body, few, parts, rfl, settles_rest⟩ := ih distinct read
              refine ⟨value :: values, _, Nat.succ_le_succ few,
                .part (leads.append blank) spelled parts, ?_,
                (settles_cons_iff (mt mem_of_mem_zip fresh)).mpr ⟨_, settles, settles_rest⟩⟩
              rw [whole]
              simp

/-- Values of the kinds of settings are read as these settings. -/
theorem readInOrder_of_values {fields : List Field} (distinct : fields.Nodup)
    {values : List Json} {body : List Char} (few : values.length ≤ fields.length)
    (parts : Parts Spells ']' first values body)
    (settles : Settles config (fields.zip values) final) (rest : List Char) :
    readInOrder fields first config (body ++ rest) = .ok (final, rest) := by
  induction fields generalizing first config values body with
  | nil =>
      obtain rfl := List.eq_nil_of_length_eq_zero (Nat.le_zero.mp few)
      obtain rfl := settles_nil_iff.mp settles
      cases parts with
      | @done _ gap blank =>
          exact map_eq_ok_iff.mpr
            ⟨rest, readListEnd_eq_ok_iff.mpr ⟨gap, blank, by simp⟩, rfl⟩
  | cons field others ih =>
      obtain ⟨fresh, distinct⟩ := List.nodup_cons.mp distinct
      cases parts with
      | done blank =>
          obtain rfl := settles_nil_iff.mp settles
          rw [List.append_assoc, List.singleton_append, readInOrder, nextElement_end blank]
      | @part _ lead piece more value later leads spelled parts =>
          obtain ⟨next, here, settles⟩ :=
            (settles_cons_iff (mt mem_of_mem_zip fresh)).mp settles
          have found : readSetting field config (piece ++ (more ++ rest)) =
              .ok (next, more ++ rest) :=
            readSetting_eq_ok_iff.mpr ⟨[], value, piece, blank_nil, spelled, rfl, here⟩
          rw [List.append_assoc, List.append_assoc, readInOrder,
            nextElement_part leads spelled.exists_head]
          simp only [found]
          exact ih distinct (Nat.le_of_succ_le_succ few) parts settles

/-! ## Objects -/

theorem readKey_eq_ok_iff {given : List Field} :
    readKey given text = .ok (field, rest) ↔
      field ∉ given ∧ ∃ body, SpellsString field.name ('"' :: body) ∧ text = body ++ rest := by
  rw [← Json.readString_eq_ok_iff, readKey]
  cases Json.readString text with
  | error cause => simp
  | ok found =>
      obtain ⟨key, left⟩ := found
      have named : ∀ other, Field.ofName? key = some other ↔ other.name = key :=
        fun _ => Field.ofName?_eq_some_iff
      cases known : Field.ofName? key with
      | none =>
          have unnamed := named field
          simp only [known, reduceCtorEq, false_iff] at unnamed
          simp [known, Ne.symm unnamed]
      | some other =>
          obtain rfl := (named other).mp known
          have same : other.name = field.name ↔ other = field := Field.name_injective.eq_iff
          by_cases twice : other ∈ given <;> grind

theorem readColon_eq_ok_iff :
    readColon text = .ok rest ↔ ∃ gap, Blank gap ∧ text = gap ++ ':' :: rest := by
  have visible : Json.isBlank ':' = false := by decide
  have ends : readColon text = .ok rest ↔ skipBlanks text = ':' :: rest := by
    rw [readColon]
    cases skipBlanks text with
    | nil => simp
    | cons c others => grind
  rw [ends, skipBlanks_eq_cons_iff]
  simp [visible]

/-- A setting with its value, as a field of an object. -/
def SpellsSetting (setting : Field × Json) : List Char → Prop :=
  SpellsField Spells (setting.1.name, setting.2)

/-- What is read as the settings of an object are fields with distinct keys. -/
theorem settings_of_readFields {bound : Nat} {given : List Field}
    (read : readFields bound given config text = .ok (final, rest)) :
    ∃ settings body, (settings.map Prod.fst).Nodup ∧ given.Disjoint (settings.map Prod.fst) ∧
      Parts SpellsSetting '\x7d' given.isEmpty settings body ∧ text = body ++ rest ∧
      Settles config settings final := by
  induction bound generalizing given config text with
  | zero => cases read
  | succ bound ih =>
      rw [readFields] at read
      split at read
      · cases read
      · next ending =>
          obtain ⟨gap, blank, rfl⟩ := nextKey_eq_end_iff.mp ending
          cases read
          exact ⟨[], _, List.nodup_nil, List.disjoint_nil_right _, .done blank, by simp,
            settles_nil_iff.mpr rfl⟩
      · next begins =>
          obtain ⟨lead, leads, rfl⟩ := nextKey_eq_start_iff.mp begins
          split at read
          · cases read
          · next field _ known =>
              obtain ⟨fresh, name, named, rfl⟩ := readKey_eq_ok_iff.mp known
              split at read
              · cases read
              · next colon =>
                  obtain ⟨gap, blank, rfl⟩ := readColon_eq_ok_iff.mp colon
                  split at read
                  · cases read
                  · next found =>
                      obtain ⟨inner, value, piece, blank_inner, spelled, rfl, settles⟩ :=
                        readSetting_eq_ok_iff.mp found
                      obtain ⟨settings, body, distinct, apart, parts, rfl, settles_rest⟩ := ih read
                      obtain ⟨new, apart⟩ := List.disjoint_cons_left.mp apart
                      refine ⟨(field, value) :: settings, _, List.nodup_cons.mpr ⟨new, distinct⟩,
                        List.disjoint_cons_right.mpr ⟨fresh, apart⟩,
                        .part leads (.field named blank blank_inner spelled) parts, by simp,
                        (settles_cons_iff new).mpr ⟨_, settles, settles_rest⟩⟩

/-- A field is read and its setting kept, before the settings behind it. -/
theorem readFields_setting {bound : Nat} {given : List Field} {value : Json} {next : Config}
    {lead piece : List Char} (fresh : field ∉ given) (leads : Lead given.isEmpty lead)
    (spelled : SpellsSetting (field, value) piece) (settles : Settles config [(field, value)] next)
    (rest : List Char) :
    readFields (bound + 1) given config (lead ++ (piece ++ rest)) =
      readFields bound (field :: given) next rest := by
  obtain ⟨named, blank, blank_inner, spelled⟩ := spelled
  rename_i name gap inner text
  obtain ⟨quoted, rfl⟩ := named.exists_inner
  have value_read : readSetting field config (inner ++ (text ++ rest)) = .ok (next, rest) :=
    readSetting_eq_ok_iff.mpr ⟨inner, value, text, blank_inner, spelled, rfl, settles⟩
  have colon_read : readColon (gap ++ ':' :: (inner ++ (text ++ rest))) = .ok _ :=
    readColon_eq_ok_iff.mpr ⟨gap, blank, rfl⟩
  have key_read : readKey given (quoted ++ (gap ++ ':' :: (inner ++ (text ++ rest)))) =
      .ok (field, _) :=
    readKey_eq_ok_iff.mpr ⟨fresh, quoted, named, rfl⟩
  have begins : nextKey given.isEmpty
      (lead ++ '"' :: (quoted ++ (gap ++ ':' :: (inner ++ (text ++ rest))))) = .ok (.inr _) :=
    nextKey_eq_start_iff.mpr ⟨lead, leads, rfl⟩
  simp only [List.cons_append, List.append_assoc] at *
  rw [readFields]
  simp only [begins, key_read, colon_read, value_read]

/-- Fields with distinct keys are read as these settings if the bound exceeds the length of
their text. -/
theorem readFields_of_settings {bound : Nat} {given : List Field}
    {settings : List (Field × Json)} {body : List Char}
    (distinct : (settings.map Prod.fst).Nodup) (apart : given.Disjoint (settings.map Prod.fst))
    (parts : Parts SpellsSetting '\x7d' given.isEmpty settings body)
    (settles : Settles config settings final) (enough : body.length < bound) (rest : List Char) :
    readFields bound given config (body ++ rest) = .ok (final, rest) := by
  induction settings generalizing bound given config body with
  | nil =>
      obtain ⟨bound, rfl⟩ := Nat.exists_eq_add_one_of_ne_zero (Nat.ne_zero_of_lt enough)
      obtain rfl := settles_nil_iff.mp settles
      cases parts with
      | done blank =>
          rw [List.append_assoc, List.singleton_append, readFields, nextKey_end blank]
  | cons setting others ih =>
      obtain ⟨bound, rfl⟩ := Nat.exists_eq_add_one_of_ne_zero (Nat.ne_zero_of_lt enough)
      obtain ⟨new, distinct⟩ := List.nodup_cons.mp distinct
      obtain ⟨fresh, apart⟩ := List.disjoint_cons_right.mp apart
      obtain ⟨next, here, settles⟩ := (settles_cons_iff new).mp settles
      cases parts with
      | @part _ lead piece more _ _ leads spelled parts =>
          have shorter : more.length < bound := by
            obtain ⟨named, -, -, -⟩ := spelled
            obtain ⟨quoted, rfl⟩ := named.exists_inner
            simp only [List.length_append, List.length_cons] at enough
            omega
          rw [List.append_assoc, List.append_assoc, readFields_setting fresh leads spelled here]
          exact ih distinct (List.disjoint_cons_left.mpr ⟨new, apart⟩) parts settles shorter

/-! ## Documents -/

theorem spells_object_iff {settings : List (Field × Json)} :
    Spells (.object (settings.map fun pair => (pair.1.name, pair.2))) text ↔
      ∃ inner, Parts SpellsSetting '\x7d' true settings inner ∧ text = '\x7b' :: inner := by
  constructor
  · rintro (_ | _ | _ | _ | parts)
    rw [parts_map_iff] at parts
    exact ⟨_, parts, rfl⟩
  · rintro ⟨inner, parts, rfl⟩
    exact .object (parts_map_iff.mpr parts)

/-- One value is read exactly if it is in the grammar and gives a configuration, and then
that configuration is read. -/
theorem readValue_eq_ok_iff :
    readValue text = .ok (final, rest) ↔
      ∃ gap value body, Blank gap ∧ Spells value body ∧ text = gap ++ (body ++ rest) ∧
        Gives value final := by
  rw [readValue]
  constructor
  · intro read
    split at read
    · cases read
    · next c others begins =>
        obtain ⟨gap, blank, rfl, -⟩ := skipBlanks_eq_cons_iff.mp begins
        split_ifs at read with bracket brace
        · subst bracket
          obtain ⟨values, body, few, parts, rfl, settles⟩ :=
            values_of_readInOrder Field.nodup_all read
          exact ⟨gap, _, _, blank, .list parts, rfl, .list few settles⟩
        · subst brace
          obtain ⟨settings, body, distinct, -, parts, rfl, settles⟩ := settings_of_readFields read
          exact ⟨gap, _, _, blank, spells_object_iff.mpr ⟨body, parts, rfl⟩, rfl,
            .object distinct settles⟩
  · rintro ⟨gap, value, body, blank, spelled, rfl, gives⟩
    cases gives with
    | @object settings _ distinct settles =>
        obtain ⟨inner, parts, rfl⟩ := spells_object_iff.mp spelled
        have begins : skipBlanks (gap ++ ('\x7b' :: inner ++ rest)) = '\x7b' :: (inner ++ rest) :=
          skipBlanks_eq_cons_iff.mpr ⟨gap, blank, rfl, by decide⟩
        simp only [begins]
        exact readFields_of_settings distinct (List.disjoint_nil_left _) parts settles (by simp) rest
    | list few settles =>
        obtain _ | _ | _ | parts | _ := spelled
        rename_i inner
        have begins : skipBlanks (gap ++ ('[' :: inner ++ rest)) = '[' :: (inner ++ rest) :=
          skipBlanks_eq_cons_iff.mpr ⟨gap, blank, rfl, by decide⟩
        simp only [begins]
        exact readInOrder_of_values Field.nodup_all few parts settles rest

/-- The texts that are read as a configuration are those of the values that give it. -/
theorem readChars_eq_ok_iff :
    readChars text = .ok config ↔ ∃ value, Document value text ∧ Gives value config := by
  rw [readChars]
  constructor
  · intro read
    split at read
    · cases read
    · next left found =>
        obtain ⟨gap, value, body, blank, spelled, rfl, gives⟩ := readValue_eq_ok_iff.mp found
        split at read
        · next ended =>
            cases read
            exact ⟨value, .text blank spelled (skipBlanks_eq_nil_iff.mp ended), gives⟩
        · cases read
  · rintro ⟨value, ⟨blank, spelled, blank_after⟩, gives⟩
    rename_i before body after
    have found : readValue (before ++ (body ++ after)) = .ok (config, after) :=
      readValue_eq_ok_iff.mpr ⟨before, value, body, blank, spelled, rfl, gives⟩
    simp only [found, skipBlanks_eq_nil_iff.mpr blank_after]

end Config

end CacheManifest
