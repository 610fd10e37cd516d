/-
# What a timestamp tells

The text of an instant shows the one date and time of day that count as many seconds as
the instant does in local time. Its year stands in front and may be of any length; behind
it is a text of fields of fixed widths. So the text is read back in one way only, and
where years have four digits texts are in the order of their numbers. Those are in the
order of the seconds that they count, a leap second counting with the second before it.
-/

import CacheManifest.Proofs.Calendar.Dates
import CacheManifest.Proofs.Text.Numerals

namespace CacheManifest

/-- A date and a time of day. -/
@[ext]
structure Civil where
  date : Calendar.Date
  hour : Nat
  minute : Nat
  second : Nat
deriving DecidableEq, Repr

namespace Instant

variable {instant other : Instant}

/-- An instant of a leap second is told by its nanoseconds, which go past the second
before it. -/
def IsLeap (instant : Instant) : Prop := second ≤ instant.nanoseconds

/-- Nanoseconds go past one second at most. They do in a leap second, which follows the
last second of a minute and shows so where local time is ahead by whole minutes. -/
structure Regular (instant : Instant) : Prop where
  nanoseconds_lt : instant.nanoseconds < 2 * second
  leap_last : instant.IsLeap → instant.seconds % 60 = 59
  leap_offset : instant.IsLeap → instant.offset % 60 = 0

/-- The microsecond of an instant comes before that of another. -/
def Earlier (instant other : Instant) : Prop :=
  instant.seconds < other.seconds ∨
    instant.seconds = other.seconds ∧ instant.nanoseconds / 1000 < other.nanoseconds / 1000

/-- Two instants are in the same microsecond. -/
def SameMicrosecond (instant other : Instant) : Prop :=
  instant.seconds = other.seconds ∧ instant.nanoseconds / 1000 = other.nanoseconds / 1000

end Instant

namespace Civil

/-- The seconds from the start of 1970 to a date and a time of day. A leap second is the
sixtieth of its minute and counts with the one before it. -/
def count (civil : Civil) : Int :=
  86400 * civil.date.count + 3600 * civil.hour + 60 * civil.minute + min civil.second 59

/-- The date and the time of day at an instant. -/
structure At (civil : Civil) (instant : Instant) : Prop where
  date : civil.date.Valid
  hour : civil.hour < 24
  minute : civil.minute < 60
  second : civil.second < 60 ∧ ¬instant.IsLeap ∨ civil.second = 60 ∧ instant.IsLeap
  count : civil.count = instant.seconds + instant.offset

/-- What stands behind the year: the other numbers in two digits each, and microseconds
in six. -/
def fields (civil : Civil) (microsecond : Nat) : List Field :=
  [⟨'-', 2, civil.date.month⟩, ⟨'-', 2, civil.date.day⟩, ⟨' ', 2, civil.hour⟩,
    ⟨':', 2, civil.minute⟩, ⟨':', 2, civil.second⟩, ⟨'.', 6, microsecond⟩]

/-- A year that four digits are not enough for has a sign, and so has a negative one. -/
def sign (year : Int) : List Char :=
  if year < 0 then ['-'] else if 9999 < year then ['+'] else []

/-- The text of a date and a time of day, to the microsecond. -/
inductive Spelled (civil : Civil) (microsecond : Nat) : List Char → Prop
  | intro {year rest : List Char} :
      Numeral 4 civil.date.year.natAbs year → Shown (civil.fields microsecond) rest →
        Spelled civil microsecond (sign civil.date.year ++ (year ++ rest))

end Civil

namespace Instant

variable {instant other : Instant}

/-- The microseconds within a second. -/
def microsecond (instant : Instant) : Nat := instant.nanoseconds % second / 1000

/-- Local time at an instant is in a year that four digits are enough for. -/
def FourDigitYear (instant : Instant) : Prop :=
  ∃ civil : Civil, civil.At instant ∧ 0 ≤ civil.date.year ∧ civil.date.year ≤ 9999

/-- The text of an instant shows the one date and time of day at the instant, is the text
of its microsecond alone, comes in the order of time, and cannot end the line it is in. -/
structure Faithful (instant : Instant) : Prop where
  shown : ∃ civil : Civil, civil.At instant ∧ (∀ other : Civil, other.At instant → other = civil) ∧
    civil.Spelled instant.microsecond instant.text.toList
  told : ∀ other : Instant, other.Regular → other.offset = instant.offset →
    (instant.text = other.text ↔ instant.SameMicrosecond other)
  sorted : ∀ other : Instant, other.Regular → other.offset = instant.offset →
    instant.FourDigitYear → other.FourDigitYear →
      (instant.text < other.text ↔ instant.Earlier other)
  legible : ∀ c ∈ instant.text.toList, c.isDigit = true ∨ c ∈ ['-', '+', ' ', ':', '.']
  one_line : '\n' ∉ instant.text.toList

/-! ## The time of day at an instant -/

/-- The date and the time of day that an instant is shown with. -/
def civil (instant : Instant) : Civil :=
  ⟨instant.date, instant.secondOfDay / 3600, instant.secondOfDay / 60 % 60,
    instant.secondOfDay % 60 + instant.nanoseconds / second⟩

theorem microsecond_lt (instant : Instant) : instant.microsecond < 10 ^ 6 := by
  simp only [microsecond, second]
  omega

/-- Seconds of local time are days and what is left of the last one. -/
theorem localSeconds_eq (instant : Instant) :
    instant.localSeconds = 86400 * (instant.localSeconds / day) + instant.secondOfDay ∧
      instant.secondOfDay < 86400 := by
  simp only [secondOfDay, day]
  omega

/-- A leap second follows the last second of a minute of local time. -/
theorem Regular.secondOfDay_of_leap (regular : instant.Regular) (leap : instant.IsLeap) :
    instant.secondOfDay % 60 = 59 := by
  have split := instant.localSeconds_eq
  have leap_last := regular.leap_last leap
  have leap_offset := regular.leap_offset leap
  rw [localSeconds] at split
  omega

theorem Regular.second_civil (regular : instant.Regular) :
    instant.civil.second < 60 ∧ ¬instant.IsLeap ∨ instant.civil.second = 60 ∧ instant.IsLeap := by
  have nanoseconds_lt := regular.nanoseconds_lt
  by_cases leap : instant.IsLeap
  · have last := regular.secondOfDay_of_leap leap
    simp only [IsLeap, civil, second] at *
    omega
  · simp only [IsLeap, civil, second] at *
    omega

theorem Regular.count_civil (regular : instant.Regular) :
    instant.civil.count = instant.seconds + instant.offset := by
  obtain ⟨split, within⟩ := instant.localSeconds_eq
  have days : instant.civil.date.count = instant.localSeconds / day := by
    have counted := (Calendar.dateOf_spec (instant.localSeconds / day + Calendar.epochDay)).2
    rwa [add_sub_cancel_right] at counted
  have shown : min instant.civil.second 59 = instant.secondOfDay % 60 := by
    rcases regular.second_civil with ⟨below, ordinary⟩ | ⟨last, leap⟩
    · simp only [IsLeap, civil, second] at *
      omega
    · rw [last, regular.secondOfDay_of_leap leap]
      rfl
  rw [Civil.count, days, shown, ← localSeconds]
  simp only [civil]
  omega

/-- An instant is shown with the date and the time of day that it has. -/
theorem Regular.civil_at (regular : instant.Regular) : instant.civil.At instant where
  date := (Calendar.dateOf_spec (instant.localSeconds / day + Calendar.epochDay)).1
  hour := by
    have within := instant.localSeconds_eq.2
    exact Nat.div_lt_of_lt_mul within
  minute := Nat.mod_lt _ (by decide)
  second := regular.second_civil
  count := regular.count_civil

end Instant

/-! ## Dates and times of day in order -/

namespace Civil

variable {instant other : Instant} {civil later : Civil} {microsecond coming : Nat}
  {text : List Char}

/-- An instant has one date and time of day. -/
theorem At.unique (civil_at : civil.At instant) (later_at : later.At instant) :
    civil = later := by
  have same := civil_at.count.trans later_at.count.symm
  obtain ⟨valid, hour, minute, second, -⟩ := civil_at
  obtain ⟨later_valid, later_hour, later_minute, later_second, -⟩ := later_at
  rw [Civil.ext_iff, valid.eq_iff later_valid]
  simp only [Civil.count, Instant.IsLeap] at same second later_second
  omega

/-- The numbers behind a year, the first that differ deciding, with the year in front. -/
theorem values_lt_iff (civil later : Civil) (microsecond coming : Nat) :
    civil.date.year < later.date.year ∨ civil.date.year = later.date.year ∧
        (civil.fields microsecond).map Field.value < (later.fields coming).map Field.value ↔
      civil.date.Before later.date ∨ civil.date = later.date ∧
        (civil.hour < later.hour ∨ civil.hour = later.hour ∧
          (civil.minute < later.minute ∨ civil.minute = later.minute ∧
            (civil.second < later.second ∨ civil.second = later.second ∧
              microsecond < coming))) := by
  simp only [fields, List.map_cons, List.map_nil, List.cons_lt_cons_iff, List.lt_irrefl,
    and_false, or_false, Calendar.Date.Before, Calendar.Date.ext_iff]
  omega

/-- Numbers of dates and times of day are in the order of the instants. -/
theorem At.values_lt_iff (civil_at : civil.At instant) (later_at : later.At other)
    (regular : instant.Regular) (other_regular : other.Regular)
    (same_offset : other.offset = instant.offset) :
    civil.date.year < later.date.year ∨ civil.date.year = later.date.year ∧
        (civil.fields instant.microsecond).map Field.value <
          (later.fields other.microsecond).map Field.value ↔
      instant.Earlier other := by
  have counted := civil_at.count
  have later_counted := later_at.count
  have nanoseconds_lt := regular.nanoseconds_lt
  have other_lt := other_regular.nanoseconds_lt
  obtain ⟨valid, hour, minute, second, -⟩ := civil_at
  obtain ⟨later_valid, later_hour, later_minute, later_second, -⟩ := later_at
  -- In days, hours, minutes and seconds the order is that of one count, up to leap seconds.
  rw [Civil.values_lt_iff, valid.before_iff later_valid, valid.eq_iff later_valid]
  simp only [Civil.count, Instant.IsLeap, Instant.Earlier, Instant.microsecond, Instant.second,
    same_offset] at *
  omega

/-! ## The text of a date and a time of day -/

/-- The fields of a date and a time of day are wide enough. -/
theorem At.fields_fit (civil_at : civil.At instant) (small : microsecond < 10 ^ 6) :
    ∀ field ∈ civil.fields microsecond, field.Fits := by
  have last_month := civil_at.date.last_month
  have last_day := civil_at.date.last_day
  have month_end := Calendar.monthLength_le civil.date.year civil.date.month
  have hour := civil_at.hour
  have minute := civil_at.minute
  have second : civil.second ≤ 60 := by
    rcases civil_at.second with ⟨below, -⟩ | ⟨last, -⟩ <;> omega
  simp only [fields, List.forall_mem_cons, Field.Fits]
  exact ⟨by omega, by omega, by omega, by omega, by omega, small, by simp⟩

theorem layout_fields (civil later : Civil) (microsecond coming : Nat) :
    (civil.fields microsecond).map Field.layout = (later.fields coming).map Field.layout :=
  rfl

theorem eq_of_mem_sign {year : Int} {c : Char} (inside : c ∈ sign year) : c = '-' ∨ c = '+' := by
  rw [sign] at inside
  split_ifs at inside
  · exact .inl (List.mem_singleton.mp inside)
  · exact .inr (List.mem_singleton.mp inside)
  · exact absurd inside List.not_mem_nil

theorem isDigit_of_mem_sign {year : Int} {c : Char} (inside : c ∈ sign year) :
    c.isDigit = false := by
  rcases eq_of_mem_sign inside with rfl | rfl <;> rfl

/-- The digits of a year are parted from its sign. -/
theorem filter_sign_append (year : Int) {digits : List Char}
    (isDigit : ∀ c ∈ digits, c.isDigit = true) :
    (sign year ++ digits).filter Char.isDigit = digits ∧
      (sign year ++ digits).filter (fun c => !c.isDigit) = sign year := by
  constructor
  · rw [List.filter_append, List.filter_eq_nil_iff.mpr, List.filter_eq_self.mpr isDigit]
    · exact List.nil_append digits
    · intro c inside
      simp [isDigit_of_mem_sign inside]
  · rw [List.filter_append, List.filter_eq_self.mpr, List.filter_eq_nil_iff.mpr]
    · exact List.append_nil _
    · intro c inside
      simp [isDigit c inside]
    · intro c inside
      simp [isDigit_of_mem_sign inside]

theorem sign_eq_minus_iff (year : Int) : sign year = ['-'] ↔ year < 0 := by
  rw [sign]
  split_ifs with negative large
  · simp [negative]
  · simp [negative]
  · simp [negative]

/-- A sign and digits tell their year. -/
theorem year_eq {year late : Int} {digits others : List Char}
    (numeral : Numeral 4 year.natAbs digits) (numeral_other : Numeral 4 late.natAbs others)
    (same : sign year ++ digits = sign late ++ others) : year = late := by
  obtain ⟨only_digits, only_sign⟩ := filter_sign_append year numeral.isDigit
  obtain ⟨other_digits, other_sign⟩ := filter_sign_append late numeral_other.isDigit
  rw [same, other_digits] at only_digits
  rw [same, other_sign] at only_sign
  have negative_alike : year < 0 ↔ late < 0 := by
    rw [← sign_eq_minus_iff, ← sign_eq_minus_iff, only_sign]
  have as_large : year.natAbs = late.natAbs := by
    rw [← numeral.reads, ← numeral_other.reads, only_digits]
  omega

/-- A text is that of one date and time of day only. -/
theorem Spelled.unique (civil_at : civil.At instant) (later_at : later.At other)
    (small : microsecond < 10 ^ 6) (other_small : coming < 10 ^ 6)
    (spelled : civil.Spelled microsecond text) (spelled_later : later.Spelled coming text) :
    civil = later ∧ microsecond = coming := by
  generalize same : text = read at spelled_later
  obtain ⟨numeral, shown⟩ := spelled
  obtain ⟨numeral_later, shown_later⟩ := spelled_later
  have fit := civil_at.fields_fit small
  have later_fit := later_at.fields_fit other_small
  have alike := layout_fields civil later microsecond coming
  -- All fields behind the year have one length, so that both years end at the same place.
  rw [← List.append_assoc, ← List.append_assoc] at same
  obtain ⟨years, rests⟩ := List.append_inj' same (shown.length_eq shown_later fit later_fit alike)
  subst rests
  have year := year_eq numeral numeral_later years
  have values := shown.values_eq shown_later fit later_fit alike
  simp only [fields, List.map_cons, List.cons.injEq] at values
  obtain ⟨month, day, hour, minute, second, fraction, -⟩ := values
  exact ⟨Civil.ext (Calendar.Date.ext year month day) hour minute second, fraction⟩

/-- Texts of dates and times of day come in the order of their numbers where four digits
are enough for the years. -/
theorem Spelled.lt_iff {late : List Char} (civil_at : civil.At instant) (later_at : later.At other)
    (small : microsecond < 10 ^ 6) (other_small : coming < 10 ^ 6)
    (spelled : civil.Spelled microsecond text) (spelled_later : later.Spelled coming late)
    (century : 0 ≤ civil.date.year ∧ civil.date.year ≤ 9999)
    (later_century : 0 ≤ later.date.year ∧ later.date.year ≤ 9999) :
    text < late ↔
      civil.date.year < later.date.year ∨ civil.date.year = later.date.year ∧
        (civil.fields microsecond).map Field.value < (later.fields coming).map Field.value := by
  obtain ⟨numeral, shown⟩ := spelled
  obtain ⟨numeral_later, shown_later⟩ := spelled_later
  have unsigned {year : Int} (four : 0 ≤ year ∧ year ≤ 9999) : sign year = [] := by
    rw [sign, if_neg (by omega), if_neg (by omega)]
  have order : civil.date.year.natAbs < later.date.year.natAbs ↔
      civil.date.year < later.date.year := by omega
  have same : civil.date.year.natAbs = later.date.year.natAbs ↔
      civil.date.year = later.date.year := by omega
  rw [unsigned century, unsigned later_century, List.nil_append, List.nil_append,
    numeral.append_lt_append_iff (by omega) numeral_later (by omega),
    shown.lt_iff shown_later (civil_at.fields_fit small) (later_at.fields_fit other_small)
      (layout_fields civil later microsecond coming), order, same]

theorem Spelled.mem (spelled : civil.Spelled microsecond text) {c : Char} (inside : c ∈ text) :
    c.isDigit = true ∨ c ∈ ['-', '+', ' ', ':', '.'] := by
  obtain ⟨numeral, shown⟩ := spelled
  rcases List.mem_append.mp inside with signed | unsigned
  · rcases eq_of_mem_sign signed with rfl | rfl <;> simp
  · rcases List.mem_append.mp unsigned with digit | behind
    · exact .inl (numeral.isDigit c digit)
    · apply (shown.mem behind).imp_right
      intro mark
      simp only [fields, List.map_cons, List.map_nil, List.mem_cons, List.not_mem_nil] at mark ⊢
      tauto

end Civil

namespace Instant

variable {instant other : Instant}

theorem yearText_eq (year : Int) : yearText year = Civil.sign year ++ padded 4 year.natAbs := by
  rw [yearText, Civil.sign]
  split_ifs <;> first | rfl | omega

/-- The text of an instant is that of the date and the time of day it is shown with. -/
theorem spelled_civil (instant : Instant) :
    instant.civil.Spelled instant.microsecond instant.text.toList := by
  have numeral := Numeral.padded (show 0 < 4 by decide) instant.civil.date.year.natAbs
  have shown := @Shown.padded (instant.civil.fields instant.microsecond) (by simp [Civil.fields])
  have text_eq : instant.text.toList = Civil.sign instant.civil.date.year ++
      (padded 4 instant.civil.date.year.natAbs ++
        (instant.civil.fields instant.microsecond).flatMap
          fun field => field.mark :: padded field.width field.value) := by
    simp [text, chars, yearText_eq, Civil.fields, civil, microsecond]
  rw [text_eq]
  exact .intro numeral shown

/-- The text goes by the microsecond. -/
theorem text_eq_of_sameMicrosecond (same : instant.SameMicrosecond other)
    (same_offset : other.offset = instant.offset) : instant.text = other.text := by
  obtain ⟨seconds, nanoseconds⟩ := same
  have beyond : instant.nanoseconds / second = other.nanoseconds / second := by
    simp only [second]
    omega
  have within : instant.nanoseconds % second / 1000 = other.nanoseconds % second / 1000 := by
    simp only [second]
    omega
  simp only [text, chars, date, secondOfDay, localSeconds, seconds, same_offset, beyond, within]

/-- The text tells the microsecond. -/
theorem Regular.sameMicrosecond_of_text_eq (regular : instant.Regular)
    (other_regular : other.Regular) (same_offset : other.offset = instant.offset)
    (same : instant.text = other.text) : instant.SameMicrosecond other := by
  have spelled := instant.spelled_civil
  rw [same] at spelled
  obtain ⟨civil_eq, fraction⟩ := spelled.unique regular.civil_at other_regular.civil_at
    instant.microsecond_lt other.microsecond_lt other.spelled_civil
  have civil_at := regular.civil_at
  have nanoseconds_lt := regular.nanoseconds_lt
  have other_lt := other_regular.nanoseconds_lt
  obtain ⟨-, -, -, other_second, other_count⟩ := other_regular.civil_at
  rw [civil_eq] at civil_at
  obtain ⟨-, -, -, civil_second, civil_count⟩ := civil_at
  simp only [IsLeap, SameMicrosecond, microsecond, second, same_offset] at *
  omega

/-- Where years have four digits, texts are in the order of their microseconds. -/
theorem Regular.text_lt_iff (regular : instant.Regular) (other_regular : other.Regular)
    (same_offset : other.offset = instant.offset) (four : instant.FourDigitYear)
    (other_four : other.FourDigitYear) : instant.text < other.text ↔ instant.Earlier other := by
  obtain ⟨civil, civil_at, century⟩ := four
  obtain ⟨later, later_at, later_century⟩ := other_four
  obtain rfl := civil_at.unique regular.civil_at
  obtain rfl := later_at.unique other_regular.civil_at
  rw [String.lt_iff_toList_lt,
    instant.spelled_civil.lt_iff civil_at later_at instant.microsecond_lt other.microsecond_lt
      other.spelled_civil century later_century,
    civil_at.values_lt_iff later_at regular other_regular same_offset]

/-- The text of a regular instant shows its date and time of day, tells it from all others
in its offset but those of the same microsecond, and comes before the text of another
exactly if it is earlier. -/
theorem faithful_of_regular (regular : instant.Regular) : instant.Faithful where
  shown := ⟨instant.civil, regular.civil_at, fun _ other_at => other_at.unique regular.civil_at,
    instant.spelled_civil⟩
  told := fun _ other_regular same_offset =>
    ⟨regular.sameMicrosecond_of_text_eq other_regular same_offset,
      fun same => text_eq_of_sameMicrosecond same same_offset⟩
  sorted := fun _ other_regular same_offset four other_four =>
    regular.text_lt_iff other_regular same_offset four other_four
  legible := fun _ inside => instant.spelled_civil.mem inside
  one_line := fun inside => by simpa using instant.spelled_civil.mem inside

/-- Half a second into the leap second at the end of 2016, five hours behind. -/
theorem faithful_of_regular_leap :
    (⟨1483228799, 1500000000, -18000⟩ : Instant).Regular ∧
      (⟨1483228799, 1500000000, -18000⟩ : Instant).text = "2016-12-31 18:59:60.500000" ∧
      (⟨1483228799, 1500000000, -18000⟩ : Instant).Faithful := by
  have regular : (⟨1483228799, 1500000000, -18000⟩ : Instant).Regular :=
    ⟨by decide, fun _ => by decide, fun _ => by decide⟩
  exact ⟨regular, by decide +kernel, faithful_of_regular regular⟩

example : (⟨-62167219201, 999999999, 0⟩ : Instant).text = "-0001-12-31 23:59:59.999999" := by
  decide +kernel

end Instant

end CacheManifest
