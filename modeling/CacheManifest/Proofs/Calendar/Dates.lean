/-
# Days and their dates

The days since the first of January 1970 are counted by adding up the years and the
months that have passed, each with its length; before 1970 they count down. Every
day has exactly one valid date, and later days have later dates. The year of a day is
estimated from the mean length of a year and then corrected: one correction is enough,
as the days before a year never depart far from their mean.
-/

import Mathlib
import CacheManifest.Timestamp

namespace CacheManifest

namespace Calendar

/-- The years with a leap day are those divisible by four, except that of the full
centuries only every fourth is one. -/
def LeapYear (year : Int) : Prop := 4 ∣ year ∧ (100 ∣ year → 400 ∣ year)

instance (year : Int) : Decidable (LeapYear year) := by
  unfold LeapYear
  infer_instance

/-- How many days a year has. -/
def yearLength (year : Int) : Nat := if LeapYear year then 366 else 365

/-- How many days a month of a year has. -/
def monthLength (year : Int) (month : Nat) : Nat :=
  if month = 2 then (if LeapYear year then 29 else 28)
  else if month ∈ [4, 6, 9, 11] then 30
  else 31

/-- The days from 1970 to the start of a year. One of the sums is always empty. -/
def daysToYear (year : Int) : Int :=
  (∑ passed ∈ Finset.range (year - 1970).toNat, (yearLength (1970 + passed) : Int)) -
    ∑ coming ∈ Finset.range (1970 - year).toNat, (yearLength (1969 - coming) : Int)

/-- The days from the start of a year to the start of a month. -/
def daysToMonth (year : Int) (month : Nat) : Nat :=
  ∑ passed ∈ Finset.Ico 1 month, monthLength year passed

attribute [ext] Date

namespace Date

/-- A date that the calendar has. -/
structure Valid (date : Date) : Prop where
  first_month : 1 ≤ date.month
  last_month : date.month ≤ 12
  first_day : 1 ≤ date.day
  last_day : date.day ≤ monthLength date.year date.month

/-- The days from 1970-01-01 to a date. -/
def count (date : Date) : Int :=
  daysToYear date.year + daysToMonth date.year date.month + (date.day - 1)

/-- One date comes before another. -/
def Before (first second : Date) : Prop :=
  first.year < second.year ∨ first.year = second.year ∧
    (first.month < second.month ∨ first.month = second.month ∧ first.day < second.day)

end Date

/-! ## Years -/

theorem isLeap_iff (year : Int) : isLeap year = true ↔ LeapYear year := by
  simp only [isLeap, LeapYear, Bool.and_eq_true, Bool.or_eq_true, beq_iff_eq, bne_iff_ne]
  omega

theorem daysToYear_succ (year : Int) :
    daysToYear (year + 1) = daysToYear year + yearLength year := by
  rw [daysToYear, daysToYear]
  by_cases passed : 1970 ≤ year
  · rw [show (year + 1 - 1970).toNat = (year - 1970).toNat + 1 by omega, Finset.sum_range_succ,
      show (1970 - (year + 1)).toNat = 0 by omega, show (1970 - year).toNat = 0 by omega,
      show (1970 : Int) + (year - 1970).toNat = year by omega]
    ring
  · rw [show (1970 - year).toNat = (1970 - (year + 1)).toNat + 1 by omega, Finset.sum_range_succ,
      show (year + 1 - 1970).toNat = 0 by omega, show (year - 1970).toNat = 0 by omega,
      show (1969 : Int) - (1970 - (year + 1)).toNat = year by omega]
    ring

theorem daysBefore_succ (year : Int) :
    daysBefore (year + 1) = daysBefore year + yearLength year := by
  rw [daysBefore, daysBefore, yearLength]
  split
  next leap => rw [LeapYear] at leap; omega
  next common => rw [LeapYear] at common; omega

/-- The closed form counts the days from the year zero instead of 1970. -/
theorem daysToYear_eq (year : Int) : daysToYear year = daysBefore year - epochDay := by
  -- Upwards and downwards from 1970, where both sides are zero.
  induction year using Int.inductionOn' (b := 1970) with
  | zero => rfl
  | succ year _ ih => rw [daysToYear_succ, daysBefore_succ, ih]; ring
  | pred year _ ih =>
      have steps := daysToYear_succ (year - 1)
      have closed := daysBefore_succ (year - 1)
      rw [sub_add_cancel] at steps closed
      omega

theorem daysToYear_strictMono : StrictMono daysToYear := by
  apply strictMono_int_of_lt_succ
  intro year
  rw [daysToYear_succ, yearLength]
  split <;> omega

/-- The days before a year stay close to those that years of the mean length would have. -/
theorem daysBefore_near (year : Int) :
    146097 * year - 396 ≤ 400 * daysBefore year ∧
      400 * daysBefore year ≤ 146097 * year + 699 := by
  rw [daysBefore]
  omega

/-- A day lies in its year. -/
theorem yearOf_spec (day : Int) :
    daysBefore (yearOf day) ≤ day ∧ day < daysBefore (yearOf day + 1) := by
  have mean : 146097 * (day * 400 / 146097) ≤ 400 * day ∧
      400 * day < 146097 * (day * 400 / 146097 + 1) := by omega
  rw [yearOf]
  -- From here on the closed form counts by its distance from the mean only.
  generalize day * 400 / 146097 = estimate at mean
  split
  next early =>
      have next := daysBefore_near (estimate + 1 + 1)
      omega
  next _ =>
      split
      next late =>
          have previous := daysBefore_near (estimate - 1)
          rw [sub_add_cancel]
          omega
      next _ => omega

/-! ## Months -/

theorem daysToMonth_succ (year : Int) {month : Nat} (from_first : 1 ≤ month) :
    daysToMonth year (month + 1) = daysToMonth year month + monthLength year month :=
  Finset.sum_Ico_succ_top from_first _

theorem daysToMonth_mono (year : Int) : Monotone (daysToMonth year) := by
  intro month later ordered
  exact Finset.sum_le_sum_of_subset (Finset.Ico_subset_Ico_right ordered)

/-- The months of a year fill it. -/
theorem daysToMonth_thirteen (year : Int) : daysToMonth year 13 = yearLength year := by
  by_cases leap : LeapYear year <;>
    simp [daysToMonth, yearLength, monthLength, leap, Finset.sum_Ico_succ_top]

theorem monthLength_le (year : Int) (month : Nat) : monthLength year month ≤ 31 := by
  rw [monthLength]
  split_ifs <;> decide

theorem monthLengths_eq (year : Int) :
    monthLengths year = (List.range' 1 12).map (monthLength year) := by
  have same := isLeap_iff year
  by_cases leap : LeapYear year <;> simp_all [monthLengths, monthLength, List.range']

/-- Going through the months from one on, the days of those that have passed are taken off
and what remains lies in the month that is reached. -/
theorem monthAndDay_spec (year : Int) (count : Nat) {month day : Nat}
    (within : day < ∑ other ∈ Finset.Ico month (month + count), monthLength year other) :
    ∃ reached rest, monthAndDay month ((List.range' month count).map (monthLength year)) day =
        (reached, rest + 1) ∧
      month ≤ reached ∧ reached < month + count ∧ rest < monthLength year reached ∧
      (∑ passed ∈ Finset.Ico month reached, monthLength year passed) + rest = day := by
  induction count generalizing month day with
  | zero => simp at within
  | succ count ih =>
      rw [List.range'_succ, List.map_cons, monthAndDay]
      by_cases here : day < monthLength year month
      · exact ⟨month, day, if_pos here, le_rfl, by omega, here, by simp⟩
      · rw [Finset.sum_eq_sum_Ico_succ_bot (by omega)] at within
        have beyond : day - monthLength year month <
            ∑ other ∈ Finset.Ico (month + 1) (month + 1 + count), monthLength year other := by
          rw [show month + 1 + count = month + (count + 1) by omega]
          omega
        obtain ⟨reached, rest, found, lower, upper, fits, passed⟩ := ih beyond
        refine ⟨reached, rest, (if_neg here).trans found, by omega, by omega, fits, ?_⟩
        rw [Finset.sum_eq_sum_Ico_succ_bot (by omega)]
        omega

/-! ## Dates -/

/-- A date lies in its year. -/
theorem Date.Valid.count_lt {date : Date} (valid : date.Valid) :
    date.count < daysToYear (date.year + 1) := by
  have passed := daysToMonth_succ date.year valid.first_month
  have inside := daysToMonth_mono date.year (show date.month + 1 ≤ 13 from by
    have := valid.last_month
    omega)
  rw [daysToMonth_thirteen] at inside
  have last_day := valid.last_day
  have first_day := valid.first_day
  rw [Date.count, daysToYear_succ]
  omega

/-- Later dates count more days. -/
theorem Date.Before.count_lt {first second : Date} (earlier : first.Before second)
    (valid : first.Valid) (later_valid : second.Valid) : first.count < second.count := by
  have start := later_valid.first_day
  rcases earlier with years | ⟨same_year, months | ⟨same_month, days⟩⟩
  · have next := daysToYear_strictMono.monotone (show first.year + 1 ≤ second.year from years)
    have bound := valid.count_lt
    rw [Date.count.eq_def second]
    omega
  · have passed := daysToMonth_succ first.year valid.first_month
    have next := daysToMonth_mono first.year (show first.month + 1 ≤ second.month from months)
    have last_day := valid.last_day
    have first_day := valid.first_day
    rw [Date.count, Date.count, ← same_year]
    omega
  · rw [Date.count, Date.count, ← same_year, ← same_month]
    omega

theorem Date.before_or_eq_or_before (first second : Date) :
    first.Before second ∨ first = second ∨ second.Before first := by
  rw [Date.ext_iff, Date.Before, Date.Before]
  omega

/-- Valid dates are in the order of their days. -/
theorem Date.Valid.before_iff {first second : Date} (valid : first.Valid)
    (other_valid : second.Valid) : first.Before second ↔ first.count < second.count := by
  refine ⟨fun before => before.count_lt valid other_valid, fun fewer => ?_⟩
  rcases first.before_or_eq_or_before second with earlier | equal | later
  · exact earlier
  · exact absurd (congrArg Date.count equal) fewer.ne
  · exact absurd fewer (later.count_lt other_valid valid).asymm

/-- A valid date is told by its day. -/
theorem Date.Valid.eq_iff {first second : Date} (valid : first.Valid)
    (other_valid : second.Valid) : first = second ↔ first.count = second.count := by
  refine ⟨congrArg Date.count, fun same => ?_⟩
  rcases first.before_or_eq_or_before second with earlier | equal | later
  · exact absurd same (earlier.count_lt valid other_valid).ne
  · exact equal
  · exact absurd same (later.count_lt other_valid valid).ne'

/-- The date of a day is valid, and it is the date of that day. -/
theorem dateOf_spec (day : Int) :
    (dateOf day).Valid ∧ (dateOf day).count = day - epochDay := by
  obtain ⟨from_start, to_end⟩ := yearOf_spec day
  rw [daysBefore_succ] at to_end
  have within : (day - daysBefore (yearOf day)).toNat <
      ∑ month ∈ Finset.Ico 1 (1 + 12), monthLength (yearOf day) month := by
    have whole : ∑ month ∈ Finset.Ico 1 (1 + 12), monthLength (yearOf day) month =
        yearLength (yearOf day) := daysToMonth_thirteen _
    omega
  obtain ⟨month, rest, found, first, last, fits, passed⟩ :=
    monthAndDay_spec (yearOf day) 12 within
  rw [← monthLengths_eq] at found
  have shape : dateOf day = ⟨yearOf day, month, rest + 1⟩ := by
    simp only [dateOf, found]
  rw [shape]
  refine ⟨⟨first, Nat.le_of_lt_succ last, Nat.succ_pos rest, fits⟩, ?_⟩
  have months : daysToMonth (yearOf day) month + rest =
      (day - daysBefore (yearOf day)).toNat := passed
  simp only [Date.count, daysToYear_eq]
  omega

example : dateOf (789 + epochDay) = ⟨1972, 2, 29⟩ ∧ (⟨1972, 2, 29⟩ : Date).count = 789 := by
  decide

end Calendar

end CacheManifest
