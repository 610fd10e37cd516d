/-
# Times of the civil calendar

A time is told in local time as year, month and day of the proleptic Gregorian
calendar, hour, minute and second, and six digits of the fraction, the rest
being cut off. Days are counted from the first of January of the year zero; the
year of a day is found from the mean length of a year and corrected by one
where the estimate is off.

A leap second is an instant whose nanoseconds go past a full second. It shows
as one second more, with the nanoseconds that remain.
-/

import CacheManifest.Path

namespace CacheManifest

/-- An instant: whole seconds since 1970-01-01 00:00 UTC, nanoseconds after
that, and the seconds by which local time is ahead. -/
structure Instant where
  seconds : Int
  nanoseconds : Nat
  offset : Int
deriving DecidableEq, Repr

namespace Calendar

/-- Whether a year has a 29th of February. -/
def isLeap (year : Int) : Bool :=
  year % 4 == 0 && (year % 100 != 0 || year % 400 == 0)

/-- How many days come before a year, from the year zero on. Negative years
come before it. -/
def daysBefore (year : Int) : Int :=
  365 * year + (year + 3) / 4 - (year + 99) / 100 + (year + 399) / 400

/-- The number of days from the start of the year zero to 1970. -/
def epochDay : Int := 719528

/-- The year of a day. -/
def yearOf (day : Int) : Int :=
  let estimate := day * 400 / 146097
  if daysBefore (estimate + 1) ≤ day then estimate + 1
  else if day < daysBefore estimate then estimate - 1
  else estimate

/-- The lengths of the months of a year. -/
def monthLengths (year : Int) : List Nat :=
  [31, if isLeap year then 29 else 28, 31, 30, 31, 30, 31, 31, 30, 31, 30, 31]

/-- The month and the day of the month, counted from a month on, for a day
counted from zero. -/
def monthAndDay (month : Nat) : List Nat → Nat → Nat × Nat
  | [], day => (month, day + 1)
  | length :: others, day =>
    if day < length then (month, day + 1) else monthAndDay (month + 1) others (day - length)

/-- A date of the calendar. -/
structure Date where
  year : Int
  month : Nat
  day : Nat
deriving DecidableEq, Repr

/-- The date of a day. -/
def dateOf (day : Int) : Date :=
  let year := yearOf day
  let inYear := monthAndDay 1 (monthLengths year) (day - daysBefore year).toNat
  ⟨year, inYear.1, inYear.2⟩

end Calendar

namespace Instant

/-- Nanoseconds in a second. -/
def second : Nat := 1000000000

/-- Seconds in a day. -/
def day : Int := 86400

/-- Seconds of local time since the epoch. -/
def localSeconds (instant : Instant) : Int := instant.seconds + instant.offset

/-- The date in local time. -/
def date (instant : Instant) : Calendar.Date :=
  Calendar.dateOf (instant.localSeconds / day + Calendar.epochDay)

/-- The seconds since local midnight. -/
def secondOfDay (instant : Instant) : Nat := (instant.localSeconds % day).toNat

/-- The digits of a number, with zeros in front up to a width. -/
def padded (width value : Nat) : List Char :=
  let digits := Nat.toDigits 10 value
  List.replicate (width - digits.length) '0' ++ digits

/-- A year of at least four digits. Years outside 0 to 9999 carry a sign. -/
def yearText (year : Int) : List Char :=
  if year < 0 then '-' :: padded 4 year.natAbs
  else if year ≤ 9999 then padded 4 year.natAbs
  else '+' :: padded 4 year.natAbs

/-- The characters of an instant in local time. -/
def chars (instant : Instant) : List Char :=
  let date := instant.date
  let second := instant.secondOfDay
  yearText date.year ++ '-' :: padded 2 date.month ++ '-' :: padded 2 date.day ++
    ' ' :: padded 2 (second / 3600) ++ ':' :: padded 2 (second / 60 % 60) ++
    ':' :: padded 2 (second % 60 + instant.nanoseconds / Instant.second) ++
    '.' :: padded 6 (instant.nanoseconds % Instant.second / 1000)

/-- An instant in local time, to the microsecond. -/
def text (instant : Instant) : String := String.ofList instant.chars

end Instant

end CacheManifest
