/-
# The fewest digits that read back

A double is written with the fewest decimal digits that round to it, and of
those with the nearest to its exact value. For each number of digits from one
to seventeen the two neighbours of the value on that decimal grid are tested
against the interval of numbers that round to the double; the first grid with
a neighbour inside decides.

The digits are set out positionally from 0.00001 up to below 10^16, with at
least one place after the point, and with an exponent outside that range.
-/

import CacheManifest.Decimal.Binary64

namespace CacheManifest

namespace Shortest

/-- The decimal `digits * 10 ^ exponent`. -/
structure Decimal where
  digits : Nat
  exponent : Int
deriving DecidableEq, Repr, Inhabited

/-- A decimal as a quotient of natural numbers. -/
def Decimal.quotient (decimal : Decimal) : Nat × Nat :=
  if decimal.exponent ≥ 0 then (decimal.digits * Nat.pow 10 decimal.exponent.toNat, 1)
  else (decimal.digits, Nat.pow 10 (-decimal.exponent).toNat)

/-- A quarter-unit multiple `quarters * 2 ^ (exponent - 2)` as a quotient. -/
def quarters (count : Nat) (exponent : Int) : Nat × Nat :=
  if exponent - 2 ≥ 0 then (count * Nat.pow 2 (exponent - 2).toNat, 1)
  else (count, Nat.pow 2 (2 - exponent).toNat)

/-- Whether a quotient is below another, or equal to it where that counts. -/
def below (inclusive : Bool) (first second : Nat × Nat) : Bool :=
  let left := first.1 * second.2
  let right := second.1 * first.2
  if inclusive then left ≤ right else left < right

/-- Whether a decimal rounds to a double. The ends of the interval belong to
an even mantissa, and the lower half is narrower below a power of two. -/
def readsBack (value : Binary64) (decimal : Decimal) : Bool :=
  let inclusive := value.mantissa % 2 = 0
  let lowest :=
    if value.mantissa = Nat.pow 2 52 ∧ value.exponent > Binary64.leastExponent then
      4 * value.mantissa - 1
    else 4 * value.mantissa - 2
  below inclusive (quarters lowest value.exponent) decimal.quotient &&
    below inclusive decimal.quotient (quarters (4 * value.mantissa + 2) value.exponent)

/-- The decimal place of the first digit of a positive quotient: the greatest
power of ten not above it, found near an estimate from the bit length. -/
def firstPlace (numerator denominator : Nat) : Int :=
  let reaches (place : Int) : Bool :=
    if place ≥ 0 then denominator * Nat.pow 10 place.toNat ≤ numerator
    else denominator ≤ numerator * Nat.pow 10 (-place).toNat
  let bits : Int := (Nat.log2 numerator : Int) - (Nat.log2 denominator : Int)
  let estimate : Int := (bits * 30103).fdiv 100000
  if reaches (estimate + 1) then estimate + 1
  else if reaches estimate then estimate
  else estimate - 1

/-- The distance of two quotients, over a common denominator. -/
def distance (first second : Nat × Nat) : Nat × Nat :=
  let left := first.1 * second.2
  let right := second.1 * first.2
  (max left right - min left right, first.2 * second.2)

/-- The nearer of the two neighbours on a grid that reads back, if one does. -/
def onGrid? (value : Binary64) (place : Int) (count : Nat) : Option Decimal :=
  let exact := quarters (4 * value.mantissa) value.exponent
  let unit := place - (count - 1 : Nat)
  let floor :=
    if unit ≥ 0 then exact.1 / (exact.2 * Nat.pow 10 unit.toNat)
    else exact.1 * Nat.pow 10 (-unit).toNat / exact.2
  let lower : Decimal := ⟨floor, unit⟩
  let upper : Decimal := ⟨floor + 1, unit⟩
  match readsBack value lower, readsBack value upper with
  | true, true =>
    let down := distance exact lower.quotient
    let up := distance exact upper.quotient
    if below false down up then some lower
    else if below false up down then some upper
    else some (if floor % 2 = 0 then lower else upper)
  | true, false => some lower
  | false, true => some upper
  | false, false => none

/-- The shortest decimal of a positive double. -/
def ofBinary64 (value : Binary64) : Decimal :=
  let exact := quarters (4 * value.mantissa) value.exponent
  let place := firstPlace exact.1 exact.2
  ((List.range 17).findSome? fun count => onGrid? value place (count + 1)).getD ⟨0, 0⟩

/-- The digits of a decimal without zeros at the end, and the place of the
first one. -/
def significant (decimal : Decimal) : List Char × Int :=
  let all := Nat.toDigits 10 decimal.digits
  ((all.reverse.dropWhile (· == '0')).reverse, decimal.exponent + ((all.length - 1 : Nat) : Int))

/-- Whether a number whose first digit has this place is set out without an
exponent. -/
def positional (place : Int) : Bool := -5 ≤ place && place < 16

/-- Digits with the point in its place, or with an exponent. -/
def setOut (digits : List Char) (place : Int) : List Char :=
  if positional place then
    if place < 0 then
      ['0', '.'] ++ List.replicate ((-place).toNat - 1) '0' ++ digits
    else
      let before := place.toNat + 1
      let whole := digits.take before ++ List.replicate (before - digits.length) '0'
      let fraction := digits.drop before
      whole ++ '.' :: (if fraction.isEmpty then ['0'] else fraction)
  else
    let fraction := digits.drop 1
    digits.take 1 ++ (if fraction.isEmpty then [] else '.' :: fraction) ++ ['e'] ++
      [if place < 0 then '-' else '+'] ++ Nat.toDigits 10 place.natAbs

/-- A double as text, without its sign. -/
def text (value : Binary64) : List Char :=
  if value.mantissa = 0 then ['0', '.', '0']
  else
    let shown := significant (ofBinary64 value)
    setOut shown.1 shown.2

end Shortest

end CacheManifest
