/-
# Double precision in exact arithmetic

A finite non-negative double is a mantissa below 2^53 and a power of two. The
operations here round an exact quotient of natural numbers to the nearest
double, a tie going to the even mantissa; a value past the largest double is
refused. Signs are kept by whoever reads or writes the number.

Reading a decimal rounds three times: the digits, the power of ten, and their
product or quotient. That is less exact than rounding once, and the difference
shows in the last digit of some long numbers.
-/

namespace CacheManifest

/-- The value `mantissa * 2 ^ exponent`. -/
structure Binary64 where
  mantissa : Nat
  exponent : Int
deriving DecidableEq, Repr, Inhabited

namespace Binary64

/-- The exponent of the smallest doubles. -/
def leastExponent : Int := -1074

/-- The exponent of the largest doubles. -/
def greatestExponent : Int := 971

def zero : Binary64 := ⟨0, leastExponent⟩

/-- A quotient scaled by a power of two, as numerator and denominator. -/
def scaled (numerator denominator : Nat) (exponent : Int) : Nat × Nat :=
  if exponent ≥ 0 then (numerator, denominator * Nat.pow 2 exponent.toNat)
  else (numerator * Nat.pow 2 (-exponent).toNat, denominator)

/-- The nearest natural number to a quotient, a tie going to the even one. -/
def roundHalfEven (numerator denominator : Nat) : Nat :=
  let whole := numerator / denominator
  let rest := numerator % denominator
  if 2 * rest < denominator then whole
  else if 2 * rest > denominator then whole + 1
  else whole + whole % 2

/-- The exponent at which a quotient has a mantissa of 53 bits, or the least
exponent. -/
def exponentOf (numerator denominator : Nat) : Int :=
  let guess : Int := max leastExponent
    ((Nat.log2 numerator : Int) - (Nat.log2 denominator : Int) - 53)
  let parts := scaled numerator denominator guess
  if parts.1 / parts.2 ≥ Nat.pow 2 53 then guess + 1 else guess

/-- The double nearest to a quotient, unless it is past the largest one. -/
def ofQuotient? (numerator denominator : Nat) : Option Binary64 :=
  let exponent := exponentOf numerator denominator
  let parts := scaled numerator denominator exponent
  let mantissa := roundHalfEven parts.1 parts.2
  let rounded : Binary64 :=
    if mantissa = Nat.pow 2 53 then ⟨Nat.pow 2 52, exponent + 1⟩ else ⟨mantissa, exponent⟩
  if rounded.exponent > greatestExponent then none else some rounded

/-- The double nearest to a natural number in range, zero out of range. -/
def ofNat (value : Nat) : Binary64 := (ofQuotient? value 1).getD zero

/-- The rounded product. -/
def mul? (first second : Binary64) : Option Binary64 :=
  let parts := scaled (first.mantissa * second.mantissa) 1
    (-(first.exponent + second.exponent))
  ofQuotient? parts.1 parts.2

/-- The rounded quotient by a double that is not zero. -/
def div (first second : Binary64) : Binary64 :=
  let parts := scaled first.mantissa second.mantissa (second.exponent - first.exponent)
  (ofQuotient? parts.1 parts.2).getD zero

/-- The largest power of ten in one step of a scaling. -/
def decimalStep : Nat := 308

/-- Divide by the largest step as often as is asked, or until nothing is
left. -/
def sink : Nat → Binary64 → Binary64
  | 0, value => value
  | count + 1, value =>
    if value.mantissa = 0 then value else sink count (value.div (ofNat (Nat.pow 10 decimalStep)))

/-- The double read from digits and a power of ten, unless it is out of
range. -/
def ofDecimal? (digits : Nat) (exponent : Int) : Option Binary64 :=
  let value := ofNat digits
  if exponent ≥ 0 then
    if exponent.toNat ≤ decimalStep then value.mul? (ofNat (Nat.pow 10 exponent.toNat))
    else if value.mantissa = 0 then some value
    else none
  else
    let places := (-exponent).toNat
    let steps := (places - 1) / decimalStep
    let sunk := sink steps value
    if sunk.mantissa = 0 then some sunk
    else some (sunk.div (ofNat (Nat.pow 10 (places - steps * decimalStep))))

end Binary64

end CacheManifest
