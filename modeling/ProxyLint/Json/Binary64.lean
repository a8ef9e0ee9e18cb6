/-!
# Finite binary floating-point numbers

A number of the 64-bit binary format is a sign, a significand below `2 ^ 53`
and a power of two.  Arithmetic is exact on natural numbers with one rounding
at the end, to the nearest number and in a tie to the even significand.  The
module also finds the shortest decimal that reads back as a given number.
-/

namespace ProxyLint

/-- The magnitude `significand * 2 ^ exponent` with a sign.  Zero has both. -/
structure Binary64 where
  negative : Bool
  significand : Nat
  exponent : Int
deriving DecidableEq, Repr

/-- The decimal `digits * 10 ^ exponent`. -/
structure ShortDecimal where
  digits : Nat
  exponent : Int
deriving DecidableEq, Repr

namespace Binary64

/-- The exponent of the smallest positive number. -/
def lowestExponent : Int := -1074

/-- The exponent of the largest numbers. -/
def highestExponent : Int := 971

/-- The nearest natural number to a quotient, in a tie the even one. -/
def roundQuotient (numerator denominator : Nat) : Nat :=
  let quotient := numerator / denominator
  let doubled := 2 * (numerator % denominator)
  if doubled < denominator then quotient
  else if denominator < doubled then quotient + 1
  else quotient + quotient % 2

/-- Multiply a quotient by a power of the base. -/
def scaleQuotient (base : Nat) (numerator denominator : Nat) (power : Int) :
    Nat × Nat :=
  if power < 0 then (numerator, denominator * base.pow power.natAbs)
  else (numerator * base.pow power.natAbs, denominator)

/-- The power of two for which a quotient has a significand of 53 bits, or of
fewer bits if the quotient is very small. -/
def exponentOf (numerator denominator : Nat) : Int :=
  let guess : Int := (numerator.log2 : Int) - denominator.log2 - 52
  let (scaled, unit) := scaleQuotient 2 numerator denominator (-guess)
  max lowestExponent (if scaled / unit < Nat.pow 2 52 then guess - 1 else guess)

/-- The nearest number to a quotient, if it is not beyond the largest one. -/
def nearest? (negative : Bool) (numerator denominator : Nat) :
    Option Binary64 :=
  if numerator = 0 then some ⟨negative, 0, lowestExponent⟩
  else
    let exponent := exponentOf numerator denominator
    let (scaled, unit) := scaleQuotient 2 numerator denominator (-exponent)
    let significand := roundQuotient scaled unit
    let number : Binary64 :=
      if significand = Nat.pow 2 53 then ⟨negative, Nat.pow 2 52, exponent + 1⟩
      else ⟨negative, significand, exponent⟩
    if highestExponent < number.exponent then none else some number

def ratio (number : Binary64) : Nat × Nat :=
  scaleQuotient 2 number.significand 1 number.exponent

def isZero (number : Binary64) : Bool :=
  number.significand == 0

def times? (first second : Binary64) : Option Binary64 :=
  nearest? (first.negative != second.negative)
    (first.ratio.1 * second.ratio.1) (first.ratio.2 * second.ratio.2)

def over? (first second : Binary64) : Option Binary64 :=
  nearest? (first.negative != second.negative)
    (first.ratio.1 * second.ratio.2) (first.ratio.2 * second.ratio.1)

def digitCount (value : Nat) : Nat :=
  (Nat.toDigits 10 value).length

/-- The largest power of ten that is not above a positive quotient. -/
def decimalMagnitude (numerator denominator : Nat) : Int :=
  if denominator ≤ numerator then
    (digitCount (numerator / denominator) : Int) - 1
  else -(digitCount ((denominator - 1) / numerator) : Int)

/-- Whether a decimal reads back as a number. -/
def readsBack (number : Binary64) (decimal : ShortDecimal) : Bool :=
  let (numerator, denominator) :=
    scaleQuotient 10 decimal.digits 1 decimal.exponent
  nearest? number.negative numerator denominator == some number

/-- The decimal with a given number of digits that reads back as the number.
If both neighbours do, the nearer one is taken. -/
def decimalOfLength? (number : Binary64) (length : Nat) :
    Option ShortDecimal :=
  let (numerator, denominator) := number.ratio
  let exponent := decimalMagnitude numerator denominator - (length : Int) + 1
  let (scaled, unit) := scaleQuotient 10 numerator denominator (-exponent)
  let below : ShortDecimal := ⟨scaled / unit, exponent⟩
  let above : ShortDecimal := ⟨scaled / unit + 1, exponent⟩
  match number.readsBack below, number.readsBack above with
  | true, true => some ⟨roundQuotient scaled unit, exponent⟩
  | true, false => some below
  | false, true => some above
  | false, false => none

/-- The first length from a list at which a decimal reads back. -/
def firstDecimal? (number : Binary64) : List Nat → Option ShortDecimal
  | [] => none
  | length :: lengths =>
      match number.decimalOfLength? length with
      | some decimal => some decimal
      | none => number.firstDecimal? lengths

/-- Move the zeros at the end of the digits into the exponent. -/
def stripZeros (digits : Nat) (exponent : Int) : ShortDecimal :=
  if digits = 0 then ⟨0, 0⟩
  else if digits % 10 = 0 then stripZeros (digits / 10) (exponent + 1)
  else ⟨digits, exponent⟩
termination_by digits
decreasing_by omega

/-- The decimal with the fewest digits that reads back as the number.
Seventeen digits are always enough. -/
def shortest (number : Binary64) : ShortDecimal :=
  if number.isZero then ⟨0, 0⟩
  else
    match number.firstDecimal? (List.range' 1 17) with
    | some decimal => stripZeros decimal.digits decimal.exponent
    | none => ⟨0, 0⟩

end Binary64

end ProxyLint
