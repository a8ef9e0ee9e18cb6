import ProxyLint.Json.Document
import ProxyLint.Json.Binary64

/-!
# JSON numbers

A literal without a decimal point and an exponent is an integer if it fits 64
bits.  Every other literal is a floating-point number: the digits that fit 64
bits are taken as an integer and scaled by a power of ten, which rounds once
for the integer and once for the scaling.  A literal that is too large is not
acceptable.
-/

namespace ProxyLint

namespace Json

inductive Number where
  | natural (value : Nat)
  | negative (magnitude : Nat)
  | binary (value : Binary64)
deriving DecidableEq, Repr

/-- A significand together with the power of ten that scales it. -/
structure Scaled where
  significand : Nat
  exponent : Int
deriving DecidableEq, Repr

def digitValue (character : Char) : Nat :=
  character.toNat - '0'.toNat

def naturalOfDigits (digits : List Char) : Nat :=
  digits.foldl (fun value digit => value * 10 + digitValue digit) 0

/-- One more than the largest significand. -/
def significandBound : Nat := Nat.pow 2 64

/-- Read the whole part.  From the first digit that does not fit on, digits
only raise the power of ten. -/
def readWhole (scaled : Scaled) : List Char → Scaled
  | [] => scaled
  | digit :: rest =>
      let next := scaled.significand * 10 + digitValue digit
      if next < significandBound then readWhole { scaled with significand := next } rest
      else { scaled with exponent := (digit :: rest).length }

/-- Read the fraction up to the first digit that does not fit. -/
def readFraction (scaled : Scaled) : List Char → Scaled
  | [] => scaled
  | digit :: rest =>
      let next := scaled.significand * 10 + digitValue digit
      if next < significandBound then
        readFraction ⟨next, scaled.exponent - 1⟩ rest
      else scaled

/-- The largest power of ten that is applied in one step. -/
def largestPower : Nat := 308

/-- Apply a power of ten that was rounded to a floating-point number. -/
def timesPower? (number : Binary64) (power : Nat) : Option Binary64 := do
  number.times? (← Binary64.nearest? false (Nat.pow 10 power) 1)

def overPower? (number : Binary64) (power : Nat) : Option Binary64 := do
  number.over? (← Binary64.nearest? false (Nat.pow 10 power) 1)

/-- Divide by a power of ten, in several steps if it is too large for one. -/
def scaleDown? (number : Binary64) (power : Nat) : Option Binary64 :=
  if power ≤ largestPower then overPower? number power
  else if number.isZero then some number
  else do scaleDown? (← overPower? number largestPower) (power - largestPower)
termination_by power
decreasing_by simp only [largestPower] at *; omega

/-- Multiply by a power of ten.  Only zero may be scaled beyond the largest
power. -/
def scaleUp? (number : Binary64) (power : Nat) : Option Binary64 :=
  if power ≤ largestPower then timesPower? number power
  else if number.isZero then some number
  else none

def Scaled.number? (negative : Bool) (scaled : Scaled) : Option Binary64 := do
  let number ← Binary64.nearest? negative scaled.significand 1
  if scaled.exponent < 0 then scaleDown? number scaled.exponent.natAbs
  else scaleUp? number scaled.exponent.natAbs

/-- One more than the largest written exponent that is applied as it is. -/
def exponentBound : Nat := Nat.pow 2 31

namespace NumberLiteral

/-- Apply the written exponent.  One that does not fit 32 bits makes the
number zero, or too large. -/
def applyExponent? (negative : Bool) (scaled : Scaled)
    (exponent : ExponentLiteral) : Option Binary64 :=
  let magnitude := naturalOfDigits exponent.digits
  if magnitude < exponentBound then
    Scaled.number? negative
      { scaled with
        exponent :=
          if exponent.negative then scaled.exponent - magnitude
          else scaled.exponent + magnitude }
  else if scaled.significand = 0 ∨ exponent.negative then
    Binary64.nearest? negative 0 1
  else none

/-- The floating-point number of a literal. -/
def binary? (literal : NumberLiteral) : Option Binary64 :=
  let scaled := readFraction (readWhole ⟨0, 0⟩ literal.whole) literal.fraction
  match literal.exponent with
  | none => Scaled.number? literal.negative scaled
  | some exponent => applyExponent? literal.negative scaled exponent

def isInteger (literal : NumberLiteral) : Bool :=
  literal.fraction.isEmpty && literal.exponent.isNone

/-- The natural number of a literal that is written as one and fits 64 bits. -/
def natural? (literal : NumberLiteral) : Option Nat :=
  let value := naturalOfDigits literal.whole
  if literal.isInteger && !literal.negative && decide (value < significandBound)
  then some value
  else none

/-- The magnitude of a negative literal that is written as an integer and fits
64 bits with a sign. -/
def negativeMagnitude? (literal : NumberLiteral) : Option Nat :=
  let value := naturalOfDigits literal.whole
  if literal.isInteger && literal.negative && decide (0 < value) &&
      decide (value ≤ Nat.pow 2 63)
  then some value
  else none

/-- The number that a literal stands for, if it is not too large. -/
def number? (literal : NumberLiteral) : Option Number :=
  match literal.natural?, literal.negativeMagnitude? with
  | some value, _ => some (.natural value)
  | none, some magnitude => some (.negative magnitude)
  | none, none => .binary <$> literal.binary?

end NumberLiteral

def digitsOf (value : Nat) : List Char :=
  Nat.toDigits 10 value

/-- The exponent mark and the exponent after it, always with a sign. -/
def writtenExponent (exponent : Int) : List Char :=
  'e' :: (if exponent < 0 then '-' else '+') :: digitsOf exponent.natAbs

/-- A shortest decimal, positional if its point stands within the first
sixteen digits or after at most four zeros, and with an exponent otherwise. -/
def writtenDecimal (decimal : ShortDecimal) : List Char :=
  let digits := digitsOf decimal.digits
  let point : Int := digits.length + decimal.exponent
  if 0 ≤ decimal.exponent ∧ point ≤ 16 then
    digits ++ List.replicate decimal.exponent.natAbs '0' ++ ['.', '0']
  else if 0 < point ∧ point ≤ 16 then
    digits.take point.natAbs ++ '.' :: digits.drop point.natAbs
  else if -5 < point ∧ point ≤ 0 then
    '0' :: '.' :: (List.replicate point.natAbs '0' ++ digits)
  else
    match digits with
    | [digit] => digit :: writtenExponent (point - 1)
    | digit :: rest => digit :: '.' :: (rest ++ writtenExponent (point - 1))
    | [] => []

/-- The shortest text that reads back as a floating-point number. -/
def writtenBinary (number : Binary64) : List Char :=
  (if number.negative then ['-'] else []) ++ writtenDecimal number.shortest

def Number.written : Number → List Char
  | .natural value => digitsOf value
  | .negative magnitude => '-' :: digitsOf magnitude
  | .binary value => writtenBinary value

end Json

end ProxyLint
