import Offside.Number.Decimal

/-!
# Binary64 numbers

Floating-point literals denote numbers of the 64-bit binary interchange format. A number is its bit
pattern, and a decimal numeral is rounded to the nearest number, a tie to the one whose last bit is
zero. All arithmetic is exact.
-/

namespace Offside.Number

/-- A binary64 number, as its bit pattern. -/
structure Binary64 where
  /-- Sign, eleven bits of exponent, fifty-two bits of fraction. -/
  bits : UInt64
  deriving DecidableEq, Repr, Inhabited

namespace Binary64

/-- The bits of positive infinity. -/
def infinityBits : Nat := 0x7FF0000000000000

/-- The bits of the quiet value that is no number, with a clear sign. -/
def nanBits : Nat := 0x7FF8000000000000

/-- The same number with the opposite sign. -/
def negate (number : Binary64) : Binary64 :=
  ⟨number.bits ^^^ 0x8000000000000000⟩

/-- The quotient rounded to the nearest integer, a tie to the even one. -/
def divideToEven (numerator denominator : Nat) : Nat :=
  let quotient := numerator / denominator
  let rest := numerator % denominator
  if 2 * rest < denominator then quotient
  else if denominator < 2 * rest then quotient + 1
  else quotient + quotient % 2

/-- The quotient of two positive numbers lies at or above this power of two and below the next. -/
def leadingPower (numerator denominator : Nat) : Int :=
  let guess : Int := numerator.log2 - denominator.log2
  let reaches :=
    if 0 ≤ guess then denominator <<< guess.toNat ≤ numerator
    else denominator ≤ numerator <<< (-guess).toNat
  if reaches then guess else guess - 1

/-- Least power of two that the last bit of a number can stand for. -/
def leastPower : Int := -1074

/-- The bits of the number nearest to a quotient.

The last bit kept stands for `2 ^ unit`. Adding the rounded quotient to the exponent field is right
in every case: a number without the leading bit has exponent zero, the leading bit counts as one
step of the exponent, and a carry out of the fraction is another. -/
def bitsOfQuotient (numerator denominator : Nat) : Nat :=
  if numerator = 0 then 0
  else
    let unit := max (leadingPower numerator denominator - 52) leastPower
    let rounded :=
      if 0 ≤ unit then divideToEven numerator (denominator <<< unit.toNat)
      else divideToEven (numerator <<< (-unit).toNat) denominator
    min (((unit - leastPower).toNat <<< 52) + rounded) infinityBits

/-- Powers of ten from this one on exceed every number of the format. -/
def overflowPower : Int := 310

/-- The bits of the number nearest to a decimal. The powers of ten that are formed are bounded by
the format and the length of the significand, whatever the exponent says. -/
def bitsOfDecimal (decimal : Decimal) : Nat :=
  if decimal.significand = 0 then 0
  else if overflowPower ≤ decimal.exponent then infinityBits
  else if 0 ≤ decimal.exponent then
    bitsOfQuotient (decimal.significand * Nat.pow 10 decimal.exponent.toNat) 1
  else if decimal.significand.log2 + 1 + 3 * decimal.exponent < leastPower - 1 then 0
  else bitsOfQuotient decimal.significand (Nat.pow 10 (-decimal.exponent).toNat)

/-- Reads the names of the numbers that have no digits, in any mixture of cases. -/
def named? (text : List Char) : Option Nat :=
  let name := text.map Char.toLower
  if name = "inf".toList || name = "infinity".toList then some infinityBits
  else if name = "nan".toList then some nanBits
  else none

/-- Reads a number: at most one sign, then a decimal numeral or a name. -/
def read? (text : List Char) : Option Binary64 :=
  let (negative, body) := splitSign text
  let bits? := ((Decimal.read? body).map bitsOfDecimal).or (named? body)
  bits?.map fun bits =>
    let number : Binary64 := ⟨UInt64.ofNat bits⟩
    if negative then number.negate else number

end Binary64

end Offside.Number
