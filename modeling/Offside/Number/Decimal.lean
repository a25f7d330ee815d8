import Offside.Number.Digits

/-!
# Decimal numerals with a fraction and an exponent

A numeral such as `12.5e-3` denotes `significand * 10 ^ exponent`.
-/

namespace Offside.Number

/-- The number `significand * 10 ^ exponent`. -/
structure Decimal where
  /-- The digits without the point. -/
  significand : Nat
  /-- The power of ten that the significand is scaled by. -/
  exponent : Int
  deriving DecidableEq, Repr

namespace Decimal

/-- An exponent that has grown to this bound takes up no more digits. -/
def exponentBound : Nat := 65536

/-- The value of the digits of an exponent, of which those past the bound are ignored. -/
def exponentValue (digits : List Char) : Nat :=
  digits.foldl
    (fun value digit => if value < exponentBound then 10 * value + digitValue digit else value) 0

/-- Reads the part after the digits: nothing, or `e` and an integer. -/
def exponent? : List Char → Option Int
  | [] => some 0
  | mark :: rest =>
    let (negative, digits) := splitSign rest
    if (mark == 'e' || mark == 'E') && isNumeral digits then
      let magnitude : Int := exponentValue digits
      some (if negative then -magnitude else magnitude)
    else none

/-- Reads the digits behind a point, if there is one, and returns what follows them. -/
def splitFraction : List Char → List Char × List Char
  | '.' :: rest => rest.span Char.isDigit
  | rest => ([], rest)

/-- Reads an unsigned numeral. On one side of the point at least there must be a digit. -/
def read? (text : List Char) : Option Decimal :=
  let (whole, rest) := text.span Char.isDigit
  let (fraction, rest) := splitFraction rest
  if whole.isEmpty && fraction.isEmpty then none
  else (exponent? rest).map fun exponent =>
    { significand := digitsValue (whole ++ fraction)
      exponent := exponent - fraction.length }

end Decimal

end Offside.Number
