import Offside.Number.Digits

/-!
# Signed 64-bit integers as texts

Integer literals denote the integers from `-2^63` up to `2^63 - 1`.
-/

namespace Offside.Number.Signed64

/-- The least integer of 64 signed bits. -/
def lowest : Int := -0x8000000000000000

/-- The greatest integer of 64 signed bits. -/
def highest : Int := 0x7FFFFFFFFFFFFFFF

/-- Whether an integer fits into 64 signed bits. -/
def fits (value : Int) : Bool :=
  lowest ≤ value && value ≤ highest

/-- Reads an integer: digits, after at most one sign. A value that does not fit is refused. -/
def read? (text : List Char) : Option Int :=
  let (negative, digits) := splitSign text
  if isNumeral digits then
    let magnitude : Int := digitsValue digits
    let value := if negative then -magnitude else magnitude
    if fits value then some value else none
  else none

/-- What is read fits. -/
theorem fits_of_read? {text : List Char} {value : Int} (h : read? text = some value) :
    fits value = true := by
  simp only [read?, Option.ite_none_right_eq_some, Option.some.injEq] at h
  exact h.2.2 ▸ h.2.1

end Offside.Number.Signed64
