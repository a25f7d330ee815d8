/-!
# Durations as texts

A duration is a number of nanoseconds. It is written in the largest unit of which it has at least
one, with as many decimal places as it needs.
-/

namespace Offside.Number.Duration

/-- The decimal places of a fraction, given by the number of units of the last of them, without the
zeros at the end. -/
def decimals (places fraction : Nat) : List Char :=
  let digits := Nat.toDigits 10 fraction
  let padded := List.replicate (places - digits.length) '0' ++ digits
  (padded.reverse.dropWhile fun c => c == '0').reverse

/-- A number of parts of a unit, as a number of units. The parts are the last of some decimal places
of the unit. -/
def inUnits (places parts : Nat) (unit : String) : String :=
  let scale := Nat.pow 10 places
  let whole := toString (parts / scale)
  match decimals places (parts % scale) with
  | [] => whole ++ unit
  | fraction => whole ++ "." ++ String.ofList fraction ++ unit

/-- The text of a number of nanoseconds. -/
def text (nanoseconds : Nat) : String :=
  if 1000000000 ≤ nanoseconds then inUnits 9 nanoseconds "s"
  else if 1000000 ≤ nanoseconds then inUnits 6 nanoseconds "ms"
  else if 1000 ≤ nanoseconds then inUnits 3 nanoseconds "µs"
  else inUnits 0 nanoseconds "ns"

end Offside.Number.Duration
