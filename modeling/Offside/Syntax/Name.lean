import Offside.Source.Position

/-!
# Names and handles

Names are kept as they were written. Variable declarations, functions and record types also have a
handle, a number that stays the same when the name is shadowed or repeated.
-/

namespace Offside

/-- A name as written in a source text. -/
structure Name where
  /-- The name. -/
  text : String
  /-- Where it was written. -/
  span : Span
  deriving DecidableEq, Repr, Inhabited

/-- Handle of a variable declaration: its index among all declarations of a program. -/
structure VarId where
  /-- The index. -/
  index : Nat
  deriving DecidableEq, Repr, Inhabited

/-- Handle of a function or method. -/
structure FuncId where
  /-- Its number in the count that functions and record types share. -/
  number : Nat
  deriving DecidableEq, Repr, Inhabited

/-- Handle of a record type. -/
structure RecordId where
  /-- Its number in the count that functions and record types share. -/
  number : Nat
  deriving DecidableEq, Repr, Inhabited

end Offside
