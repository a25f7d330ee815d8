import Offside.Number.Binary64
import Offside.Syntax.Name
import Offside.Token.Operator

/-!
# Expressions

The trees of expressions. Every node keeps the stretch of source it was read from; grouping
parentheses leave no node of their own.
-/

namespace Offside

/-- A constant written in a program. -/
inductive Literal where
  | null
  /-- An integer of 64 signed bits. -/
  | int (value : Int)
  | float (value : Number.Binary64)
  | bool (value : Bool)
  | string (value : String)
  deriving DecidableEq, Repr, Inhabited

mutual

/-- An expression. -/
inductive Expr where
  | literal (value : Literal) (span : Span)
  /-- The array of some values, in order. -/
  | array (values : List Expr) (span : Span)
  /-- A reference to a variable. -/
  | reference (name : String) (span : Span)
  | binary (operator : Operator) (left right : Expr) (span : Span)
  | unary (operator : Operator) (operand : Expr) (span : Span)
  /-- The call of a function, or of the constructor of a record type. -/
  | call (callee : Name) (args : List Arg) (span : Span)
  /-- The call of a method of the receiver. -/
  | method (receiver : Expr) (callee : Name) (args : List Arg) (span : Span)
  /-- A property of the receiver. -/
  | property (receiver : Expr) (member : Name) (span : Span)

/-- One labelled argument of a call. -/
structure Arg where
  /-- The label before the colon. -/
  label : Name
  /-- The value behind it. -/
  value : Expr

end

namespace Expr

instance : Inhabited Expr := ⟨literal default default⟩

/-- The stretch of source an expression was read from. -/
def span : Expr → Span
  | literal _ span | array _ span | reference _ span | binary _ _ _ span | unary _ _ span
  | call _ _ span | method _ _ _ span | property _ _ span => span

/-- Whether an expression is an array written out. -/
def isArray : Expr → Bool
  | array .. => true
  | _ => false

end Expr

end Offside
