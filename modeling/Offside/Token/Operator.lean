/-!
# Operators

The operators of expressions, their symbols and the way each combines its operands. The main
statement, `ofSymbol?_eq_some_iff`, says that reading a symbol and writing an operator are inverse.
-/

namespace Offside

/-- An operator of the language. -/
inductive Operator where
  | plus
  | minus
  | star
  | slash
  | percent
  | assign
  | plusAssign
  | minusAssign
  | starAssign
  | slashAssign
  | percentAssign
  | equal
  | notEqual
  | less
  | lessEqual
  | greater
  | greaterEqual
  | and
  | or
  | not
  deriving DecidableEq, Repr, Inhabited

/-- How an operator combines its operands. -/
inductive OperatorClass where
  /-- Two operands of one type give a value of that type. -/
  | arithmetic
  /-- Two operands of one type give a truth value. -/
  | comparison
  /-- Two truth values give a truth value. -/
  | logical
  /-- The right operand is stored in the left one, whose type it has. -/
  | assignment
  deriving DecidableEq, Repr, Inhabited

namespace OperatorClass

/-- The name of a class of operators. -/
def name : OperatorClass → String
  | arithmetic => "Arithmetic"
  | comparison => "Comparison"
  | logical => "Logical"
  | assignment => "Assignment"

end OperatorClass

namespace Operator

/-- Every operator, once. -/
def all : List Operator :=
  [plus, minus, star, slash, percent, assign, plusAssign, minusAssign, starAssign, slashAssign,
    percentAssign, equal, notEqual, less, lessEqual, greater, greaterEqual, and, or, not]

theorem mem_all (operator : Operator) : operator ∈ all := by
  cases operator <;> decide

/-- The spelling of an operator. -/
def symbol : Operator → String
  | plus => "+"
  | minus => "-"
  | star => "*"
  | slash => "/"
  | percent => "%"
  | assign => "="
  | plusAssign => "+="
  | minusAssign => "-="
  | starAssign => "*="
  | slashAssign => "/="
  | percentAssign => "%="
  | equal => "=="
  | notEqual => "!="
  | less => "<"
  | lessEqual => "<="
  | greater => ">"
  | greaterEqual => ">="
  | and => "&&"
  | or => "||"
  | not => "!"

/-- The operator with a given spelling. -/
def ofSymbol? (text : String) : Option Operator :=
  all.find? fun operator => operator.symbol == text

/-- Different operators have different spellings. -/
theorem symbol_injective {a b : Operator} (h : a.symbol = b.symbol) : a = b := by
  have key : ∀ a ∈ all, ∀ b ∈ all, a.symbol = b.symbol → a = b := by decide
  exact key a (mem_all a) b (mem_all b) h

/-- A text is read as an operator exactly when it is that operator's symbol. -/
theorem ofSymbol?_eq_some_iff {text : String} {operator : Operator} :
    ofSymbol? text = some operator ↔ operator.symbol = text := by
  constructor
  · intro h
    simpa using List.find?_some h
  · rintro rfl
    cases h : ofSymbol? operator.symbol with
    | none =>
      have := List.find?_eq_none.1 h operator (mem_all operator)
      simp at this
    | some found =>
      have : found.symbol = operator.symbol := by simpa using List.find?_some h
      rw [symbol_injective this]

/-- Whether an operator may stand before a single operand. -/
def isUnary : Operator → Bool
  | minus | not => true
  | _ => false

/-- The class an operator belongs to. -/
def operatorClass : Operator → OperatorClass
  | plus | minus | star | slash | percent => .arithmetic
  | assign | plusAssign | minusAssign | starAssign | slashAssign | percentAssign => .assignment
  | equal | notEqual | less | lessEqual | greater | greaterEqual => .comparison
  | and | or | not => .logical

end Operator

end Offside
