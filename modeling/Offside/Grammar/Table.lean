import Offside.Token.Basic

/-!
# The grammar as a table

What a token means at a certain place depends on its kind alone: at the start of a statement, at the
start of an operand, or between two operands. A table holds these three readings.
-/

namespace Offside

/-- How tightly an operator binds its operands, from the loosest up. -/
inductive Precedence where
  /-- Looser than every operator. -/
  | default
  | assignment
  | logical
  | equality
  | relational
  | additive
  | multiplicative
  /-- Tighter than every operator between two operands. -/
  | unary
  deriving DecidableEq, Repr, Inhabited, Ord

namespace Precedence

/-- Every precedence, from the loosest up. -/
def all : List Precedence :=
  [default, assignment, logical, equality, relational, additive, multiplicative, unary]

/-- Precedences on a numeric scale. The higher one binds tighter. -/
def level : Precedence → Nat
  | default => 0
  | assignment => 30
  | logical => 40
  | equality => 50
  | relational => 60
  | additive => 100
  | multiplicative => 110
  | unary => 120

/-- The name of a precedence. -/
def name : Precedence → String
  | default => "Default"
  | assignment => "Assignment"
  | logical => "Logical"
  | equality => "Equality"
  | relational => "Relational"
  | additive => "Additive"
  | multiplicative => "Multiplicative"
  | unary => "Unary"

/-- The precedence with a given name. -/
def ofName? (text : String) : Option Precedence :=
  all.find? fun precedence => precedence.name == text

end Precedence

/-- The statements that start with a word of their own. -/
inductive StmtForm where
  | branch
  | forLoop
  | whileLoop
  | returns
  | breakLoop
  | continueLoop
  deriving DecidableEq, Repr, Inhabited

/-- The ways in which an operand starts. -/
inductive OperandForm where
  /-- A literal. -/
  | primary
  /-- A name: a variable, or the callee of a call. -/
  | symbol
  /-- An expression in parentheses. -/
  | grouping
  /-- Values in brackets. -/
  | array
  /-- An operator before its only operand. -/
  | signed
  deriving DecidableEq, Repr, Inhabited

/-- A table of what tokens mean at the start of a statement, at the start of an operand and between
two operands. -/
structure Grammar where
  /-- The statement that a token starts. -/
  stmtForm? : TokenKind → Option StmtForm
  /-- The operand that a token starts. -/
  operandForm? : TokenKind → Option OperandForm
  /-- How tightly a token binds the operands on its two sides. -/
  precedence? : TokenKind → Option Precedence

namespace Grammar

/-- The grammar in which no token starts anything. -/
def empty : Grammar :=
  ⟨fun _ => none, fun _ => none, fun _ => none⟩

/-- How tightly an operator binds the operands on its two sides, if it may stand between two. -/
def operatorPrecedence? : Operator → Option Precedence
  | .assign | .plusAssign | .minusAssign | .starAssign | .slashAssign | .percentAssign =>
    some .assignment
  | .and | .or => some .logical
  | .equal | .notEqual => some .equality
  | .less | .lessEqual | .greater | .greaterEqual => some .relational
  | .plus | .minus => some .additive
  | .star | .slash | .percent => some .multiplicative
  | .not => none

/-- The grammar of the language. -/
def full : Grammar where
  stmtForm?
    | .ifWord => some .branch
    | .forWord => some .forLoop
    | .whileWord => some .whileLoop
    | .returnWord => some .returns
    | .breakWord => some .breakLoop
    | .continueWord => some .continueLoop
    | _ => none
  operandForm?
    | .int | .float | .string | .trueWord | .falseWord | .nullWord => some .primary
    | .identifier => some .symbol
    | .openParen => some .grouping
    | .openBracket => some .array
    | .operator operator => if operator.isUnary then some .signed else none
    | _ => none
  precedence?
    | .operator operator => operatorPrecedence? operator
    | _ => none

end Grammar

end Offside
