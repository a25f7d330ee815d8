import Offside.Grammar.Repetition
import Offside.Number.Signed64

/-!
# Reading expressions

An operand is a primary or an operator before an operand, followed by any members that are asked of
it. Between operands stand operators, of which those that bind tighter are grouped first and equal
ones from the left.

The readers of compound operands are written over a reader for the operands inside them. An operand
passes at least one token before it reads another, so as many levels as there are tokens suffice.
-/

namespace Offside

namespace Expr

/-- The expression that an operator makes of the operand behind it. A minus before a number is part
of the number, unless its opposite does not fit. -/
def ofSigned (operator : Operator) (operand : Expr) (span : Span) : Expr :=
  match operator, operand with
  | .minus, .literal (.int value) _ =>
    if value = Number.Signed64.lowest then unary operator operand span
    else literal (.int (-value)) span
  | .minus, .literal (.float value) _ => literal (.float value.negate) span
  | _, _ => unary operator operand span

end Expr

namespace Parse

open Number

/-- Reads a literal. -/
def primary : ParseM Expr := do
  let token ← take
  match token.kind with
  | .int =>
    match Signed64.read? token.value.toList with
    | some value => return .literal (.int value) token.span
    | none => fail (.numberParseError token.value) token.span.start
  | .float =>
    match Binary64.read? token.value.toList with
    | some value => return .literal (.float value) token.span
    | none => fail (.numberParseError token.value) token.span.start
  | .string => return .literal (.string token.value) token.span
  | .trueWord => return .literal (.bool true) token.span
  | .falseWord => return .literal (.bool false) token.span
  | .nullWord => return .literal .null token.span
  | _ => fail (.unexpectedToken token.designation) token.span.start

/-- A token as a name. -/
def nameOf (token : Token) : Name :=
  ⟨token.value, token.span⟩

/-- Reads the arguments of a call, with their parentheses. -/
def arguments (expr : ParseM Expr) : ParseM (List Arg) := do
  discard (expect .openParen)
  let args ← commaSeparated .closeParen do
    let label ← expect .identifier
    discard (expect .colon)
    return ⟨nameOf label, ← expr⟩
  discard (expect .closeParen)
  return args

/-- Reads a name, which is a call if arguments follow and a variable otherwise. -/
def symbol (expr : ParseM Expr) : ParseM Expr := do
  let token ← take
  if (← kind) = .openParen then
    let args ← arguments expr
    return .call (nameOf token) args (← spanSince token.span.start)
  else return .reference token.value token.span

/-- Reads an expression in parentheses. -/
def grouping (expr : ParseM Expr) : ParseM Expr := do
  discard take
  let inner ← expr
  discard (expect .closeParen)
  return inner

/-- Reads the values of an array in brackets. -/
def array (expr : ParseM Expr) : ParseM Expr := do
  let bracket ← take
  let values ← commaSeparated .closeBracket expr
  discard (expect .closeBracket)
  return .array values (← spanSince bracket.span.start)

/-- Reads an operator and the operand behind it. An integer directly behind a minus is read together
with it, so that the least integer can be written. -/
def signed (operand : ParseM Expr) : ParseM Expr := do
  let sign ← take
  match sign.kind with
  | .operator operator =>
    if operator.isUnary then
      if operator = .minus ∧ (← kind) = .int then
        let digits ← take
        match Signed64.read? ('-' :: digits.value.toList) with
        | some value => return .literal (.int value) ⟨sign.span.start, digits.span.stop⟩
        | none => fail (.numberParseError digits.value) digits.span.start
      else
        let inner ← operand
        return .ofSigned operator inner ⟨sign.span.start, inner.span.stop⟩
    else fail (.unexpectedToken sign.designation) sign.span.start
  | _ => fail (.unexpectedToken sign.designation) sign.span.start

/-- Reads a member of a receiver, if a point follows: a method if arguments follow its name, and a
property otherwise. -/
def member (expr : ParseM Expr) (receiver : Expr) : ParseM (Option Expr) := do
  if (← kind) = .dot then
    discard take
    let name ← expectName "expected member name after '.'"
    if (← kind) = .openParen then
      let args ← arguments expr
      return some (.method receiver (nameOf name) args (← spanSince receiver.span.start))
    else return some (.property receiver (nameOf name) (← spanSince receiver.span.start))
  else return none

/-- Reads what an operand starts with. -/
def operandForm (expr operand : ParseM Expr) : OperandForm → ParseM Expr
  | .primary => primary
  | .symbol => symbol expr
  | .grouping => grouping expr
  | .array => array expr
  | .signed => signed operand

/-- Reads an operand with its members, given readers for what is inside it. -/
def operandWith (expr operand : ParseM Expr) : ParseM Expr := do
  let state ← get
  match state.grammar.operandForm? state.kind with
  | none => failHere .unexpectedToken
  | some form => iterate (member expr) (← operandForm expr operand form)

/-- Reads an operator of a given precedence and its right operand, which takes in the operators
behind it that bind tighter. -/
def binaryWith (operand : ParseM Expr) (climb : (least : Nat) → Expr → ParseM Expr) (left : Expr)
    (precedence : Precedence) : ParseM Expr := do
  let token ← take
  match token.kind with
  | .operator operator =>
    let first ← operand
    let state ← get
    let tighter := (state.grammar.precedence? state.kind).any fun next =>
      precedence.level < next.level
    let right ← if tighter then climb (precedence.level + 1) first else pure first
    return .binary operator left right ⟨left.span.start, right.span.stop⟩
  | _ => fail (.unexpectedToken token.designation) token.span.start

/-- Takes operators that bind at least as tightly as `least`, with their right operands, into a left
operand, at most a number of times. -/
def climbWithin (operand : ParseM Expr) : (times least : Nat) → (left : Expr) → ParseM Expr
  | 0, _, _ => exhausted
  | times + 1, least, left => do
    let state ← get
    match state.grammar.precedence? state.kind with
    | none => return left
    | some precedence =>
      if precedence.level < least then return left
      else
        climbWithin operand times least
          (← binaryWith operand (climbWithin operand times) left precedence)

/-- Takes operators that bind at least as tightly as `least`, with their right operands, into a left
operand. -/
def climb (operand : ParseM Expr) (least : Nat) (left : Expr) : ParseM Expr := do
  climbWithin operand (← budget) least left

/-- Reads an expression whose operators bind at least as tightly as `least`, given a reader for its
operands. -/
def exprWith (operand : ParseM Expr) (least : Nat) : ParseM Expr := do
  climb operand least (← operand)

/-- Reads an operand that nests at most some levels deep. -/
def operandWithin : (levels : Nat) → ParseM Expr
  | 0 => exhausted
  | levels + 1 =>
    operandWith (exprWith (operandWithin levels) Precedence.default.level)
      (operandWithin levels)

/-- Reads an operand. -/
def operand : ParseM Expr := do
  operandWithin (← budget)

/-- Reads an expression whose operators bind at least as tightly as a given precedence. -/
def exprFrom (precedence : Precedence) : ParseM Expr :=
  exprWith operand precedence.level

/-- Reads an expression. -/
def expr : ParseM Expr :=
  exprFrom .default

end Parse

end Offside
