import Offside.Grammar.Repetition

/-!
# Reading types

A type is written as a name in any number of bracket pairs, each of which stands for an array of
what is inside.
-/

namespace Offside.Parse

/-- Takes all tokens of one kind that follow one another, and returns how many there are. -/
def countOf (repeated : TokenKind) : ParseM Nat := do
  let tokens ← collect do
    if (← kind) = repeated then return some (← take) else return none
  return tokens.length

/-- Takes the name of a type. The word for the null value is also the name of its type. -/
def typeName : ParseM DataType := do
  match ← kind with
  | .identifier | .nullWord => return DataType.ofName (← take).value
  | _ => failHere (.expectedToken "type name")

/-- Reads a type. Brackets that do not match are reported at its start. -/
def typeSpec : ParseM DataType := do
  let start := (← get).position
  let opened ← countOf .openBracket
  let element ← typeName
  let closed ← countOf .closeBracket
  if closed = opened then return element.nested opened
  else
    fail (.unexpectedTokenDetailed (← get).current.designation "unbalanced brackets in type") start

end Offside.Parse
