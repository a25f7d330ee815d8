import Offside.Grammar.Action

/-!
# Repetition

Whatever is repeated passes at least one token each time, so it is done at most as often as there
are tokens left, and once more to find that it is over. That number bounds every repetition and
every nesting.
-/

namespace Offside.Parse

/-- More than the number of times that anything can be repeated or nested from here on. -/
def budget : ParseM Nat :=
  return (← get).rest.length + 1

/-- Fails because a repetition has used up its budget. No input brings this about. -/
def exhausted {α : Type} : ParseM α := do
  fail (.internalError "no progress") (← get).position

/-- Applies a step to a value again and again, at most a number of times, until it gives no new
value. -/
def iterateWithin {α : Type} (step : α → ParseM (Option α)) : (times : Nat) → α → ParseM α
  | 0, _ => exhausted
  | times + 1, value => do
    match ← step value with
    | none => return value
    | some next => iterateWithin step times next

/-- Applies a step to a value again and again until it gives no new value. -/
def iterate {α : Type} (step : α → ParseM (Option α)) (value : α) : ParseM α := do
  iterateWithin step (← budget) value

/-- The items that an action gives, at most a number of times, until it gives none. -/
def collectWithin {α : Type} (item : ParseM (Option α)) : (times : Nat) → ParseM (List α)
  | 0 => exhausted
  | times + 1 => do
    match ← item with
    | none => return []
    | some first => return first :: (← collectWithin item times)

/-- The items that an action gives until it gives none. -/
def collect {α : Type} (item : ParseM (Option α)) : ParseM (List α) := do
  collectWithin item (← budget)

/-- Items with commas between them, up to a closing token that is not taken. There may be none. -/
def commaSeparated {α : Type} (close : TokenKind) (item : ParseM α) : ParseM (List α) := do
  if (← kind) = close then return []
  else
    let first ← item
    let others ← collect do
      if (← kind) = .comma then
        discard take
        return some (← item)
      else return none
    return first :: others

/-- The lines of the current block, as long as it continues. -/
def lines {α : Type} (line : ParseM α) : ParseM (List α) :=
  collect do
    if ← moreLines then return some (← line) else return none

end Offside.Parse
