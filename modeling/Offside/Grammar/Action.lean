import Offside.Grammar.State

/-!
# Actions of reading

An action reads tokens and may fail. What it did before it failed stays done, so that reading can go
on from there.
-/

namespace Offside

/-- An action that reads something. An error leaves the state where it arose. -/
abbrev ParseM := ExceptT Error (StateM ParseState)

namespace Parse

/-- Fails with a cause, at a place. -/
def fail {α : Type} (cause : ErrorCause) (position : Position) : ParseM α :=
  throw ⟨cause, position⟩

/-- Fails with a cause that is made from what the current token is called, at that token. -/
def failHere {α : Type} (cause : String → ErrorCause) : ParseM α := do
  let state ← get
  fail (cause state.current.designation) state.position

/-- The kind of the current token. -/
def kind : ParseM TokenKind :=
  return (← get).kind

/-- Passes the current token, and returns it. -/
def pass : ParseM Token := do
  let state ← get
  set state.pass
  return state.current

/-- Passes the blanks at the cursor. -/
def passBlanks : ParseM Unit :=
  modify ParseState.passBlanks

/-- Passes the current token and the blanks behind it, and returns the token. -/
def take : ParseM Token := do
  let token ← pass
  passBlanks
  return token

/-- Takes a token of a certain kind. -/
def expect (expected : TokenKind) : ParseM Token := do
  if (← kind) = expected then take else failHere (.expectedToken expected.name)

/-- Takes a token of a certain kind, and fails with a given error if there is another. -/
def expectOr (expected : TokenKind) (error : Error) : ParseM Token := do
  if (← kind) = expected then take else throw error

/-- Takes a name, and says in its own words that one is missing. -/
def expectName (complaint : String) : ParseM Token := do
  if (← kind) = .identifier then take
  else failHere fun token => .unexpectedTokenDetailed token complaint

/-- Requires the line to end, and passes its end. -/
def lineEnd : ParseM Unit := do
  passBlanks
  match ← kind with
  | .newline => discard pass
  | .eof => pure ()
  | _ => failHere (.expectedToken "end of line")

/-- Requires the colon and the line break that introduce an indented block. -/
def blockStart : ParseM Unit := do
  discard (expect .colon)
  lineEnd

/-- The stretch from a place to the end of what has been read. -/
def spanSince (start : Position) : ParseM Span :=
  return (← get).spanSince start

/-- Decides whether the next line belongs to the current block. A line at the column of the block
does, and its margin is passed. One that is set back by whole steps does not. No other line may
follow. -/
def moreLines : ParseM Bool := do
  modify ParseState.passBlankLines
  let state ← get
  if state.kind = .eof then return false
  else if state.column = state.indent then
    passBlanks
    return true
  else if state.column < state.indent ∧ state.column % ParseState.stepWidth = 0 then return false
  else
    fail (.indentationError state.indent state.column) state.passBlanks.position

/-- Passes the margin of a line that stands at a column and goes on with a certain word, and says
whether there is one. -/
def atWord (column : Nat) (word : TokenKind) : ParseM Bool := do
  let state ← get
  if state.column = column ∧ state.passBlanks.kind = word then
    passBlanks
    return true
  else return false

/-- Passes the margin before an `elif` or `else` at a column, and returns which of them it is. -/
def alternative (column : Nat) : ParseM (Option TokenKind) := do
  if ← atWord column .elifWord then return some .elifWord
  else if ← atWord column .elseWord then return some .elseWord
  else return none

/-- Hands out the next number for a function or record type. -/
def freshId : ParseM Nat := do
  let state ← get
  set { state with nextId := state.nextId + 1 }
  return state.nextId

/-- Adds a variable declaration to the program. -/
def declareVar (name : String) (type : DataType) (init : Option Expr) (span : Span) :
    ParseM VarId := do
  let state ← get
  set { state with program := state.program.insertDecl name type init span }
  return state.program.nextDecl

/-- Changes the program, or fails and leaves it as it is. -/
def register (add : Program → Except Error Program) : ParseM Unit := do
  let state ← get
  match add state.program with
  | .ok program => set { state with program }
  | .error error => throw error

/-- Runs an action inside a block, which is left whether or not the action fails. -/
def indented {α : Type} (action : ParseM α) : ParseM α := ExceptT.mk do
  modify ParseState.deeper
  let result ← action.run
  modify ParseState.shallower
  return result

/-- The block is left whatever the outcome is, which is that of the action. -/
@[simp] theorem run_indented {α : Type} (action : ParseM α) (state : ParseState) :
    (indented action).run.run state =
      ((action.run.run state.deeper).1, (action.run.run state.deeper).2.shallower) := rfl

end Parse

end Offside
