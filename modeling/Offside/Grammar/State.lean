import Offside.Grammar.Table
import Offside.Syntax.Program

/-!
# States of reading

The state of reading a program stands before some token of a list that ends with the end of the
input, knows the column at which the lines of the current block start, and holds the program read so
far. This module says how it moves over tokens, blanks and blank lines, none of which ever passes
the end of the input.
-/

namespace Offside

/-- The state of the work of reading a program. -/
structure ParseState where
  /-- The tokens from the current one on, without the closing one. -/
  rest : List Token
  /-- The token that closes the list. -/
  closing : Token
  /-- The column at which the lines of the current block start. -/
  indent : Nat := 0
  /-- The end of the last token read that is neither blank nor a line break. -/
  lastEnd : Position
  /-- The program read so far. -/
  program : Program := .empty
  /-- The number that the next function or record type gets. -/
  nextId : Nat := 0
  /-- The table of the language. -/
  grammar : Grammar := .full

namespace ParseState

/-- Columns from a block to the one around it. -/
def stepWidth : Nat := 4

/-- The state before the first of some tokens. A list that does not end with the end of the input
is taken to end with it where its last token ends. -/
def ofTokens (tokens : List Token) (file : String) (grammar : Grammar := .full) : ParseState :=
  let start := Position.ofByte file 0
  match tokens.getLast? with
  | none => { rest := [], closing := .endOfInput start, lastEnd := start, grammar }
  | some last =>
    if last.kind = .eof then
      { rest := tokens.dropLast, closing := last, lastEnd := start, grammar }
    else { rest := tokens, closing := .endOfInput last.span.stop, lastEnd := start, grammar }

/-- The token that the state stands before. -/
def current (state : ParseState) : Token :=
  state.rest.headD state.closing

/-- The kind of the current token. -/
def kind (state : ParseState) : TokenKind :=
  state.current.kind

/-- The kind of the token some places ahead of the current one. Past the list there is only the end
of the input. -/
def kindAhead (state : ParseState) (ahead : Nat) : TokenKind :=
  (state.rest[ahead]?.map Token.kind).getD .eof

/-- The place of the current token. -/
def position (state : ParseState) : Position :=
  state.current.span.start

/-- Whether a token of this kind is passed over without moving the end of what has been read. -/
def isSpacing (kind : TokenKind) : Bool :=
  kind.isBlank || kind == .newline

/-- Past the current token. The end of the input is never passed. -/
def pass (state : ParseState) : ParseState :=
  { state with
    rest := if state.kind = .eof then state.rest else state.rest.tail
    lastEnd := if isSpacing state.kind then state.lastEnd else state.current.span.stop }

/-- Past the blanks before the next token of the line. -/
def passBlanks (state : ParseState) : ParseState :=
  { state with rest := state.rest.dropWhile fun token => token.kind.isBlank }

/-- The blanks at the cursor. -/
def margin (state : ParseState) : List Token :=
  state.rest.takeWhile fun token => token.kind.isBlank

/-- The columns that one blank takes up. A tab counts as one step of indentation. -/
def blankWidth : TokenKind → Nat
  | .space => 1
  | .tab => stepWidth
  | _ => 0

/-- The columns that some blanks take up. -/
def width : List Token → Nat
  | [] => 0
  | blank :: rest => blankWidth blank.kind + width rest

/-- The columns that the blanks at the cursor take up. -/
def column (state : ParseState) : Nat :=
  width state.margin

/-- Whether the state stands before a name and a colon, which start a variable declaration. -/
def startsDeclaration (state : ParseState) : Bool :=
  match state.rest with
  | [] => false
  | token :: rest =>
    token.kind == .identifier &&
      ({ state with rest }.passBlanks).kind == .colon

/-- Given the tokens from the start of a line on, and those of them that follow some of its blanks,
leaves out the lines that hold nothing but blanks, and the blanks before the end of the input. -/
def dropBlankLines : (line rest : List Token) → List Token
  | _, [] => []
  | line, token :: rest =>
    if token.kind.isBlank then dropBlankLines line rest
    else if token.kind = .newline then dropBlankLines rest rest
    else if token.kind = .eof then token :: rest
    else line

/-- Past the lines that hold nothing but blanks. -/
def passBlankLines (state : ParseState) : ParseState :=
  { state with rest := dropBlankLines state.rest state.rest }

/-- One step deeper. -/
def deeper (state : ParseState) : ParseState :=
  { state with indent := state.indent + stepWidth }

/-- One step back. The outermost column is never left. -/
def shallower (state : ParseState) : ParseState :=
  { state with indent := state.indent - stepWidth }

/-- The stretch from a place to the end of what has been read. -/
def spanSince (state : ParseState) (start : Position) : Span :=
  ⟨start, state.lastEnd⟩

end ParseState

end Offside
