import Offside.Grammar.Blocks
import Offside.Token.Lexer

/-!
# Reading programs

A program is read line by line from the outermost column. A line that declares a global variable, a
function or a record type enters it into the program at once; any other is a free statement.
-/

namespace Offside

namespace Parse

/-- Reads a parameter: a name, a colon and a type. -/
def param : ParseM Param := do
  let label ← expect .identifier
  discard (expect .colon)
  let type ← typeSpec
  let span ← spanSince label.span.start
  return ⟨← declareVar label.value type none span, span⟩

/-- Reads the type that a function returns. Where none is written, it returns nothing. -/
def returnType : ParseM DataType := do
  match ← kind with
  | .newline | .eof => return .null
  | _ => typeSpec

/-- Reads a function. Its number is taken once its body has been read. -/
def function : ParseM Function := do
  let word ← take
  let name ← expect .identifier
  discard (expect .openParen)
  let params ← commaSeparated .closeParen param
  discard (expect .closeParen)
  discard (expect .colon)
  let returnType ← returnType
  let signature : Signature :=
    ⟨name.value, params, returnType, ← spanSince word.span.start⟩
  lineEnd
  let body ← block
  let id ← freshId
  return ⟨⟨id⟩, signature, body, ← spanSince word.span.start⟩

/-- A line of the body of a record type. -/
inductive Member where
  | property (decl : VarId)
  | method (function : Function)

/-- The property that a member is. -/
def Member.property? : Member → Option VarId
  | .property decl => some decl
  | .method _ => none

/-- The method that a member is. -/
def Member.method? : Member → Option Function
  | .property _ => none
  | .method function => some function

/-- Reads a property or a method of a record type. -/
def recordMember : ParseM Member := do
  let state ← get
  if state.kind = .defWord then return .method (← function)
  else if state.startsDeclaration then
    let decl ← varDecl
    lineEnd
    return .property decl
  else
    failHere fun token =>
      .unexpectedTokenDetailed token "expected a property or method in hotpot body"

/-- Reads the parent of a record type. A colon alone names none. -/
def recordParent : ParseM (Option Name) := do
  if (← kind) = .colon then
    discard take
    if (← kind) = .identifier then return some (nameOf (← take)) else return none
  else return none

/-- Reads a record type. Its body may be empty, and its number is taken once that has been read. -/
def record : ParseM RecordDecl := do
  let word ← take
  let name ← expect .identifier
  let parent ← recordParent
  lineEnd
  let members ← indented (lines recordMember)
  let id ← freshId
  return {
    id := ⟨id⟩
    name := name.value
    parent
    properties := members.filterMap Member.property?
    methods := members.filterMap Member.method?
    span := ← spanSince word.span.start }

/-- Reads a line of the outermost block and adds what it says to the program. -/
def topLevel : ParseM Unit := do
  let state ← get
  match state.kind with
  | .defWord =>
    let function ← function
    register fun program => program.insertFunction function
  | .hotpotWord =>
    let record ← record
    register fun program => program.insertRecord record
  | _ =>
    if state.startsDeclaration then
      let decl ← varDecl
      lineEnd
      register fun program => program.insertGlobal decl
    else
      let stmt ← stmtLine
      register fun program => .ok (program.insertStmt stmt)

/-- Reads all lines of a program. -/
def program : ParseM Program := do
  discard (lines topLevel)
  return (← get).program

end Parse

/-- The program that some tokens spell. -/
def Program.ofTokens (tokens : List Token) (file : String := Position.defaultFile) :
    Except Error Program :=
  (Parse.program.run (ParseState.ofTokens tokens file)).1

/-- The program that a source text spells. -/
def Program.ofSource (source : String) (file : String := Position.defaultFile) :
    Except Error Program := do
  Program.ofTokens (← Token.scan source file) file

end Offside
