import Offside.Grammar.Operators
import Offside.Grammar.TypeSpec

/-!
# Reading statements

A statement takes up the rest of its line, or ends with a block of lines that are indented one step
further. The readers of statements with blocks are written over a reader for blocks.
-/

namespace Offside.Parse

/-- Reads a variable declaration, adds it to the program and returns its handle. -/
def varDecl : ParseM VarId := do
  let name ← expectName "expected identifier during variable declaration"
  discard (expect .colon)
  let type ← typeSpec
  let init ←
    if (← kind) = .operator .assign then
      discard take
      pure (some (← expr))
    else pure none
  declareVar name.value type init (← spanSince name.span.start)

/-- Reads a block of statements, given a reader for its lines. It must not be empty. -/
def blockWith (line : ParseM Stmt) : ParseM Block := do
  let body ← indented (lines line)
  match body.head?, body.getLast? with
  | some first, some last => return ⟨body, ⟨first.span.start, last.span.stop⟩⟩
  | _, _ => failHere (.expectedToken "an indented block")

/-- Reads a condition and the block that runs under it. -/
def guarded (block : ParseM Block) : ParseM Branch := do
  let condition ← expr
  blockStart
  return ⟨condition, ← block⟩

/-- Reads an `if` with the `elif` and `else` lines that stand at its own column. -/
def branching (block : ParseM Block) : ParseM Stmt := do
  let column := (← get).indent
  let word ← take
  let first ← guarded block
  let others ← collect do
    modify ParseState.passBlankLines
    if ← atWord column .elifWord then
      discard take
      return some (← guarded block)
    else return none
  let otherwise ←
    if ← atWord column .elseWord then
      discard take
      blockStart
      pure (some (← block))
    else pure none
  return .branch (first :: others) otherwise (← spanSince word.span.start)

/-- Reads a `for` with its variable, its condition, its step and its block. -/
def forLoop (block : ParseM Block) : ParseM Stmt := do
  let word ← take
  let init ← varDecl
  discard (expect .comma)
  let condition ← expr
  discard (expect .comma)
  let step ← expr
  blockStart
  let body ← block
  return .forLoop init condition step body (← spanSince word.span.start)

/-- Reads a `while` with its condition and its block. -/
def whileLoop (block : ParseM Block) : ParseM Stmt := do
  let word ← take
  let branch ← guarded block
  return .whileLoop branch.condition branch.body (← spanSince word.span.start)

/-- Reads a `return` with its value. -/
def returns : ParseM Stmt := do
  let word ← take
  let value ← expr
  return .returns value (← spanSince word.span.start)

/-- Reads a `break`. -/
def breakLoop : ParseM Stmt :=
  return .breakLoop (← take).span

/-- Reads a `continue`. -/
def continueLoop : ParseM Stmt :=
  return .continueLoop (← take).span

/-- Reads a statement that starts with a word of its own. -/
def stmtForm (block : ParseM Block) : StmtForm → ParseM Stmt
  | .branch => branching block
  | .forLoop => forLoop block
  | .whileLoop => whileLoop block
  | .returns => returns
  | .breakLoop => breakLoop
  | .continueLoop => continueLoop

/-- Reads a statement, given a reader for its blocks. -/
def stmtWith (block : ParseM Block) : ParseM Stmt := do
  let state ← get
  match state.grammar.stmtForm? state.kind with
  | some form => stmtForm block form
  | none =>
    if state.startsDeclaration then
      let decl ← varDecl
      return .declare decl (← spanSince state.position)
    else return .expression (← expr)

/-- Reads a statement and the end of its line. A block ends where a line starts, and needs none. -/
def lineOf (stmt : ParseM Stmt) : ParseM Stmt := do
  let stmt ← stmt
  if stmt.closesWithBlock then return stmt
  else
    lineEnd
    return stmt

/-- Reads a statement whose blocks nest at most some levels deep. -/
def stmtWithin : (levels : Nat) → ParseM Stmt
  | 0 => exhausted
  | levels + 1 => stmtWith (blockWith (lineOf (stmtWithin levels)))

/-- Reads a statement. -/
def stmt : ParseM Stmt := do
  stmtWithin (← budget)

/-- Reads a statement and the end of its line. -/
def stmtLine : ParseM Stmt :=
  lineOf stmt

/-- Reads a block of statements. -/
def block : ParseM Block :=
  blockWith stmtLine

end Offside.Parse
