import Offside.Syntax.DataType
import Offside.Syntax.Expr

/-!
# Statements and declarations

Statements nest through blocks. Variable declarations are kept apart from the statements that make
them, which hold their handles.
-/

namespace Offside

mutual

/-- A statement. -/
inductive Stmt where
  | block (body : Block)
  | returns (value : Expr) (span : Span)
  /-- An `if` with any `elif` branches in order, and the block of its `else`. -/
  | branch (branches : List Branch) (otherwise : Option Block) (span : Span)
  | forLoop (init : VarId) (condition step : Expr) (body : Block) (span : Span)
  | whileLoop (condition : Expr) (body : Block) (span : Span)
  | expression (value : Expr)
  /-- The declaration of a local variable. -/
  | declare (decl : VarId) (span : Span)
  | breakLoop (span : Span)
  | continueLoop (span : Span)

/-- Statements that run one after the other. -/
structure Block where
  /-- The statements, in order. -/
  body : List Stmt
  /-- From the first statement to the last. -/
  span : Span

/-- A block that runs under a condition. -/
structure Branch where
  /-- The condition. -/
  condition : Expr
  /-- The block. -/
  body : Block

end

instance : Inhabited Block := ⟨⟨[], default⟩⟩

instance : Inhabited Stmt := ⟨.block default⟩

namespace Stmt

/-- The stretch of source a statement was read from. -/
def span : Stmt → Span
  | block body => body.span
  | returns _ span | branch _ _ span | forLoop _ _ _ _ span | whileLoop _ _ span | declare _ span
  | breakLoop span | continueLoop span => span
  | expression value => value.span

/-- Whether a statement ends with an indented block, and so at the start of a line. -/
def closesWithBlock : Stmt → Bool
  | block _ | branch .. | forLoop .. | whileLoop .. => true
  | returns .. | expression _ | declare .. | breakLoop _ | continueLoop _ => false

/-- The declaration a statement makes itself. -/
def declared? : Stmt → Option VarId
  | declare decl _ => some decl
  | _ => none

end Stmt

mutual

/-- Whether a statement surely returns: a `return`, an `if` whose branches and `else` all end in a
statement that does, or a block that ends in one. -/
def Stmt.returnsAlways : Stmt → Bool
  | .returns .. => true
  | .branch branches (some otherwise) _ =>
    Block.returnsAlways otherwise && Branch.allReturnAlways branches
  | .block body => Block.returnsAlways body
  | _ => false

/-- Whether the last statement of a block surely returns. -/
def Block.returnsAlways : Block → Bool
  | ⟨body, _⟩ => Stmt.lastReturnsAlways body

/-- Whether the last of some statements surely returns. -/
def Stmt.lastReturnsAlways : List Stmt → Bool
  | [] => false
  | [last] => Stmt.returnsAlways last
  | _ :: rest => Stmt.lastReturnsAlways rest

/-- Whether the blocks of all of some branches surely return. -/
def Branch.allReturnAlways : List Branch → Bool
  | [] => true
  | ⟨_, body⟩ :: rest => Block.returnsAlways body && Branch.allReturnAlways rest

end

namespace Block

/-- The variables that the statements of a block declare themselves, in order. Those of nested
blocks and of loop headers are not among them. -/
def declared (block : Block) : List VarId :=
  block.body.filterMap Stmt.declared?

end Block

/-- The declaration of a variable, with its type and perhaps its first value. -/
structure VarDecl where
  /-- Its handle. -/
  id : VarId
  /-- The name declared. -/
  name : String
  /-- The type written behind the name. -/
  type : DataType
  /-- The first value. -/
  init : Option Expr
  /-- Where it was written. -/
  span : Span
  deriving Inhabited

/-- A parameter of a function. -/
structure Param where
  /-- The declaration of its name and type. -/
  decl : VarId
  /-- Where it was written. -/
  span : Span
  deriving DecidableEq, Repr, Inhabited

/-- The signature of a function. -/
structure Signature where
  /-- The name declared. -/
  name : String
  /-- The parameters, in order. -/
  params : List Param
  /-- The type returned. -/
  returnType : DataType
  /-- Where it was written. -/
  span : Span
  deriving Inhabited

/-- A function or method. -/
structure Function where
  /-- Its handle. -/
  id : FuncId
  /-- Its signature. -/
  signature : Signature
  /-- What it does. -/
  body : Block
  /-- Where it was written. -/
  span : Span
  deriving Inhabited

namespace Function

/-- The name of a function. -/
def name (function : Function) : String :=
  function.signature.name

end Function

/-- A record type, declared with the word `hotpot`. -/
structure RecordDecl where
  /-- Its handle. -/
  id : RecordId
  /-- The name declared. -/
  name : String
  /-- The record type it inherits from. -/
  parent : Option Name
  /-- The declarations of its properties, in order. -/
  properties : List VarId
  /-- Its methods, in order. -/
  methods : List Function
  /-- Where it was written. -/
  span : Span
  deriving Inhabited

namespace RecordDecl

/-- The first method of a record type with a given name. -/
def method? (record : RecordDecl) (name : String) : Option Function :=
  record.methods.find? fun method => method.name == name

end RecordDecl

end Offside
