import Offside.Traversal.Handlers

/-!
# The order of a traversal

A traversal goes through a program in a fixed order, whatever its handlers do: globals, record
types, functions, the entry point and free statements, and inside each of them the parts as they
stand in the source. It tells the handlers the address of every expression, and sets what surrounds
the nodes.
-/

namespace Offside

variable {σ ρ : Type}

mutual

/-- Visits an expression. -/
def traverseExpr (handlers : ExprHandlers σ ρ) (address : Address) : Expr → Visit σ ρ
  | node@(.literal value span) => handlers.expr address node (handlers.literal address value span)
  | node@(.array values span) =>
    handlers.expr address node
      (handlers.array address (elementParts handlers address 0 values) span)
  | node@(.reference name span) =>
    handlers.expr address node (handlers.reference address name span)
  | node@(.binary operator left right span) =>
    handlers.expr address node
      (handlers.binary address operator
        ⟨left, traverseExpr handlers (address.part .left) left⟩
        ⟨right, traverseExpr handlers (address.part .right) right⟩ span)
  | node@(.unary operator operand span) =>
    handlers.expr address node
      (handlers.unary address operator
        ⟨operand, traverseExpr handlers (address.part .operand) operand⟩ span)
  | node@(.call callee args span) =>
    handlers.expr address node
      (handlers.call address callee (argumentParts handlers address 0 args) span)
  | node@(.method receiver callee args span) =>
    handlers.expr address node
      (handlers.method address
        ⟨receiver, traverseExpr handlers (address.part .receiver) receiver⟩ callee
        (argumentParts handlers address 0 args) span)
  | node@(.property receiver member span) =>
    handlers.expr address node
      (handlers.property address
        ⟨receiver, traverseExpr handlers (address.part .receiver) receiver⟩ member span)

/-- The values of an array with their visits, of which the first has a given index. -/
def elementParts (handlers : ExprHandlers σ ρ) (address : Address) (index : Nat) :
    List Expr → List (Part σ ρ)
  | [] => []
  | value :: rest =>
    ⟨value, traverseExpr handlers (address.part (.element index)) value⟩
      :: elementParts handlers address (index + 1) rest

/-- The values of arguments with their visits, of which the first has a given index. -/
def argumentParts (handlers : ExprHandlers σ ρ) (address : Address) (index : Nat) :
    List Arg → List (Part σ ρ)
  | [] => []
  | ⟨_, value⟩ :: rest =>
    ⟨value, traverseExpr handlers (address.part (.argument index)) value⟩
      :: argumentParts handlers address (index + 1) rest

end

/-- Visits the first value of a variable, if it has one. -/
def traverseInit (handlers : ExprHandlers σ ρ) (decl : VarDecl) : Visit σ (Option ρ) := do
  match decl.init with
  | none => return none
  | some init => return some (← traverseExpr handlers (.ofRoot (.initializer decl.id)) init)

/-- Visits a variable declaration. -/
def traverseVarDecl (handlers : Handlers σ ρ) (decl : VarDecl) : Visit σ Unit :=
  handlers.varDecl decl (traverseInit handlers.toExprHandlers decl)

/-- Visits the variable declaration with a given handle. -/
def traverseHandle (handlers : Handlers σ ρ) (program : Program) (id : VarId) : Visit σ Unit := do
  traverseVarDecl handlers (← Visit.ofExcept (program.decl id))

/-- An expression at an address, with its visit. -/
def exprPart (handlers : ExprHandlers σ ρ) (address : Address) (expr : Expr) : Part σ ρ :=
  ⟨expr, traverseExpr handlers address expr⟩

mutual

/-- Visits a statement. -/
def traverseStmt (handlers : Handlers σ ρ) (program : Program) (address : Address) :
    Stmt → Visit σ Unit
  | node@(.block body) =>
    handlers.stmt node (traverseBlock handlers program (address.part (.body 0)) body)
  | node@(.returns value span) =>
    handlers.stmt node
      (handlers.returns (exprPart handlers.toExprHandlers (address.part .value) value) span)
  | node@(.branch branches otherwise _) =>
    handlers.stmt node <| handlers.branch branches do
      traverseBranches handlers program address 0 branches
      traverseOtherwise handlers program address otherwise
  | node@(.forLoop init condition step body _) =>
    handlers.stmt node <| handlers.forLoop do
      traverseHandle handlers program init
      discard (traverseExpr handlers.toExprHandlers (address.part (.condition 0)) condition)
      discard (traverseExpr handlers.toExprHandlers (address.part .update) step)
      Visit.inLoop (some node) (traverseBlock handlers program (address.part (.body 0)) body)
  | node@(.whileLoop condition body _) =>
    handlers.stmt node <| handlers.whileLoop do
      discard (traverseExpr handlers.toExprHandlers (address.part (.condition 0)) condition)
      Visit.inLoop (some node) (traverseBlock handlers program (address.part (.body 0)) body)
  | node@(.expression value) =>
    handlers.stmt node
      (handlers.expression (exprPart handlers.toExprHandlers (address.part .value) value))
  | node@(.declare decl _) =>
    handlers.stmt node (handlers.declare (traverseHandle handlers program decl))
  | node@(.breakLoop span) => handlers.stmt node (handlers.breakLoop span)
  | node@(.continueLoop span) => handlers.stmt node (handlers.continueLoop span)

/-- Visits a block. -/
def traverseBlock (handlers : Handlers σ ρ) (program : Program) (address : Address) :
    Block → Visit σ Unit
  | node@⟨body, _⟩ =>
    handlers.block node (Visit.inBlock (some node) (traverseStmts handlers program address 0 body))

/-- Visits the statements of a block, of which the first has a given index. -/
def traverseStmts (handlers : Handlers σ ρ) (program : Program) (address : Address) (index : Nat) :
    List Stmt → Visit σ Unit
  | [] => return
  | stmt :: rest => do
    traverseStmt handlers program (address.part (.statement index)) stmt
    traverseStmts handlers program address (index + 1) rest

/-- Visits the branches of an `if`, of which the first has a given index. -/
def traverseBranches (handlers : Handlers σ ρ) (program : Program) (address : Address)
    (index : Nat) : List Branch → Visit σ Unit
  | [] => return
  | ⟨condition, body⟩ :: rest => do
    discard (traverseExpr handlers.toExprHandlers (address.part (.condition index)) condition)
    traverseBlock handlers program (address.part (.body index)) body
    traverseBranches handlers program address (index + 1) rest

/-- Visits the block of an `else`, if there is one. -/
def traverseOtherwise (handlers : Handlers σ ρ) (program : Program) (address : Address) :
    Option Block → Visit σ Unit
  | none => return
  | some body => traverseBlock handlers program (address.part .otherwise) body

end

/-- Visits a parameter. -/
def traverseParam (handlers : Handlers σ ρ) (program : Program) (param : Param) : Visit σ Unit :=
  handlers.param param (traverseHandle handlers program param.decl)

/-- Visits a signature. -/
def traverseSignature (handlers : Handlers σ ρ) (program : Program) (signature : Signature) :
    Visit σ Unit :=
  handlers.signature signature (signature.params.forM (traverseParam handlers program))

/-- Visits a function or method whose body hangs at a given place. -/
def traverseFunction (handlers : Handlers σ ρ) (program : Program) (root : Root)
    (function : Function) : Visit σ Unit :=
  handlers.function function <| Visit.inFunction (some function) do
    traverseSignature handlers program function.signature
    traverseBlock handlers program (.ofRoot root) function.body

/-- Visits the record type at a given index. -/
def traverseRecord (handlers : Handlers σ ρ) (program : Program) (index : Nat)
    (record : RecordDecl) : Visit σ Unit :=
  handlers.record record <| Visit.inRecord (some record) do
    record.properties.forM (traverseHandle handlers program)
    record.methods.zipIdx.forM fun (method, methodIndex) =>
      traverseFunction handlers program (.method index methodIndex) method

/-- Visits a declaration. -/
def traverseDecl (handlers : Handlers σ ρ) (program : Program) (decl : Declaration) :
    Visit σ Unit :=
  handlers.decl decl <|
    match decl with
    | .var decl => traverseVarDecl handlers decl
    | .param param => traverseParam handlers program param
    | .signature signature => traverseSignature handlers program signature
    | .function root function => traverseFunction handlers program root function
    | .record index record => traverseRecord handlers program index record

/-- Visits a program: globals, record types, functions, the entry point and free statements. -/
def traverseProgram (handlers : Handlers σ ρ) (program : Program) : Visit σ Unit := do
  program.globals.forM fun id => do
    traverseDecl handlers program (.var (← Visit.ofExcept (program.decl id)))
  program.records.zipIdx.forM fun (record, index) =>
    traverseDecl handlers program (.record index record)
  program.functions.zipIdx.forM fun (function, index) =>
    traverseDecl handlers program (.function (.function index) function)
  program.main.toList.forM fun function =>
    traverseDecl handlers program (.function .main function)
  program.statements.zipIdx.forM fun (stmt, index) =>
    traverseStmt handlers program (.ofRoot (.statement index)) stmt

end Offside
