import Offside.Proofs.Restoring.Surroundings

/-! # Traversals restore what surrounds them

If the handlers go inside of things only for the duration of an action, then so does every visit of
a traversal: by induction over the nodes, with the handlers left open.
-/

namespace Offside

variable {σ ρ : Type}

open Visit

section Pieces

variable (handlers : Handlers σ ρ) (program : Program)

/-- What the handler for the sort of an expression does with its parts. -/
def visitSort (handlers : ExprHandlers σ ρ) (address : Address) : Expr → Visit σ ρ
  | .literal value span => handlers.literal address value span
  | .array values span => handlers.array address (elementParts handlers address 0 values) span
  | .reference name span => handlers.reference address name span
  | .binary operator left right span =>
    handlers.binary address operator (exprPart handlers (address.part .left) left)
      (exprPart handlers (address.part .right) right) span
  | .unary operator operand span =>
    handlers.unary address operator (exprPart handlers (address.part .operand) operand) span
  | .call callee args span =>
    handlers.call address callee (argumentParts handlers address 0 args) span
  | .method receiver callee args span =>
    handlers.method address (exprPart handlers (address.part .receiver) receiver) callee
      (argumentParts handlers address 0 args) span
  | .property receiver member span =>
    handlers.property address (exprPart handlers (address.part .receiver) receiver) member span

/-- The parts of an expression, with their visits. -/
def partsOf (handlers : ExprHandlers σ ρ) (address : Address) : Expr → List (Part σ ρ)
  | .literal .. | .reference .. => []
  | .array values _ => elementParts handlers address 0 values
  | .binary _ left right _ =>
    [exprPart handlers (address.part .left) left, exprPart handlers (address.part .right) right]
  | .unary _ operand _ => [exprPart handlers (address.part .operand) operand]
  | .call _ args _ => argumentParts handlers address 0 args
  | .method receiver _ args _ =>
    exprPart handlers (address.part .receiver) receiver :: argumentParts handlers address 0 args
  | .property receiver _ _ => [exprPart handlers (address.part .receiver) receiver]

/-- Visits the parts of a statement. -/
def visitParts (address : Address) : Stmt → Visit σ Unit
  | .block body => traverseBlock handlers program (address.part (.body 0)) body
  | .returns value _ | .expression value =>
    discard (traverseExpr handlers.toExprHandlers (address.part .value) value)
  | .branch branches otherwise _ => do
    traverseBranches handlers program address 0 branches
    traverseOtherwise handlers program address otherwise
  | node@(.forLoop init condition step body _) => do
    traverseHandle handlers program init
    discard (traverseExpr handlers.toExprHandlers (address.part (.condition 0)) condition)
    discard (traverseExpr handlers.toExprHandlers (address.part .update) step)
    Visit.inLoop (some node) (traverseBlock handlers program (address.part (.body 0)) body)
  | node@(.whileLoop condition body _) => do
    discard (traverseExpr handlers.toExprHandlers (address.part (.condition 0)) condition)
    Visit.inLoop (some node) (traverseBlock handlers program (address.part (.body 0)) body)
  | .declare decl _ => traverseHandle handlers program decl
  | .breakLoop _ | .continueLoop _ => return

/-- What the handler for the sort of a statement does with its parts. -/
def visitForm (address : Address) : Stmt → Visit σ Unit
  | .returns value span =>
    handlers.returns (exprPart handlers.toExprHandlers (address.part .value) value) span
  | .expression value =>
    handlers.expression (exprPart handlers.toExprHandlers (address.part .value) value)
  | .breakLoop span => handlers.breakLoop span
  | .continueLoop span => handlers.continueLoop span
  | node@(.block _) => visitParts handlers program address node
  | node@(.branch branches _ _) => handlers.branch branches (visitParts handlers program address node)
  | node@(.forLoop ..) => handlers.forLoop (visitParts handlers program address node)
  | node@(.whileLoop ..) => handlers.whileLoop (visitParts handlers program address node)
  | node@(.declare ..) => handlers.declare (visitParts handlers program address node)

/-- Visits the parts of a function. -/
def visitFunction (root : Root) (function : Function) : Visit σ Unit :=
  Visit.inFunction (some function) do
    traverseSignature handlers program function.signature
    traverseBlock handlers program (.ofRoot root) function.body

/-- Visits the members of a record type. -/
def visitMembers (index : Nat) (record : RecordDecl) : Visit σ Unit :=
  Visit.inRecord (some record) do
    record.properties.forM (traverseHandle handlers program)
    record.methods.zipIdx.forM fun (method, methodIndex) =>
      traverseFunction handlers program (.method index methodIndex) method

/-- Visits a declaration as what it is. -/
def visitDecl : Declaration → Visit σ Unit
  | .var decl => traverseVarDecl handlers decl
  | .param param => traverseParam handlers program param
  | .signature signature => traverseSignature handlers program signature
  | .function root function => traverseFunction handlers program root function
  | .record index record => traverseRecord handlers program index record

variable {handlers program}

theorem traverseExpr_eq {handlers : ExprHandlers σ ρ} (address : Address) (expr : Expr) :
    traverseExpr handlers address expr =
      handlers.expr address expr (visitSort handlers address expr) := by
  cases expr <;> rfl

theorem traverseStmt_eq (address : Address) (stmt : Stmt) :
    traverseStmt handlers program address stmt =
      handlers.stmt stmt (visitForm handlers program address stmt) := by
  cases stmt <;> rfl

theorem traverseDecl_eq (decl : Declaration) :
    traverseDecl handlers program decl = handlers.decl decl (visitDecl handlers program decl) := by
  cases decl <;> rfl

variable (handlers program)

/-- The calls that a traversal is made of: of every node, of the handlers for it, and of its parts.
-/
inductive Handlers.Calls : ∀ {α : Type}, Visit σ α → Prop where
  | program : Calls (traverseProgram handlers program)
  | decl (decl) : Calls (traverseDecl handlers program decl)
  | declAs (decl) : Calls (visitDecl handlers program decl)
  | varDecl (decl) : Calls (traverseVarDecl handlers decl)
  | init (decl) : Calls (traverseInit handlers.toExprHandlers decl)
  | handle (id) : Calls (traverseHandle handlers program id)
  | param (param) : Calls (traverseParam handlers program param)
  | signature (signature) : Calls (traverseSignature handlers program signature)
  | params (params : List Param) : Calls (params.forM (traverseParam handlers program))
  | function (root function) : Calls (traverseFunction handlers program root function)
  | functionParts (root function) : Calls (visitFunction handlers program root function)
  | record (index record) : Calls (traverseRecord handlers program index record)
  | members (index record) : Calls (visitMembers handlers program index record)
  | stmt (address stmt) : Calls (traverseStmt handlers program address stmt)
  | stmtForm (address stmt) : Calls (visitForm handlers program address stmt)
  | stmtParts (address stmt) : Calls (visitParts handlers program address stmt)
  | block (address block) : Calls (traverseBlock handlers program address block)
  | blockParts (address block) :
    Calls (Visit.inBlock (some block) (traverseStmts handlers program address 0 block.body))
  | expr (address expr) : Calls (traverseExpr handlers.toExprHandlers address expr)
  | exprSort (address expr) : Calls (visitSort handlers.toExprHandlers address expr)
  | exprParts (address expr) :
    Calls ((partsOf handlers.toExprHandlers address expr).forM fun part => discard part.visit)

end Pieces

section Exprs

variable {handlers : ExprHandlers σ ρ}

/-- What is done with the parts of an expression restores what surrounds it if their visits do. -/
theorem visitSort_restores_of_parts (h : handlers.Orderly) {address : Address} {expr : Expr}
    (parts : ∀ visit ∈ (partsOf handlers address expr).map Part.visit, visit.Restores) :
    (visitSort handlers address expr).Restores := by
  cases expr with
  | literal value span => exact (h.literal _ _ _).restores_of_parts parts
  | array values span => exact (h.array _ _ _).restores_of_parts parts
  | reference name span => exact (h.reference _ _ _).restores_of_parts parts
  | binary operator left right span => exact (h.binary _ _ _ _ _).restores_of_parts parts
  | unary operator operand span => exact (h.unary _ _ _ _).restores_of_parts parts
  | call callee args span => exact (h.call _ _ _ _).restores_of_parts parts
  | method receiver callee args span => exact (h.method _ _ _ _ _).restores_of_parts parts
  | property receiver member span => exact (h.property _ _ _ _).restores_of_parts parts

theorem traverseExpr_restores_of_parts (h : handlers.Orderly) {address : Address} {expr : Expr}
    (parts : ∀ visit ∈ (partsOf handlers address expr).map Part.visit, visit.Restores) :
    (traverseExpr handlers address expr).Restores := by
  rw [traverseExpr_eq]
  exact (h.expr _ _ _).restores_of_part (visitSort_restores_of_parts h parts)

mutual

/-- The visits of the parts of an expression restore what surrounds them. -/
theorem partsOf_restore (h : handlers.Orderly) (address : Address) : (expr : Expr) →
    ∀ visit ∈ (partsOf handlers address expr).map Part.visit, visit.Restores
  | .literal .. | .reference .. => List.forall_mem_nil _
  | .array values _ => elementParts_restore h address 0 values
  | .binary _ left right _ => List.forall_mem_cons.2
    ⟨traverseExpr_restores_of_parts h (partsOf_restore h _ left),
      List.forall_mem_singleton.2 (traverseExpr_restores_of_parts h (partsOf_restore h _ right))⟩
  | .unary _ operand _ => List.forall_mem_singleton.2
    (traverseExpr_restores_of_parts h (partsOf_restore h _ operand))
  | .call _ args _ => argumentParts_restore h address 0 args
  | .method receiver _ args _ => List.forall_mem_cons.2
    ⟨traverseExpr_restores_of_parts h (partsOf_restore h _ receiver),
      argumentParts_restore h address 0 args⟩
  | .property receiver _ _ => List.forall_mem_singleton.2
    (traverseExpr_restores_of_parts h (partsOf_restore h _ receiver))

theorem elementParts_restore (h : handlers.Orderly) (address : Address) (index : Nat) :
    (values : List Expr) →
    ∀ visit ∈ (elementParts handlers address index values).map Part.visit, visit.Restores
  | [] => List.forall_mem_nil _
  | value :: rest => List.forall_mem_cons.2
    ⟨traverseExpr_restores_of_parts h (partsOf_restore h _ value),
      elementParts_restore h address (index + 1) rest⟩

theorem argumentParts_restore (h : handlers.Orderly) (address : Address) (index : Nat) :
    (args : List Arg) →
    ∀ visit ∈ (argumentParts handlers address index args).map Part.visit, visit.Restores
  | [] => List.forall_mem_nil _
  | ⟨_, value⟩ :: rest => List.forall_mem_cons.2
    ⟨traverseExpr_restores_of_parts h (partsOf_restore h _ value),
      argumentParts_restore h address (index + 1) rest⟩

end

/-- The visit of an expression restores what surrounds it. -/
theorem traverseExpr_restores (h : handlers.Orderly) (address : Address) (expr : Expr) :
    (traverseExpr handlers address expr).Restores :=
  traverseExpr_restores_of_parts h (partsOf_restore h address expr)

theorem traverseInit_restores (h : handlers.Orderly) (decl : VarDecl) :
    (traverseInit handlers decl).Restores := by
  unfold traverseInit
  cases decl.init with
  | none => exact .pure _
  | some init => exact (traverseExpr_restores h _ init).bind fun _ => .pure _

end Exprs

section Stmts

variable {handlers : Handlers σ ρ} {program : Program}

theorem traverseVarDecl_restores (h : handlers.Orderly) (decl : VarDecl) :
    (traverseVarDecl handlers decl).Restores :=
  (h.varDecl decl _).restores_of_part (traverseInit_restores h.toOrderly decl)

/-- A handle that leads nowhere makes the visit fail before anything is entered. -/
theorem traverseHandle_restores (h : handlers.Orderly) (id : VarId) :
    (traverseHandle handlers program id).Restores :=
  (Restores.ofExcept (program.decl id)).bind fun decl => traverseVarDecl_restores h decl

/-- What is done with the parts of a statement restores what surrounds it if their visit does. -/
theorem visitForm_restores_of_parts (h : handlers.Orderly) {address : Address} {stmt : Stmt}
    (parts : (visitParts handlers program address stmt).Restores) :
    (visitForm handlers program address stmt).Restores := by
  have expr := fun address expr => traverseExpr_restores h.toOrderly address expr
  cases stmt with
  | block body => exact parts
  | returns value span => exact (h.returns _ _).restores_of_part (expr _ value)
  | branch branches otherwise span => exact (h.branch _ _).restores_of_part parts
  | forLoop init condition step body span => exact (h.forLoop _).restores_of_part parts
  | whileLoop condition body span => exact (h.whileLoop _).restores_of_part parts
  | expression value => exact (h.expression _).restores_of_part (expr _ value)
  | declare decl span => exact (h.declare _).restores_of_part parts
  | breakLoop span => exact (h.breakLoop _).restores_of_none
  | continueLoop span => exact (h.continueLoop _).restores_of_none

theorem traverseStmt_restores_of_parts (h : handlers.Orderly) {address : Address} {stmt : Stmt}
    (parts : (visitParts handlers program address stmt).Restores) :
    (traverseStmt handlers program address stmt).Restores := by
  rw [traverseStmt_eq]
  exact (h.stmt _ _).restores_of_part (visitForm_restores_of_parts h parts)

mutual

/-- The visits of the parts of a statement restore what surrounds them. -/
theorem visitParts_restores (h : handlers.Orderly) (address : Address) : (stmt : Stmt) →
    (visitParts handlers program address stmt).Restores
  | .block body => traverseBlock_restores h _ body
  | .returns value _ | .expression value => (traverseExpr_restores h.toOrderly _ value).discard
  | .branch branches otherwise _ =>
    (traverseBranches_restores h address 0 branches).bind fun _ =>
      traverseOtherwise_restores h address otherwise
  | .forLoop init condition step body _ =>
    (traverseHandle_restores h init).bind fun _ =>
      (traverseExpr_restores h.toOrderly _ condition).discard.bind fun _ =>
        (traverseExpr_restores h.toOrderly _ step).discard.bind fun _ =>
          (traverseBlock_restores h _ body).inLoop
  | .whileLoop condition body _ =>
    (traverseExpr_restores h.toOrderly _ condition).discard.bind fun _ =>
      (traverseBlock_restores h _ body).inLoop
  | .declare decl _ => traverseHandle_restores h decl
  | .breakLoop _ | .continueLoop _ => .pure ()

theorem traverseBlock_restores (h : handlers.Orderly) (address : Address) : (block : Block) →
    (traverseBlock handlers program address block).Restores
  | ⟨body, _⟩ => (h.block _ _).restores_of_part (traverseStmts_restores h address 0 body).inBlock

theorem traverseStmts_restores (h : handlers.Orderly) (address : Address) (index : Nat) :
    (stmts : List Stmt) → (traverseStmts handlers program address index stmts).Restores
  | [] => .pure ()
  | stmt :: rest =>
    (traverseStmt_restores_of_parts h (visitParts_restores h _ stmt)).bind fun _ =>
      traverseStmts_restores h address (index + 1) rest

theorem traverseBranches_restores (h : handlers.Orderly) (address : Address) (index : Nat) :
    (branches : List Branch) → (traverseBranches handlers program address index branches).Restores
  | [] => .pure ()
  | ⟨condition, body⟩ :: rest =>
    (traverseExpr_restores h.toOrderly _ condition).discard.bind fun _ =>
      (traverseBlock_restores h _ body).bind fun _ =>
        traverseBranches_restores h address (index + 1) rest

theorem traverseOtherwise_restores (h : handlers.Orderly) (address : Address) :
    (otherwise : Option Block) → (traverseOtherwise handlers program address otherwise).Restores
  | none => .pure ()
  | some body => traverseBlock_restores h _ body

end

/-- The visit of a statement restores what surrounds it. -/
theorem traverseStmt_restores (h : handlers.Orderly) (address : Address) (stmt : Stmt) :
    (traverseStmt handlers program address stmt).Restores :=
  traverseStmt_restores_of_parts h (visitParts_restores h address stmt)

end Stmts

section Decls

variable {handlers : Handlers σ ρ} {program : Program}

theorem traverseParam_restores (h : handlers.Orderly) (param : Param) :
    (traverseParam handlers program param).Restores :=
  (h.param _ _).restores_of_part (traverseHandle_restores h _)

theorem params_restore (h : handlers.Orderly) (params : List Param) :
    (params.forM (traverseParam handlers program)).Restores :=
  .forM fun param _ => traverseParam_restores h param

theorem traverseSignature_restores (h : handlers.Orderly) (signature : Signature) :
    (traverseSignature handlers program signature).Restores :=
  (h.signature _ _).restores_of_part (params_restore h signature.params)

theorem visitFunction_restores (h : handlers.Orderly) (root : Root) (function : Function) :
    (visitFunction handlers program root function).Restores :=
  Restores.inFunction <| (traverseSignature_restores h _).bind fun _ => traverseBlock_restores h _ _

theorem traverseFunction_restores (h : handlers.Orderly) (root : Root) (function : Function) :
    (traverseFunction handlers program root function).Restores :=
  (h.function _ _).restores_of_part (visitFunction_restores h root function)

theorem visitMembers_restores (h : handlers.Orderly) (index : Nat) (record : RecordDecl) :
    (visitMembers handlers program index record).Restores :=
  Restores.inRecord <| (Restores.forM fun id _ => traverseHandle_restores h id).bind fun _ =>
    .forM fun method _ => traverseFunction_restores h _ method.1

theorem traverseRecord_restores (h : handlers.Orderly) (index : Nat) (record : RecordDecl) :
    (traverseRecord handlers program index record).Restores :=
  (h.record _ _).restores_of_part (visitMembers_restores h index record)

theorem visitDecl_restores (h : handlers.Orderly) (decl : Declaration) :
    (visitDecl handlers program decl).Restores := by
  cases decl with
  | var decl => exact traverseVarDecl_restores h decl
  | param param => exact traverseParam_restores h param
  | signature signature => exact traverseSignature_restores h signature
  | function root function => exact traverseFunction_restores h root function
  | record index record => exact traverseRecord_restores h index record

theorem traverseDecl_restores (h : handlers.Orderly) (decl : Declaration) :
    (traverseDecl handlers program decl).Restores := by
  rw [traverseDecl_eq]
  exact (h.decl _ _).restores_of_part (visitDecl_restores h decl)

theorem traverseProgram_restores (h : handlers.Orderly) :
    (traverseProgram handlers program).Restores :=
  (Restores.forM fun id _ => (Restores.ofExcept (program.decl id)).bind fun decl =>
      traverseDecl_restores h (.var decl)).bind fun _ =>
    (Restores.forM fun record _ => traverseDecl_restores h (.record record.2 record.1)).bind fun _ =>
      (Restores.forM fun function _ =>
        traverseDecl_restores h (.function (.function function.2) function.1)).bind fun _ =>
        (Restores.forM fun function _ =>
          traverseDecl_restores h (.function .main function)).bind fun _ =>
          Restores.forM fun stmt _ => traverseStmt_restores h _ stmt.1

/-- Every call that a traversal is made of restores what surrounds it, however it ends. -/
theorem Handlers.Calls.restores (h : handlers.Orderly) {α : Type} {visit : Visit σ α}
    (calls : handlers.Calls program visit) : visit.Restores := by
  cases calls with
  | program => exact traverseProgram_restores h
  | decl decl => exact traverseDecl_restores h decl
  | declAs decl => exact visitDecl_restores h decl
  | varDecl decl => exact traverseVarDecl_restores h decl
  | init decl => exact traverseInit_restores h.toOrderly decl
  | handle id => exact traverseHandle_restores h id
  | param param => exact traverseParam_restores h param
  | signature signature => exact traverseSignature_restores h signature
  | params params => exact params_restore h params
  | function root function => exact traverseFunction_restores h root function
  | functionParts root function => exact visitFunction_restores h root function
  | record index record => exact traverseRecord_restores h index record
  | members index record => exact visitMembers_restores h index record
  | stmt address stmt => exact traverseStmt_restores h address stmt
  | stmtForm address stmt =>
      exact visitForm_restores_of_parts h (visitParts_restores h address stmt)
  | stmtParts address stmt => exact visitParts_restores h address stmt
  | block address block => exact traverseBlock_restores h address block
  | blockParts address block => exact (traverseStmts_restores h address 0 block.body).inBlock
  | expr address expr => exact traverseExpr_restores h.toOrderly address expr
  | exprSort address expr =>
      exact visitSort_restores_of_parts h.toOrderly (partsOf_restore h.toOrderly address expr)
  | exprParts address expr =>
      exact .forM fun part member =>
        (partsOf_restore h.toOrderly address expr _ (List.mem_map_of_mem member)).discard

end Decls

end Offside
