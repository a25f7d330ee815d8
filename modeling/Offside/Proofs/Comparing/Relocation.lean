import Offside.Grammar.Operators
import Offside.Syntax.Program

/-! # Moving trees

A tree says the same wherever it was written and however its handles and numbers were counted. It is
moved by functions for its places, for its handles and for its numbers, and stays as it is otherwise.
-/

namespace Offside

/-- The place some bytes further on. -/
def Position.forward (bytes : Nat) (position : Position) : Position :=
  ⟨position.offset + UInt32.ofNat bytes, position.file⟩

theorem Position.forward_ofByte (bytes : Nat) (file : String) (byte : Nat) :
    (Position.ofByte file byte).forward bytes = Position.ofByte file (byte + bytes) := by
  simp [forward, ofByte]

/-- A place that is moved within what can be addressed is moved by so many bytes. -/
theorem Position.offset_forward {bytes : Nat} {position : Position}
    (h : position.offset.toNat + bytes < UInt32.size) :
    (position.forward bytes).offset.toNat = position.offset.toNat + bytes := by
  simp [forward, UInt32.toNat_add, UInt32.size] at h ⊢
  omega

/-- Where places, handles and numbers are moved. -/
structure Relocation where
  /-- The new place. -/
  position : Position → Position
  /-- The new handle of a declaration. -/
  decl : VarId → VarId
  /-- The new number of a function or record type. -/
  number : Nat → Nat

namespace Relocation

/-- Nothing is moved. -/
def same : Relocation :=
  ⟨id, id, id⟩

/-- All places are moved to one, and so forgotten. -/
def spanless : Relocation :=
  ⟨fun _ => default, id, id⟩

/-- Everything is moved behind so many bytes, declarations and numbers. -/
def behind (bytes decls numbers : Nat) : Relocation :=
  ⟨Position.forward bytes, fun id => ⟨decls + id.index⟩, fun number => numbers + number⟩

end Relocation

section Moved

variable (move : Relocation)

def Span.moved (span : Span) : Span :=
  ⟨move.position span.start, move.position span.stop⟩

/-- A token at another place. -/
def Token.moved (token : Token) : Token :=
  { token with span := token.span.moved move }

def Name.moved (name : Name) : Name :=
  ⟨name.text, name.span.moved move⟩

mutual

/-- An expression at another place. -/
def Expr.moved : Expr → Expr
  | .literal value span => .literal value (span.moved move)
  | .array values span => .array (Expr.listMoved values) (span.moved move)
  | .reference name span => .reference name (span.moved move)
  | .binary operator left right span =>
    .binary operator (Expr.moved left) (Expr.moved right) (span.moved move)
  | .unary operator operand span => .unary operator (Expr.moved operand) (span.moved move)
  | .call callee args span => .call (callee.moved move) (Arg.listMoved args) (span.moved move)
  | .method receiver callee args span =>
    .method (Expr.moved receiver) (callee.moved move) (Arg.listMoved args) (span.moved move)
  | .property receiver member span =>
    .property (Expr.moved receiver) (member.moved move) (span.moved move)

/-- Some expressions at another place. -/
def Expr.listMoved : List Expr → List Expr
  | [] => []
  | value :: rest => Expr.moved value :: Expr.listMoved rest

/-- Some arguments at another place. -/
def Arg.listMoved : List Arg → List Arg
  | [] => []
  | ⟨label, value⟩ :: rest => ⟨label.moved move, Expr.moved value⟩ :: Arg.listMoved rest

end

theorem Expr.listMoved_eq_map (values : List Expr) :
    Expr.listMoved move values = values.map (Expr.moved move) := by
  induction values with
  | nil => rfl
  | cons value rest ih => rw [Expr.listMoved, ih, List.map_cons]

/-- An argument at another place. -/
def Arg.moved (arg : Arg) : Arg :=
  ⟨arg.label.moved move, arg.value.moved move⟩

theorem Arg.listMoved_eq_map (args : List Arg) :
    Arg.listMoved move args = args.map (Arg.moved move) := by
  induction args with
  | nil => rfl
  | cons arg rest ih =>
      cases arg with
      | mk label value => rw [Arg.listMoved, ih, List.map_cons, Arg.moved]

@[simp] theorem Expr.span_moved (expr : Expr) : (expr.moved move).span = expr.span.moved move := by
  cases expr <;> rfl

/-- A sign is taken in wherever it stands. -/
theorem Expr.moved_ofSigned (operator : Operator) (operand : Expr) (span : Span) :
    (Expr.ofSigned operator operand span).moved move =
      Expr.ofSigned operator (operand.moved move) (span.moved move) := by
  cases operator with
  | minus =>
      cases operand with
      | literal value _ =>
          cases value with
          | int value =>
              simp only [Expr.ofSigned, Expr.moved]
              split <;> rfl
          | _ => rfl
      | _ => rfl
  | _ => rfl

/-- A declaration of a variable at another place. -/
def VarDecl.moved (decl : VarDecl) : VarDecl where
  id := move.decl decl.id
  name := decl.name
  type := decl.type
  init := decl.init.map (Expr.moved move)
  span := decl.span.moved move

mutual

/-- A statement at another place. -/
def Stmt.moved : Stmt → Stmt
  | .block body => .block (Block.moved body)
  | .returns value span => .returns (value.moved move) (span.moved move)
  | .branch branches otherwise span =>
    .branch (Branch.listMoved branches) (Block.optionMoved otherwise) (span.moved move)
  | .forLoop init condition step body span =>
    .forLoop (move.decl init) (condition.moved move) (step.moved move) (Block.moved body)
      (span.moved move)
  | .whileLoop condition body span =>
    .whileLoop (condition.moved move) (Block.moved body) (span.moved move)
  | .expression value => .expression (value.moved move)
  | .declare decl span => .declare (move.decl decl) (span.moved move)
  | .breakLoop span => .breakLoop (span.moved move)
  | .continueLoop span => .continueLoop (span.moved move)

/-- A block at another place. -/
def Block.moved : Block → Block
  | ⟨body, span⟩ => ⟨Stmt.listMoved body, span.moved move⟩

/-- Some statements at another place. -/
def Stmt.listMoved : List Stmt → List Stmt
  | [] => []
  | stmt :: rest => Stmt.moved stmt :: Stmt.listMoved rest

/-- Some branches at another place. -/
def Branch.listMoved : List Branch → List Branch
  | [] => []
  | ⟨condition, body⟩ :: rest => ⟨condition.moved move, Block.moved body⟩ :: Branch.listMoved rest

/-- A block that may be missing at another place. -/
def Block.optionMoved : Option Block → Option Block
  | none => none
  | some body => some (Block.moved body)

end

theorem Stmt.listMoved_eq_map (stmts : List Stmt) :
    Stmt.listMoved move stmts = stmts.map (Stmt.moved move) := by
  induction stmts with
  | nil => rfl
  | cons stmt rest ih => rw [Stmt.listMoved, ih, List.map_cons]

/-- A branch at another place. -/
def Branch.moved (branch : Branch) : Branch :=
  ⟨branch.condition.moved move, branch.body.moved move⟩

theorem Branch.listMoved_eq_map (branches : List Branch) :
    Branch.listMoved move branches = branches.map (Branch.moved move) := by
  induction branches with
  | nil => rfl
  | cons branch rest ih =>
      cases branch with
      | mk condition body => rw [Branch.listMoved, ih, List.map_cons, Branch.moved]

theorem Block.optionMoved_eq_map (body? : Option Block) :
    Block.optionMoved move body? = body?.map (Block.moved move) := by
  cases body? <;> rfl

@[simp] theorem Stmt.span_moved (stmt : Stmt) : (stmt.moved move).span = stmt.span.moved move := by
  cases stmt with
  | block body => cases body with | mk body span => rfl
  | expression value => exact value.span_moved move
  | _ => rfl

@[simp] theorem Stmt.closesWithBlock_moved (stmt : Stmt) :
    (stmt.moved move).closesWithBlock = stmt.closesWithBlock := by
  cases stmt <;> rfl

/-- A parameter at another place. -/
def Param.moved (param : Param) : Param :=
  ⟨move.decl param.decl, param.span.moved move⟩

/-- A signature at another place. -/
def Signature.moved (signature : Signature) : Signature where
  name := signature.name
  params := signature.params.map (Param.moved move)
  returnType := signature.returnType
  span := signature.span.moved move

/-- A function at another place. -/
def Function.moved (function : Function) : Function where
  id := ⟨move.number function.id.number⟩
  signature := function.signature.moved move
  body := function.body.moved move
  span := function.span.moved move

/-- A record type at another place. -/
def RecordDecl.moved (record : RecordDecl) : RecordDecl where
  id := ⟨move.number record.id.number⟩
  name := record.name
  parent := record.parent.map (Name.moved move)
  properties := record.properties.map move.decl
  methods := record.methods.map (Function.moved move)
  span := record.span.moved move

@[simp] theorem VarDecl.name_moved (decl : VarDecl) : (decl.moved move).name = decl.name := rfl

@[simp] theorem Function.name_moved (function : Function) :
    (function.moved move).name = function.name := rfl

@[simp] theorem RecordDecl.name_moved (record : RecordDecl) :
    (record.moved move).name = record.name := rfl

/-- A program at another place. -/
def Program.moved (program : Program) : Program where
  decls := program.decls.map (VarDecl.moved move)
  globals := program.globals.map move.decl
  records := program.records.map (RecordDecl.moved move)
  functions := program.functions.map (Function.moved move)
  main := program.main.map (Function.moved move)
  statements := program.statements.map (Stmt.moved move)

end Moved

section Same

open Relocation

@[simp] theorem Span.moved_same (span : Span) : span.moved same = span := rfl

@[simp] theorem Name.moved_same (name : Name) : name.moved same = name := rfl

mutual

theorem Expr.moved_same : (expr : Expr) → expr.moved same = expr
  | .literal .. | .reference .. => rfl
  | .array values _ => by rw [Expr.moved, Expr.listMoved_same values, Span.moved_same]
  | .binary _ left right _ => by
      rw [Expr.moved, Expr.moved_same left, Expr.moved_same right, Span.moved_same]
  | .unary _ operand _ => by rw [Expr.moved, Expr.moved_same operand, Span.moved_same]
  | .call _ args _ => by rw [Expr.moved, Arg.listMoved_same args, Name.moved_same, Span.moved_same]
  | .method receiver _ args _ => by
      rw [Expr.moved, Expr.moved_same receiver, Arg.listMoved_same args, Name.moved_same,
        Span.moved_same]
  | .property receiver _ _ => by
      rw [Expr.moved, Expr.moved_same receiver, Name.moved_same, Span.moved_same]

theorem Expr.listMoved_same : (values : List Expr) → Expr.listMoved same values = values
  | [] => rfl
  | value :: rest => by rw [Expr.listMoved, Expr.moved_same value, Expr.listMoved_same rest]

theorem Arg.listMoved_same : (args : List Arg) → Arg.listMoved same args = args
  | [] => rfl
  | ⟨label, value⟩ :: rest => by
      rw [Arg.listMoved, Expr.moved_same value, Arg.listMoved_same rest, Name.moved_same]

end

mutual

theorem Stmt.moved_same : (stmt : Stmt) → stmt.moved same = stmt
  | .block body => by rw [Stmt.moved, Block.moved_same body]
  | .returns value _ => by rw [Stmt.moved, value.moved_same, Span.moved_same]
  | .branch branches otherwise _ => by
      rw [Stmt.moved, Branch.listMoved_same branches, Block.optionMoved_same otherwise,
        Span.moved_same]
  | .forLoop _ condition step body _ => by
      rw [Stmt.moved, condition.moved_same, step.moved_same, Block.moved_same body,
        Span.moved_same]
      rfl
  | .whileLoop condition body _ => by
      rw [Stmt.moved, condition.moved_same, Block.moved_same body, Span.moved_same]
  | .expression value => by rw [Stmt.moved, value.moved_same]
  | .declare .. | .breakLoop _ | .continueLoop _ => rfl

theorem Block.moved_same : (block : Block) → block.moved same = block
  | ⟨body, _⟩ => by rw [Block.moved, Stmt.listMoved_same body, Span.moved_same]

theorem Stmt.listMoved_same : (stmts : List Stmt) → Stmt.listMoved same stmts = stmts
  | [] => rfl
  | stmt :: rest => by rw [Stmt.listMoved, Stmt.moved_same stmt, Stmt.listMoved_same rest]

theorem Branch.listMoved_same : (branches : List Branch) →
    Branch.listMoved same branches = branches
  | [] => rfl
  | ⟨condition, body⟩ :: rest => by
      rw [Branch.listMoved, condition.moved_same, Block.moved_same body, Branch.listMoved_same rest]

theorem Block.optionMoved_same : (body? : Option Block) → Block.optionMoved same body? = body?
  | none => rfl
  | some body => by rw [Block.optionMoved, Block.moved_same body]

end

theorem map_eq_self {α : Type} {change : α → α} (h : ∀ value, change value = value)
    (values : List α) : values.map change = values := by
  rw [funext h]
  exact List.map_id values

theorem Expr.map_moved_same (init : Option Expr) : init.map (Expr.moved same) = init := by
  rw [funext Expr.moved_same]
  exact Option.map_id'

theorem VarDecl.moved_same (decl : VarDecl) : decl.moved same = decl := by
  rw [VarDecl.moved, Expr.map_moved_same]
  rfl

theorem Function.moved_same (function : Function) : function.moved same = function := by
  have params : function.signature.params.map (Param.moved same) = function.signature.params :=
    map_eq_self (fun _ => rfl) _
  rw [Function.moved, Signature.moved, params, Block.moved_same]
  rfl

theorem RecordDecl.moved_same (record : RecordDecl) : record.moved same = record := by
  have parent : record.parent.map (Name.moved same) = record.parent := Option.map_id'
  have properties : record.properties.map same.decl = record.properties := List.map_id _
  rw [RecordDecl.moved, map_eq_self Function.moved_same, parent, properties]
  rfl

theorem Program.moved_same (program : Program) : program.moved same = program := by
  have decls : program.decls.map (VarDecl.moved same) = program.decls := by
    rw [funext VarDecl.moved_same]
    exact Array.map_id' _
  have globals : program.globals.map same.decl = program.globals := List.map_id _
  have main : program.main.map (Function.moved same) = program.main := by
    rw [funext Function.moved_same]
    exact Option.map_id'
  rw [Program.moved, map_eq_self RecordDecl.moved_same, map_eq_self Function.moved_same,
    map_eq_self Stmt.moved_same, main, decls, globals]

end Same

end Offside
