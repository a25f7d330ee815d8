import Offside.Grammar.Operators
import Offside.Proofs.Reading.Programs

/-! # Programs up to spans and numbering

Where something was written, and in which order handles and numbers were handed out, does not matter
to what a program says. A tree is compared with another one without its spans and with its handles
and numbers exchanged for new ones.
-/

namespace Offside

/-- New handles for declarations, and new numbers for functions and record types. -/
structure Renaming where
  /-- The new handle of a declaration. -/
  decl : VarId → VarId
  /-- The new number of a function or record type. -/
  number : Nat → Nat

/-- All handles and numbers stay the same. -/
def Renaming.same : Renaming :=
  ⟨id, id⟩

def Name.bare (name : Name) : Name :=
  ⟨name.text, default⟩

mutual

/-- An expression without its spans. -/
def Expr.bare : Expr → Expr
  | .literal value _ => .literal value default
  | .array values _ => .array (Expr.listBare values) default
  | .reference name _ => .reference name default
  | .binary operator left right _ => .binary operator (Expr.bare left) (Expr.bare right) default
  | .unary operator operand _ => .unary operator (Expr.bare operand) default
  | .call callee args _ => .call callee.bare (Arg.listBare args) default
  | .method receiver callee args _ =>
    .method (Expr.bare receiver) callee.bare (Arg.listBare args) default
  | .property receiver member _ => .property (Expr.bare receiver) member.bare default

/-- Some expressions without their spans. -/
def Expr.listBare : List Expr → List Expr
  | [] => []
  | value :: rest => Expr.bare value :: Expr.listBare rest

/-- Some arguments without their spans. -/
def Arg.listBare : List Arg → List Arg
  | [] => []
  | ⟨label, value⟩ :: rest => ⟨label.bare, Expr.bare value⟩ :: Arg.listBare rest

end

theorem Expr.listBare_eq_map (values : List Expr) : Expr.listBare values = values.map Expr.bare := by
  induction values with
  | nil => rfl
  | cons value rest ih => rw [Expr.listBare, ih, List.map_cons]

/-- An argument without its spans. -/
def Arg.bare (arg : Arg) : Arg :=
  ⟨arg.label.bare, arg.value.bare⟩

theorem Arg.listBare_eq_map (args : List Arg) : Arg.listBare args = args.map Arg.bare := by
  induction args with
  | nil => rfl
  | cons arg rest ih =>
      cases arg with
      | mk label value => rw [Arg.listBare, ih, List.map_cons, Arg.bare]

/-- A sign is taken in whatever the spans are. -/
theorem Expr.bare_ofSigned (operator : Operator) (operand : Expr) (span : Span) :
    (Expr.ofSigned operator operand span).bare = Expr.ofSigned operator operand.bare default := by
  cases operator with
  | minus =>
      cases operand with
      | literal value _ =>
          cases value with
          | int value =>
              simp only [Expr.ofSigned, Expr.bare]
              split <;> rfl
          | _ => rfl
      | _ => rfl
  | _ => rfl

section Renamed

variable (ρ : Renaming)

/-- A declaration without its spans, renamed. -/
def VarDecl.renamed (decl : VarDecl) : VarDecl where
  id := ρ.decl decl.id
  name := decl.name
  type := decl.type
  init := decl.init.map Expr.bare
  span := default

mutual

/-- A statement without its spans, renamed. -/
def Stmt.renamed : Stmt → Stmt
  | .block body => .block (Block.renamed body)
  | .returns value _ => .returns value.bare default
  | .branch branches otherwise _ =>
    .branch (Branch.listRenamed branches) (Block.optionRenamed otherwise) default
  | .forLoop init condition step body _ =>
    .forLoop (ρ.decl init) condition.bare step.bare (Block.renamed body) default
  | .whileLoop condition body _ => .whileLoop condition.bare (Block.renamed body) default
  | .expression value => .expression value.bare
  | .declare decl _ => .declare (ρ.decl decl) default
  | .breakLoop _ => .breakLoop default
  | .continueLoop _ => .continueLoop default

/-- A block without its spans, renamed. -/
def Block.renamed : Block → Block
  | ⟨body, _⟩ => ⟨Stmt.listRenamed body, default⟩

/-- Some statements without their spans, renamed. -/
def Stmt.listRenamed : List Stmt → List Stmt
  | [] => []
  | stmt :: rest => Stmt.renamed stmt :: Stmt.listRenamed rest

/-- Some branches without their spans, renamed. -/
def Branch.listRenamed : List Branch → List Branch
  | [] => []
  | ⟨condition, body⟩ :: rest => ⟨condition.bare, Block.renamed body⟩ :: Branch.listRenamed rest

/-- A block that may be missing without its spans, renamed. -/
def Block.optionRenamed : Option Block → Option Block
  | none => none
  | some body => some (Block.renamed body)

end

theorem Stmt.listRenamed_eq_map (stmts : List Stmt) :
    Stmt.listRenamed ρ stmts = stmts.map (Stmt.renamed ρ) := by
  induction stmts with
  | nil => rfl
  | cons stmt rest ih => rw [Stmt.listRenamed, ih, List.map_cons]

/-- A branch without its spans, renamed. -/
def Branch.renamed (branch : Branch) : Branch :=
  ⟨branch.condition.bare, branch.body.renamed ρ⟩

theorem Branch.listRenamed_eq_map (branches : List Branch) :
    Branch.listRenamed ρ branches = branches.map (Branch.renamed ρ) := by
  induction branches with
  | nil => rfl
  | cons branch rest ih =>
      cases branch with
      | mk condition body => rw [Branch.listRenamed, ih, List.map_cons, Branch.renamed]

theorem Block.optionRenamed_eq_map (body? : Option Block) :
    Block.optionRenamed ρ body? = body?.map (Block.renamed ρ) := by
  cases body? <;> rfl

theorem Stmt.closesWithBlock_renamed (stmt : Stmt) :
    (stmt.renamed ρ).closesWithBlock = stmt.closesWithBlock := by
  cases stmt <;> rfl

/-- A parameter without its span, renamed. -/
def Param.renamed (param : Param) : Param :=
  ⟨ρ.decl param.decl, default⟩

/-- A function without its spans, renamed. -/
def Function.renamed (function : Function) : Function where
  id := ⟨ρ.number function.id.number⟩
  signature := {
    name := function.name
    params := function.signature.params.map (Param.renamed ρ)
    returnType := function.signature.returnType
    span := default }
  body := function.body.renamed ρ
  span := default

/-- A record type without its spans, renamed. -/
def RecordDecl.renamed (record : RecordDecl) : RecordDecl where
  id := ⟨ρ.number record.id.number⟩
  name := record.name
  parent := record.parent.map Name.bare
  properties := record.properties.map ρ.decl
  methods := record.methods.map (Function.renamed ρ)
  span := default

@[simp] theorem VarDecl.name_renamed (decl : VarDecl) : (decl.renamed ρ).name = decl.name := rfl

@[simp] theorem Function.name_renamed (function : Function) :
    (function.renamed ρ).name = function.name := rfl

@[simp] theorem RecordDecl.name_renamed (record : RecordDecl) :
    (record.renamed ρ).name = record.name := rfl

end Renamed

/-- Two programs are the same but for their spans and a renaming. The handles and numbers of the one
are exchanged for those of the other, each for one of its own. -/
structure Program.RenamedTo (program : Program) (ρ : Renaming) (other : Program) :
    Prop where
  handles : (program.validHandles.map ρ.decl).Perm other.validHandles
  numbers : (program.numbers.map ρ.number).Perm other.numbers
  apart : (program.numbers.map ρ.number).Nodup
  decls : ∀ id decl, program.decl? id = some decl → ∃ decl',
    other.decl? (ρ.decl id) = some decl' ∧
      decl'.renamed .same = decl.renamed ρ
  globals : other.globals = program.globals.map ρ.decl
  records : other.records.map (RecordDecl.renamed .same) =
    program.records.map (RecordDecl.renamed ρ)
  functions : other.functions.map (Function.renamed .same) =
    program.functions.map (Function.renamed ρ)
  main : other.main.map (Function.renamed .same) = program.main.map (Function.renamed ρ)
  statements : other.statements.map (Stmt.renamed .same) =
    program.statements.map (Stmt.renamed ρ)

end Offside
