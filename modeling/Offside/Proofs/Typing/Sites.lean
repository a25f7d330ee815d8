import Offside.Proofs.Typing.Judgement
import Offside.Syntax.Address

/-! # Sites and cells

A site is an expression or a declaration where it stands in a program. Each site has cells, which
checking fills in: the type of an expression, the link of a reference, the scope of a declaration.
The sites of a program are listed in the order in which a traversal completes them.
-/

namespace Offside

/-- An expression or a declaration where it stands. -/
inductive Site where
  /-- An expression, which may be declared to have a type. -/
  | expr (address : Address) (place : Place) (declared : Option DataType) (expr : Expr)
  | decl (place : Place) (id : VarId)

/-- The place where a site stands. -/
def Site.place : Site → Place
  | .expr _ place _ _ | .decl place _ => place

/-- What is found out about a site, once. -/
inductive Cell where
  | type (address : Address)
  | link (address : Address)
  | scope (decl : VarId)
  deriving DecidableEq

/-- The cells of a site, in the order in which they are filled in. -/
def Site.cells : Site → List Cell
  | .expr address _ _ (.reference ..) => [.link address, .type address]
  | .expr address _ _ _ => [.type address]
  | .decl _ id => [.scope id]

/-- The cell that a finding fills in. That a call constructs a record may be found repeatedly. -/
def Finding.cell? : Finding → Option Cell
  | .type address .. => some (.type address)
  | .link address .. => some (.link address)
  | .constructor _ => none
  | .scope decl .. => some (.scope decl)

/-- Only the site of a declaration has a cell for the scope of it. -/
theorem Site.exists_decl_of_scope_mem {sites : List Site} {id : VarId}
    (cell : .scope id ∈ sites.flatMap Site.cells) : ∃ place, .decl place id ∈ sites := by
  obtain ⟨site, listed, member⟩ := List.mem_flatMap.1 cell
  cases site with
  | decl place other =>
      simp only [Site.cells, List.mem_singleton, Cell.scope.injEq] at member
      exact ⟨place, member ▸ listed⟩
  | expr address place declared expr => cases expr <;> simp [Site.cells] at member

/-- A finding says of a site what the rules say of it. -/
inductive Site.Justifies (program : Program) (lookup : LocalLookup) : Site → Finding → Prop where
  | type {address place declared node type position} :
    HasType program lookup place declared node type →
    Justifies program lookup (.expr address place declared node) (.type address type position)
  | link {address place declared name span id position} :
    place.RefersTo program name lookup id → (program.decl? id).isSome →
    Justifies program lookup (.expr address place declared (.reference name span))
      (.link address id name position)
  | constructor {address place declared callee args span} :
    (program.record? callee.text).isSome →
    Justifies program lookup (.expr address place declared (.call callee args span))
      (.constructor address)
  | scope {place id name position} :
    Justifies program lookup (.decl place id) (.scope id place.scope name position)

theorem Site.Justifies.cell_mem {program : Program} {lookup : LocalLookup} {site : Site}
    {finding : Finding} {cell : Cell} (h : site.Justifies program lookup finding)
    (fills : finding.cell? = some cell) : cell ∈ site.cells := by
  cases h with
  | @type _ _ _ node =>
      cases fills
      cases node <;> simp [Site.cells]
  | link | scope =>
      cases fills
      simp [Site.cells]
  | constructor => cases fills

/-- The declared type of the elements of an array that is declared to have a type. -/
def DataType.element? : DataType → Option DataType
  | .array element => some element
  | _ => none

mutual

/-- The sites in an expression at a place. -/
def Expr.sites (place : Place) (address : Address) (declared : Option DataType) :
    Expr → List Site
  | node@(.literal ..) | node@(.reference ..) => [.expr address place declared node]
  | node@(.array values _) =>
    Expr.listSites place address (declared.bind DataType.element?) 0 values ++
      [.expr address place declared node]
  | node@(.binary _ left right _) =>
    Expr.sites place (address.part .left) none left ++
      Expr.sites place (address.part .right) none right ++ [.expr address place declared node]
  | node@(.unary _ operand _) =>
    Expr.sites place (address.part .operand) none operand ++ [.expr address place declared node]
  | node@(.call _ args _) =>
    Arg.listSites place address 0 args ++ [.expr address place declared node]
  | node@(.method receiver _ args _) =>
    Expr.sites place (address.part .receiver) none receiver ++
      Arg.listSites place address 0 args ++ [.expr address place declared node]
  | node@(.property receiver _ _) =>
    Expr.sites place (address.part .receiver) none receiver ++ [.expr address place declared node]

/-- The sites in the values of an array, of which the first has a given index. -/
def Expr.listSites (place : Place) (address : Address) (declared : Option DataType)
    (index : Nat) : List Expr → List Site
  | [] => []
  | value :: rest =>
    Expr.sites place (address.part (.element index)) declared value ++
      Expr.listSites place address declared (index + 1) rest

/-- The sites in some arguments, of which the first has a given index. -/
def Arg.listSites (place : Place) (address : Address) (index : Nat) : List Arg → List Site
  | [] => []
  | ⟨_, value⟩ :: rest =>
    Expr.sites place (address.part (.argument index)) none value ++
      Arg.listSites place address (index + 1) rest

end

/-- The sites in a declaration: those in its first value, and then its own. -/
def VarDecl.sites (place : Place) (decl : VarDecl) : List Site :=
  (match decl.init with
    | none => []
    | some init => init.sites place (.ofRoot (.initializer decl.id)) (some decl.type)) ++
  [.decl place decl.id]

/-- The sites in the declaration with a handle. -/
def VarId.sites (program : Program) (place : Place) (id : VarId) : List Site :=
  ((program.decl? id).map (VarDecl.sites place)).getD []

mutual

/-- The sites in a statement at a place. -/
def Stmt.sites (program : Program) (place : Place) (address : Address) : Stmt → List Site
  | .block body => Block.sites program place (address.part (.body 0)) body
  | .returns value _ | .expression value => value.sites place (address.part .value) none
  | .branch branches otherwise _ =>
    Branch.listSites program place address 0 branches ++
      Block.optionSites program place (address.part .otherwise) otherwise
  | .forLoop init condition step body _ =>
    init.sites program (place.within (.header none)) ++
      condition.sites (place.within (.header (some init))) (address.part (.condition 0)) none ++
      step.sites (place.within (.header (some init))) (address.part .update) none ++
      Block.sites program (place.within (.header (some init))).repeated (address.part (.body 0))
        body
  | .whileLoop condition body _ =>
    condition.sites place (address.part (.condition 0)) none ++
      Block.sites program place.repeated (address.part (.body 0)) body
  | .declare decl _ => decl.sites program place
  | .breakLoop _ | .continueLoop _ => []

/-- The sites in a block at a place. -/
def Block.sites (program : Program) (place : Place) (address : Address) : Block → List Site
  | ⟨body, _⟩ => Stmt.listSites program place address [] body

/-- The sites in the statements of a block that stand behind some others. -/
def Stmt.listSites (program : Program) (place : Place) (address : Address)
    (before : List Stmt) : List Stmt → List Site
  | [] => []
  | stmt :: rest =>
    Stmt.sites program (place.within (.block before)) (address.part (.statement before.length))
        stmt ++
      Stmt.listSites program place address (before ++ [stmt]) rest

/-- The sites in some branches, of which the first has a given index. -/
def Branch.listSites (program : Program) (place : Place) (address : Address) (index : Nat) :
    List Branch → List Site
  | [] => []
  | ⟨condition, body⟩ :: rest =>
    condition.sites place (address.part (.condition index)) none ++
      Block.sites program place (address.part (.body index)) body ++
      Branch.listSites program place address (index + 1) rest

/-- The sites in a block that may be missing. -/
def Block.optionSites (program : Program) (place : Place) (address : Address) :
    Option Block → List Site
  | none => []
  | some body => Block.sites program place address body

end

/-- The sites in a function whose body hangs at a root. -/
def Function.sites (program : Program) (place : Place) (root : Root) (function : Function) :
    List Site :=
  function.signature.params.flatMap (fun param =>
    param.decl.sites program (place.inFunction function)) ++
  function.body.sites program (place.inFunction function) (.ofRoot root)

/-- The sites in the record type at an index. -/
def RecordDecl.sites (program : Program) (index : Nat) (record : RecordDecl) : List Site :=
  record.properties.flatMap (VarId.sites program (Place.inRecord {} record)) ++
  record.methods.zipIdx.flatMap fun (method, methodIndex) =>
    method.sites program (Place.inRecord {} record) (.method index methodIndex)

/-- The sites in a program. -/
def Program.sites (program : Program) : List Site :=
  program.globals.flatMap (VarId.sites program {}) ++
  (program.records.zipIdx.flatMap fun (record, index) => record.sites program index) ++
  (program.functions.zipIdx.flatMap fun (function, index) =>
    function.sites program {} (.function index)) ++
  (program.main.toList.flatMap fun function => function.sites program {} .main) ++
  program.statements.zipIdx.flatMap fun (stmt, index) =>
    stmt.sites program {} (.ofRoot (.statement index))

/-- The cells in a program. -/
def Program.cells (program : Program) : List Cell :=
  program.sites.flatMap Site.cells

end Offside
