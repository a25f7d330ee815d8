import Offside.Proofs.Scoping.Place

/-! # Typing rules

The rules that programs are typed by, as judgements over the trees at their places. Nothing in them
is visited in any order, and no rule changes anything: what is in scope is part of the place.

An expression may be declared to have a type. Only an array written out takes notice, and only if
the declared type is an array type: its elements are then declared in turn.
-/

namespace Offside

section Judgements

variable (program : Program) (lookup : LocalLookup)

/-- The function that a call by name at a place runs: a method of the record type around the place,
or else a function, or else the entry point. -/
def Place.IsCallee (place : Place) (name : String) : Function → Prop :=
  IsChosen [
    fun function => ∃ record, place.record = some record ∧
      program.Nearest (fun record => record.method? name) record function,
    fun function => program.function? name = some function,
    fun function => program.main = some function ∧ function.name = name]

/-- The record type whose members a receiver has. The receiver must be a variable that is declared
to be of that type. -/
def Place.IsOwner (place : Place) (receiver : Expr) (record : RecordDecl) : Prop :=
  ∃ name span id decl type, receiver = .reference name span ∧
    place.RefersTo program name lookup id ∧ program.decl? id = some decl ∧
    decl.type = .record type ∧ program.record? type = some record

mutual

/-- An expression at a place, which may be declared to have a type, has a type. -/
inductive HasType (place : Place) : (declared : Option DataType) → Expr → DataType → Prop where
  | null {declared span} : HasType place declared (.literal .null span) .null
  | int {declared value span} : HasType place declared (.literal (.int value) span) .int64
  | float {declared value span} : HasType place declared (.literal (.float value) span) .double
  | bool {declared value span} : HasType place declared (.literal (.bool value) span) .bool
  | string {declared value span} : HasType place declared (.literal (.string value) span) .string
  /-- An array that is declared to be one has elements of the declared type. -/
  | declaredArray {element values span types} :
    HaveTypes place (some element) values types →
    (∀ type ∈ types, type.agrees element) →
    HasType place (some (.array element)) (.array values span) (.array element)
  /-- Any other array has elements of the type of the first one. -/
  | array {declared values span types} :
    (∀ element, declared ≠ some (.array element)) →
    HaveTypes place none values types →
    (∀ type ∈ types, type.agrees (types.headD .unresolved)) →
    HasType place declared (.array values span) (.array (types.headD .unresolved))
  | reference {declared name span id decl} :
    place.RefersTo program name lookup id → program.decl? id = some decl →
    HasType place declared (.reference name span) decl.type
  | arithmetic {declared operator left right span leftType rightType} :
    operator.operatorClass = .arithmetic ∨ operator.operatorClass = .assignment →
    HasType place none left leftType → HasType place none right rightType →
    rightType.agrees leftType →
    HasType place declared (.binary operator left right span) leftType
  | comparison {declared operator left right span leftType rightType} :
    operator.operatorClass = .comparison →
    HasType place none left leftType → HasType place none right rightType →
    rightType.agrees leftType →
    HasType place declared (.binary operator left right span) .bool
  | logical {declared operator left right span leftType rightType} :
    operator.operatorClass = .logical →
    HasType place none left leftType → HasType place none right rightType →
    leftType.agrees .bool → rightType.agrees .bool →
    HasType place declared (.binary operator left right span) .bool
  | not {declared operand span type} :
    HasType place none operand type → type.agrees .bool →
    HasType place declared (.unary .not operand span) .bool
  | signed {declared operator operand span type} :
    operator ≠ .not → HasType place none operand type →
    HasType place declared (.unary operator operand span) type
  /-- A call by the name of a record type makes a record. -/
  | construct {declared callee args span types} :
    HaveTypes place none (args.map Arg.value) types → (program.record? callee.text).isSome →
    HasType place declared (.call callee args span) (.record callee.text)
  | call {declared callee args span types function} :
    HaveTypes place none (args.map Arg.value) types → program.record? callee.text = none →
    place.IsCallee program callee.text function →
    HasType place declared (.call callee args span) function.signature.returnType
  | method {declared receiver callee args span type types record function} :
    HasType place none receiver type → HaveTypes place none (args.map Arg.value) types →
    place.IsOwner program lookup receiver record →
    program.Nearest (fun record => record.method? callee.text) record function →
    HasType place declared (.method receiver callee args span) function.signature.returnType
  | property {declared receiver member span type record decl} :
    HasType place none receiver type → place.IsOwner program lookup receiver record →
    program.Nearest (fun record => program.ownProperty? record member.text) record decl →
    HasType place declared (.property receiver member span) decl.type

/-- Some expressions, which may all be declared to have a type, have types. -/
inductive HaveTypes (place : Place) :
    (declared : Option DataType) → List Expr → List DataType → Prop where
  | nil {declared} : HaveTypes place declared [] []
  | cons {declared value rest type types} :
    HasType place declared value type → HaveTypes place declared rest types →
    HaveTypes place declared (value :: rest) (type :: types)

end

/-- A declaration is well typed at a place: its type is known, and its first value has a type that
agrees with it. -/
structure VarDecl.WellTyped (place : Place) (decl : VarDecl) : Prop where
  known : program.knows decl.type
  init : ∀ init, decl.init = some init →
    ∃ type, HasType program lookup place (some decl.type) init type ∧ type.agrees decl.type

/-- The declaration with a handle is well typed at a place. -/
def VarId.WellTyped (place : Place) (id : VarId) : Prop :=
  ∃ decl, program.decl? id = some decl ∧ decl.WellTyped program lookup place

/-- An expression has some type at a place. -/
def Expr.WellTyped (place : Place) (expr : Expr) : Prop :=
  ∃ type, HasType program lookup place none expr type

mutual

/-- A statement is well typed at a place. -/
inductive Stmt.WellTyped : Place → Stmt → Prop where
  | block {place body} : Block.WellTyped place body → Stmt.WellTyped place (.block body)
  | returns {place value span function type} :
    place.function = some function → HasType program lookup place none value type →
    type.agrees function.signature.returnType → Stmt.WellTyped place (.returns value span)
  | branch {place branches otherwise span} :
    (∀ branch ∈ branches, branch.condition.WellTyped program lookup place) →
    (∀ branch ∈ branches, Block.WellTyped place branch.body) →
    (∀ body ∈ otherwise, Block.WellTyped place body) →
    Stmt.WellTyped place (.branch branches otherwise span)
  | forLoop {place init condition step body span} :
    init.WellTyped program lookup (place.within (.header none)) →
    condition.WellTyped program lookup (place.within (.header (some init))) →
    step.WellTyped program lookup (place.within (.header (some init))) →
    Block.WellTyped (place.within (.header (some init))).repeated body →
    Stmt.WellTyped place (.forLoop init condition step body span)
  | whileLoop {place condition body span} :
    condition.WellTyped program lookup place → Block.WellTyped place.repeated body →
    Stmt.WellTyped place (.whileLoop condition body span)
  | expression {place value} :
    value.WellTyped program lookup place → Stmt.WellTyped place (.expression value)
  | declare {place decl span} :
    decl.WellTyped program lookup place → Stmt.WellTyped place (.declare decl span)
  | breakLoop {place span} : place.inLoop = true → Stmt.WellTyped place (.breakLoop span)
  | continueLoop {place span} : place.inLoop = true → Stmt.WellTyped place (.continueLoop span)

/-- A block is well typed at a place if each of its statements is, behind those before it. -/
inductive Block.WellTyped : Place → Block → Prop where
  | mk {place body span} :
    (∀ before stmt after, body = before ++ stmt :: after →
      Stmt.WellTyped (place.within (.block before)) stmt) →
    Block.WellTyped place ⟨body, span⟩

end

/-- A function or method is well typed at a place. -/
structure Function.WellTyped (place : Place) (function : Function) : Prop where
  returnType : program.knows function.signature.returnType
  params : ∀ param ∈ function.signature.params,
    param.decl.WellTyped program lookup (place.inFunction function)
  body : function.body.WellTyped program lookup (place.inFunction function)
  returns : function.signature.returnType.isNull ∨ function.body.returnsAlways

/-- A record type is well typed. Its parent must be another declared record type. -/
structure RecordDecl.WellTyped (record : RecordDecl) : Prop where
  parent : ∀ name, record.parent = some name →
    name.text ≠ record.name ∧ (program.record? name.text).isSome
  properties : ∀ id ∈ record.properties,
    id.WellTyped program lookup (Place.inRecord {} record)
  methods : ∀ method ∈ record.methods,
    method.WellTyped program lookup (Place.inRecord {} record)

/-- A program is well typed. -/
structure Program.WellTyped : Prop where
  globals : ∀ id ∈ program.globals, id.WellTyped program lookup {}
  records : ∀ record ∈ program.records, record.WellTyped program lookup
  functions : ∀ function ∈ program.functions, function.WellTyped program lookup {}
  main : ∀ function ∈ program.main, function.WellTyped program lookup {}
  statements : ∀ stmt ∈ program.statements, stmt.WellTyped program lookup {}

end Judgements

end Offside
