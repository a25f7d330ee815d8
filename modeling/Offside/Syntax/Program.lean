import Offside.Error
import Offside.Syntax.Stmt

/-!
# Programs

A program holds the declarations of all its variables, and lists what stands at its top level:
global variables, record types, functions, the entry point and free statements. Globals, functions
and record types are entered under their names, of which each kind keeps its own; what cannot be
entered leaves the program as it was.
-/

namespace Offside

/-- A program. -/
structure Program where
  /-- Every variable declaration, at the index that is its handle. -/
  decls : Array VarDecl := #[]
  /-- The global variables. -/
  globals : List VarId := []
  /-- The record types. -/
  records : List RecordDecl := []
  /-- The functions other than the entry point. -/
  functions : List Function := []
  /-- The function named `main`. -/
  main : Option Function := none
  /-- The statements that stand outside functions. -/
  statements : List Stmt := []
  deriving Inhabited

namespace Program

/-- The name of the function that is the entry point. -/
def mainName : String := "main"

/-- The program without anything in it. -/
def empty : Program := {}

/-- The declaration with a given handle. -/
def decl? (program : Program) (id : VarId) : Option VarDecl :=
  program.decls[id.index]?

/-- The declaration with a handle that is promised to be valid. -/
def decl (program : Program) (id : VarId) : Except Error VarDecl :=
  match program.decl? id with
  | some decl => .ok decl
  | none =>
    .error ⟨.internalError ("dangling declaration handle " ++ toString id.index), Position.null⟩

/-- The global variable with a given name. -/
def global? (program : Program) (name : String) : Option VarDecl :=
  (program.globals.filterMap program.decl?).find? fun decl => decl.name == name

/-- The function with a given name. The entry point is not among them. -/
def function? (program : Program) (name : String) : Option Function :=
  program.functions.find? fun function => function.name == name

/-- The record type with a given name. -/
def record? (program : Program) (name : String) : Option RecordDecl :=
  program.records.find? fun record => record.name == name

/-- The names that no further record type may take. -/
def takenNames (program : Program) : List String :=
  DataType.builtinNames ++ program.records.map RecordDecl.name

mutual

/-- Whether a type mentions only built-in types and declared record types. -/
def knows (program : Program) : DataType → Bool
  | .int .. | .float _ | .bool | .string | .null => true
  | .array element => knows program element
  | .record name => (program.record? name).isSome
  | .function params returns => knowsAll program params && knows program returns
  | .unresolved => false

/-- Whether all of some types mention only built-in types and declared record types. -/
def knowsAll (program : Program) : List DataType → Bool
  | [] => true
  | type :: rest => knows program type && knowsAll program rest

end

/-- The handle that the next declaration gets. -/
def nextDecl (program : Program) : VarId :=
  ⟨program.decls.size⟩

/-- Adds a variable declaration, which gets the next handle. -/
def insertDecl (program : Program) (name : String) (type : DataType) (init : Option Expr)
    (span : Span) : Program :=
  { program with decls := program.decls.push ⟨program.nextDecl, name, type, init, span⟩ }

/-- Adds a free statement. -/
def insertStmt (program : Program) (stmt : Stmt) : Program :=
  { program with statements := program.statements ++ [stmt] }

/-- Makes a declaration a global variable, if no other global has its name. -/
def insertGlobal (program : Program) (id : VarId) : Except Error Program :=
  match program.decl id with
  | .error error => .error error
  | .ok decl =>
    if (program.global? decl.name).isSome then
      .error ⟨.variableAlreadyDeclared decl.name, decl.span.start⟩
    else .ok { program with globals := program.globals ++ [id] }

/-- Adds a function, if no other has its name. The one named `main` becomes the entry point. -/
def insertFunction (program : Program) (function : Function) : Except Error Program :=
  if function.name = mainName then
    if program.main.isSome then .error ⟨.entryPointAlreadyDeclared, function.span.start⟩
    else .ok { program with main := some function }
  else if (program.function? function.name).isSome then
    .error ⟨.functionAlreadyDeclared function.name, function.span.start⟩
  else .ok { program with functions := program.functions ++ [function] }

/-- Adds a record type, if neither another nor a built-in type has its name. -/
def insertRecord (program : Program) (record : RecordDecl) : Except Error Program :=
  if program.takenNames.contains record.name then
    .error ⟨.hotpotAlreadyDeclared record.name, record.span.start⟩
  else .ok { program with records := program.records ++ [record] }

end Program

namespace Signature

/-- The type of a function with this signature. A parameter without a declaration has no type. -/
def type (signature : Signature) (program : Program) : DataType :=
  .function
    (signature.params.map fun param =>
      ((program.decl? param.decl).map VarDecl.type).getD .unresolved)
    signature.returnType

end Signature

end Offside
