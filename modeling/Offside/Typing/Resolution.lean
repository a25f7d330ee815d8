import Offside.Traversal.Context
import Offside.Typing.Environment
import Offside.Typing.Inheritance

/-!
# Resolution of names

How the name of a variable or function is matched with a declaration. Variables are looked for among
the properties of the current record type, then among the parameters and local variables of the
current function, then among the globals.
-/

namespace Offside

/-- How a name inside a function is matched with a local declaration. -/
inductive LocalLookup where
  /-- The innermost declaration before the reference. Later ones are not seen. -/
  | innermost
  /-- The last declaration among the statements of the function's body, wherever it stands; failing
  that, the innermost one before the reference. -/
  | lastInBody
  deriving DecidableEq, Repr, Inhabited

namespace Program

/-- Whether a handle is that of a declaration of a name. -/
def declares (program : Program) (name : String) (id : VarId) : Bool :=
  (program.decl? id).any fun decl => decl.name == name

/-- The parameter of a function with a given name. -/
def paramOf? (program : Program) (function : Function) (name : String) : Option VarId :=
  (function.signature.params.map Param.decl).find? (program.declares name)

/-- The last declaration of a name among the statements of a function's body. -/
def lastDeclared? (program : Program) (function : Function) (name : String) : Option VarId :=
  function.body.declared.reverse.find? (program.declares name)

/-- The function that a call by name inside a record type, if any, refers to: a method of it, or a
function, or the entry point. -/
def callee? (program : Program) (record : Option RecordDecl) (name : String) :
    Option Function :=
  (record.bind fun record => program.methodOf? record name).or
    ((program.function? name).or (program.main.filter fun main => main.name == name))

end Program

namespace LocalLookup

/-- The innermost declaration of a name in some environments, of which the innermost is first. -/
def nearest? (environments : List Environment) (name : String) : Option VarId :=
  environments.findSome? fun environment => environment.find? name

/-- The local variable of a function that a name refers to. -/
def localOf? (lookup : LocalLookup) (program : Program) (environments : List Environment)
    (function : Function) (name : String) : Option VarId :=
  match lookup with
  | .innermost => nearest? environments name
  | .lastInBody => (program.lastDeclared? function name).or (nearest? environments name)

/-- The variable that a name refers to. -/
def find? (lookup : LocalLookup) (program : Program) (context : Context)
    (environments : List Environment) (name : String) : Option VarId :=
  let property := context.record.bind fun record =>
    (program.propertyOf? record name).map VarDecl.id
  let inner :=
    match context.function with
    | some function =>
      (program.paramOf? function name).or
        (lookup.localOf? program environments function name)
    | none => nearest? environments name
  property.or (inner.or ((program.global? name).map VarDecl.id))

end LocalLookup

end Offside
