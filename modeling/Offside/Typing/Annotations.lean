import Offside.Syntax.Address
import Offside.Syntax.Program

/-!
# Annotations

What checking finds out about a program: the types of expressions, the declarations that references
are to, which calls construct a record, and the scopes of declarations. A finding is entered once;
entering another one in its place is an error, except that a call may be found to construct a record
again and again.
-/

namespace Offside

/-- What a variable belongs to. -/
inductive Scope where
  | global
  /-- A parameter or local variable of a function. -/
  | local (function : FuncId)
  /-- A property of a record type. -/
  | property (record : RecordId)
  deriving DecidableEq, Repr, Inhabited

/-- Something found out about a node, or about a declaration. Its name and place are for the error
that tells of a second finding. -/
inductive Finding where
  | type (address : Address) (type : DataType) (position : Position)
  | link (address : Address) (decl : VarId) (name : String) (position : Position)
  | constructor (address : Address)
  | scope (decl : VarId) (scope : Scope) (name : String) (position : Position)

/-- The findings about a program, by node and by declaration. -/
structure Annotations where
  /-- The types of expressions. -/
  types : List (Address × DataType) := []
  /-- The declarations of references. -/
  links : List (Address × VarId) := []
  /-- The calls that construct a record. -/
  constructors : List Address := []
  /-- The scopes of declarations. -/
  scopes : List (VarId × Scope) := []
  deriving Inhabited

namespace Annotations

/-- The type of the expression at an address. -/
def type? (annotations : Annotations) (address : Address) : Option DataType :=
  annotations.types.lookup address

/-- The declaration that the reference at an address is to. -/
def link? (annotations : Annotations) (address : Address) : Option VarId :=
  annotations.links.lookup address

/-- Whether the call at an address constructs a record. -/
def isConstructor (annotations : Annotations) (address : Address) : Bool :=
  annotations.constructors.contains address

/-- The scope of a declaration. -/
def scope? (annotations : Annotations) (decl : VarId) : Option Scope :=
  annotations.scopes.lookup decl

/-- Enters a finding. -/
def enter (annotations : Annotations) : Finding → Except Error Annotations
  | .type address type position =>
    if (annotations.type? address).isSome then
      .error ⟨.internalError "expression typed twice", position⟩
    else .ok { annotations with types := (address, type) :: annotations.types }
  | .link address decl name position =>
    if (annotations.link? address).isSome then
      .error ⟨.internalError ("variable \x60" ++ name ++ "\x60 resolved twice"), position⟩
    else .ok { annotations with links := (address, decl) :: annotations.links }
  | .constructor address =>
    if annotations.isConstructor address then .ok annotations
    else .ok { annotations with constructors := address :: annotations.constructors }
  | .scope decl scope name position =>
    if (annotations.scope? decl).isSome then
      .error ⟨.internalError ("scope of \x60" ++ name ++ "\x60 resolved twice"), position⟩
    else .ok { annotations with scopes := (decl, scope) :: annotations.scopes }

/-- Enters findings in order, up to the first that cannot be entered. -/
def enterAll (annotations : Annotations) : List Finding → Annotations × Except Error Unit
  | [] => (annotations, .ok ())
  | finding :: rest =>
    match annotations.enter finding with
    | .ok annotations => annotations.enterAll rest
    | .error error => (annotations, .error error)

end Annotations

end Offside
