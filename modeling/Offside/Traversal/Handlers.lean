import Offside.Syntax.Address
import Offside.Traversal.Context

/-!
# Handlers

What a traversal does at the nodes of a program is up to its handlers, one for each sort of node. A
handler is given the node and the visits of its parts, and decides what to do before, between and
after them; a visit of an expression has a result of type `ρ`. Expressions do not contain
statements, so their handlers stand by themselves.
-/

namespace Offside

/-- A part of an expression, with its visit. -/
structure Part (σ ρ : Type) where
  /-- The part. -/
  expr : Expr
  /-- Visits it. -/
  visit : Visit σ ρ

/-- What to do at the nodes of expressions. -/
structure ExprHandlers (σ ρ : Type) where
  /-- At every expression, around the handler for its sort. -/
  expr : Address → Expr → Visit σ ρ → Visit σ ρ
  literal : Address → Literal → Span → Visit σ ρ
  array : Address → (values : List (Part σ ρ)) → Span → Visit σ ρ
  reference : Address → (name : String) → Span → Visit σ ρ
  binary : Address → Operator → (left right : Part σ ρ) → Span → Visit σ ρ
  unary : Address → Operator → (operand : Part σ ρ) → Span → Visit σ ρ
  call : Address → (callee : Name) → (args : List (Part σ ρ)) → Span → Visit σ ρ
  method : Address → (receiver : Part σ ρ) → (callee : Name) → (args : List (Part σ ρ)) → Span →
    Visit σ ρ
  property : Address → (receiver : Part σ ρ) → (member : Name) → Span → Visit σ ρ

/-- A declaration, with the place where the trees in it hang. -/
inductive Declaration where
  | var (decl : VarDecl)
  | param (param : Param)
  | signature (signature : Signature)
  | function (root : Root) (function : Function)
  | record (index : Nat) (record : RecordDecl)

/-- What to do at the nodes of a program. Each handler is given the node and the visit of its parts.
-/
structure Handlers (σ ρ : Type) extends ExprHandlers σ ρ where
  /-- At every declaration of the top level, around the handler for its sort. -/
  decl : Declaration → Visit σ Unit → Visit σ Unit
  varDecl : VarDecl → (init : Visit σ (Option ρ)) → Visit σ Unit
  param : Param → (decl : Visit σ Unit) → Visit σ Unit
  signature : Signature → (params : Visit σ Unit) → Visit σ Unit
  function : Function → (parts : Visit σ Unit) → Visit σ Unit
  record : RecordDecl → (members : Visit σ Unit) → Visit σ Unit
  /-- At every statement, around the handler for its sort. -/
  stmt : Stmt → Visit σ Unit → Visit σ Unit
  block : Block → (body : Visit σ Unit) → Visit σ Unit
  returns : (value : Part σ ρ) → Span → Visit σ Unit
  branch : (branches : List Branch) → (parts : Visit σ Unit) → Visit σ Unit
  forLoop : (parts : Visit σ Unit) → Visit σ Unit
  whileLoop : (parts : Visit σ Unit) → Visit σ Unit
  expression : (value : Part σ ρ) → Visit σ Unit
  declare : (decl : Visit σ Unit) → Visit σ Unit
  breakLoop : Span → Visit σ Unit
  continueLoop : Span → Visit σ Unit

end Offside
