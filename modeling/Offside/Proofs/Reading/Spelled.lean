import Offside.Grammar.Operators
import Offside.Syntax.Stmt

/-! # Trees that are read

Not every tree can be read from a text. The names and texts in those that can be are the values of
tokens, numbers are in range, and a minus before a number has become part of the number. What the
tokens of a text can be is left open: `good` says it of their kinds and values.
-/

namespace Offside

section Spelled

variable (good : TokenKind → String → Prop)

/-- A constant that can be read. -/
def Literal.Spelled : Literal → Prop
  | .null | .bool _ => True
  | .int value => Number.Signed64.fits value = true
  | .float value => ∃ text, good .float text ∧
    (Number.Binary64.read? text.toList = some value ∨
      Number.Binary64.read? text.toList = some value.negate)
  | .string value => good .string value

/-- An expression that can be read. -/
inductive Expr.Spelled : Expr → Prop where
  | literal {value span} : value.Spelled good → Spelled (.literal value span)
  | array {values span} : (∀ value ∈ values, Spelled value) → Spelled (.array values span)
  | reference {name span} : good .identifier name → Spelled (.reference name span)
  | binary {operator left right span} :
    (Grammar.operatorPrecedence? operator).isSome → Spelled left → Spelled right →
    Spelled (.binary operator left right span)
  /-- The operand has not taken in its sign. -/
  | unary {operator operand span} :
    operator.isUnary = true → Spelled operand →
    (∀ span, Expr.ofSigned operator operand span = .unary operator operand span) →
    Spelled (.unary operator operand span)
  | call {callee args span} :
    good .identifier callee.text → (∀ arg ∈ args, good .identifier arg.label.text) →
    (∀ arg ∈ args, Spelled arg.value) → Spelled (.call callee args span)
  | method {receiver callee args span} :
    Spelled receiver → good .identifier callee.text →
    (∀ arg ∈ args, good .identifier arg.label.text) → (∀ arg ∈ args, Spelled arg.value) →
    Spelled (.method receiver callee args span)
  | property {receiver member span} :
    Spelled receiver → good .identifier member.text → Spelled (.property receiver member span)

/-- A type that can be read. -/
def DataType.Spelled (type : DataType) : Prop :=
  ∃ kind name levels, (kind = .identifier ∨ kind = .nullWord) ∧ good kind name ∧
    type = (DataType.ofName name).nested levels

/-- A declaration that can be read. -/
structure VarDecl.Spelled (decl : VarDecl) : Prop where
  name : good .identifier decl.name
  type : decl.type.Spelled good
  init : ∀ init, decl.init = some init → init.Spelled good

mutual

/-- A statement that can be read. -/
inductive Stmt.Spelled : Stmt → Prop where
  | returns {value span} : value.Spelled good → Stmt.Spelled (.returns value span)
  | branch {first others otherwise span} :
    Branch.Spelled first → (∀ branch ∈ others, Branch.Spelled branch) →
    (∀ body ∈ otherwise, Block.Spelled body) →
    Stmt.Spelled (.branch (first :: others) otherwise span)
  | forLoop {init condition step body span} :
    condition.Spelled good → step.Spelled good → Block.Spelled body →
    Stmt.Spelled (.forLoop init condition step body span)
  | whileLoop {condition body span} :
    condition.Spelled good → Block.Spelled body → Stmt.Spelled (.whileLoop condition body span)
  | expression {value} : value.Spelled good → Stmt.Spelled (.expression value)
  | declare {decl span} : Stmt.Spelled (.declare decl span)
  | breakLoop {span} : Stmt.Spelled (.breakLoop span)
  | continueLoop {span} : Stmt.Spelled (.continueLoop span)

/-- A block that can be read. There is no empty one. -/
inductive Block.Spelled : Block → Prop where
  | mk {body span} : body ≠ [] → (∀ stmt ∈ body, Stmt.Spelled stmt) → Block.Spelled ⟨body, span⟩

/-- A branch that can be read. -/
inductive Branch.Spelled : Branch → Prop where
  | mk {condition body} :
    condition.Spelled good → Block.Spelled body → Branch.Spelled ⟨condition, body⟩

end

/-- A function that can be read, with its parameters among some declarations. The type that it
returns may be left out, and then is null. -/
structure Function.Spelled (decls : Array VarDecl) (function : Function) : Prop where
  name : good .identifier function.name
  params : ∀ param ∈ function.signature.params, ∃ decl, decls[param.decl.index]? = some decl ∧
    decl.init = none
  returnType : function.signature.returnType = .null ∨ function.signature.returnType.Spelled good
  body : function.body.Spelled good

/-- A record type that can be read. Its number is handed out behind those of its methods. -/
structure RecordDecl.Spelled (decls : Array VarDecl) (record : RecordDecl) : Prop where
  name : good .identifier record.name
  parent : ∀ name, record.parent = some name → good .identifier name.text
  methods : ∀ method ∈ record.methods, method.Spelled good decls
  numbers : ∀ method ∈ record.methods, method.id.number < record.id.number

end Spelled

end Offside
