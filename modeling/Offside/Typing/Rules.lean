import Offside.Traversal.Order
import Offside.Typing.Annotations
import Offside.Typing.Resolution

/-!
# Typing rules

The rules are the handlers of the traversal that checks a program. They resolve names, give every
expression a type and every declaration a scope, and stop at the first fault. What they find out
they note as findings; they read no annotation, so the findings depend on the program alone.
-/

namespace Offside

/-- What the rules remember from node to node. -/
structure TypingState where
  /-- The local variables of the blocks and loop headers that are visited, the innermost first. -/
  environments : List Environment := []
  /-- The type of the elements of the array that is visited next, if its declaration says so. -/
  pendingElement : Option DataType := none
  /-- What has been found out, in order. -/
  findings : Array Finding := #[]
  deriving Inhabited

/-- What the rules learn by visiting an expression. -/
structure Typed where
  /-- The type of the expression. -/
  type : DataType
  /-- The declaration that a reference is to. -/
  decl? : Option VarId := none
  deriving Inhabited

namespace Rules

/-- An action of a rule. -/
abbrev Check := Visit TypingState

/-- Notes a finding. -/
def note (finding : Finding) : Check Unit :=
  Visit.modifyInner fun state => { state with findings := state.findings.push finding }

/-- Notes the type of an expression, which is what is learned by visiting it. -/
def settle (address : Address) (span : Span) (type : DataType) : Check Typed := do
  note (.type address type span.start)
  return { type }

/-- Requires that a type mentions only built-in types and declared record types. -/
def requireKnown (program : Program) (type : DataType) (span : Span) : Check Unit :=
  if program.knows type then return else Visit.fail (.unknownDataType type) span.start

/-- Requires that the type of an expression agrees with another. -/
def requireAgreement (expr : Expr) (type expected : DataType) : Check Unit :=
  if type.agrees expected then return
  else Visit.fail (.cannotConvertValue type expected) expr.span.start

/-- Sets the type of the elements of the array that is visited next. -/
def setPending (element : Option DataType) : Check Unit :=
  Visit.modifyInner fun state => { state with pendingElement := element }

/-- Takes the type of the elements of the array that is visited now. -/
def takePending : Check (Option DataType) := do
  let state ← Visit.inner
  setPending none
  return state.pendingElement

/-- Runs an action with a new environment inside those there are, and drops it in any case. -/
def inNewEnvironment {α : Type} : Check α → Check α :=
  Visit.between
    (fun state =>
      let inner := state.inner
      { state with inner := { inner with environments := {} :: inner.environments } })
    fun _ state =>
      let inner := state.inner
      { state with inner := { inner with environments := inner.environments.tail } }

/-- Declares a name in the innermost environment, if there is one. -/
def declareLocal (name : String) (decl : VarId) : Check Unit :=
  Visit.modifyInner fun state =>
    match state.environments with
    | [] => state
    | innermost :: outer =>
      { state with environments := innermost.declare name decl :: outer }

/-- The type of a constant. -/
def literalType : Literal → DataType
  | .null => .null
  | .int _ => .int64
  | .float _ => .double
  | .bool _ => .bool
  | .string _ => .string

/-- The type that the elements of an element have, if it is declared to be an array. -/
def innerElement? : Option DataType → Option DataType
  | some (.array inner) => some inner
  | _ => none

/-- Visits the elements of an array, of which those that are arrays have elements of a given type.
-/
def elements (inner : Option DataType) :
    List (Part TypingState Typed) → Check (List (Expr × DataType))
  | [] => return []
  | part :: rest => do
    if part.expr.isArray then setPending inner
    let typed ← part.visit
    return (part.expr, typed.type) :: (← elements inner rest)

/-- Visits some arguments. -/
def arguments (args : List (Part TypingState Typed)) : Check Unit :=
  args.forM fun part => discard part.visit

/-- The type that a binary operator gives to operands of given types. -/
def binaryType (operator : Operator) (left right : Expr) (leftType rightType : DataType) :
    Check DataType := do
  match operator.operatorClass with
  | .arithmetic | .assignment =>
    requireAgreement right rightType leftType
    return leftType
  | .comparison =>
    requireAgreement right rightType leftType
    return .bool
  | .logical =>
    requireAgreement left leftType .bool
    requireAgreement right rightType .bool
    return .bool

/-- The type that a unary operator gives to an operand of a given type. -/
def unaryType (operator : Operator) (operand : Expr) (type : DataType) : Check DataType := do
  match operator with
  | .not =>
    requireAgreement operand type .bool
    return .bool
  | _ => return type

/-- The record type whose members a receiver has: that of a variable declared to be a record. -/
def ownerOf? (program : Program) (receiver : Typed) : Option RecordDecl := do
  let decl ← program.decl? (← receiver.decl?)
  program.record? (← decl.type.recordName?)

/-- What surrounds the current node gives a declaration its scope. -/
def scopeOf (context : Context) : Scope :=
  match context.function, context.record with
  | some function, _ => .local function.id
  | none, some record => .property record.id
  | none, none => .global

/-- Checks expressions. -/
def exprs (program : Program) (lookup : LocalLookup) :
    ExprHandlers TypingState Typed where
  expr _ _ visit := visit
  literal address value span := settle address span (literalType value)
  array address values span := do
    let declared ← takePending
    let typed ← elements (innerElement? declared) values
    let element := declared.getD ((typed.head?.map Prod.snd).getD .unresolved)
    typed.forM fun (value, type) => requireAgreement value type element
    settle address span (.array element)
  reference address name span := do
    let context ← Visit.context
    let state ← Visit.inner
    match (lookup.find? program context state.environments name).bind program.decl? with
    | none => Visit.fail (.unknownVariable name) span.start
    | some decl =>
      note (.link address decl.id name span.start)
      let typed ← settle address span decl.type
      return { typed with decl? := some decl.id }
  binary address operator left right span := do
    let leftTyped ← left.visit
    let rightTyped ← right.visit
    settle address span
      (← binaryType operator left.expr right.expr leftTyped.type rightTyped.type)
  unary address operator operand span := do
    let typed ← operand.visit
    settle address span (← unaryType operator operand.expr typed.type)
  call address callee args span := do
    arguments args
    if (program.record? callee.text).isSome then
      note (.constructor address)
      settle address span (.record callee.text)
    else
      let context ← Visit.context
      match program.callee? context.record callee.text with
      | some function => settle address span function.signature.returnType
      | none => Visit.fail (.unknownFunction callee.text) callee.span.start
  method address receiver callee args span := do
    let typed ← receiver.visit
    arguments args
    match ownerOf? program typed with
    | none => Visit.fail (.cannotCallMethod callee.text) receiver.expr.span.start
    | some record =>
      match program.methodOf? record callee.text with
      | some function => settle address span function.signature.returnType
      | none => Visit.fail (.unknownFunction callee.text) callee.span.start
  property address receiver member span := do
    let typed ← receiver.visit
    match (ownerOf? program typed).bind fun record =>
        program.propertyOf? record member.text with
    | some decl => settle address span decl.type
    | none => Visit.fail (.cannotFindProperty member.text) member.span.start

/-- The type of the elements that a declaration gives to the array that is its first value. -/
def declaredElement? (decl : VarDecl) : Option DataType :=
  match decl.init, decl.type with
  | some init, .array element => if init.isArray then some element else none
  | _, _ => none

/-- Runs an action for which the elements of an array are declared to have a certain type, and
forgets that type in any case. -/
def withPending {α : Type} (element : Option DataType) : Check α → Check α :=
  Visit.between
    (fun state =>
      let inner := state.inner
      { state with inner := { inner with pendingElement := element } })
    fun _ state =>
      let inner := state.inner
      { state with inner := { inner with pendingElement := none } }

/-- Checks the declaration of a variable, given the visit of its first value. Unless it is a
property or is not to be seen by name, the variable is local to the innermost block. -/
def varDecl (program : Program) (seen : Bool) (decl : VarDecl)
    (init : Check (Option Typed)) : Check Unit := do
  requireKnown program decl.type decl.span
  let typed? ← withPending (declaredElement? decl) init
  match decl.init, typed? with
  | some init, some typed => requireAgreement init typed.type decl.type
  | _, _ => pure ()
  let scope := scopeOf (← Visit.context)
  note (.scope decl.id scope decl.name decl.span.start)
  match seen, scope with
  | true, .global | true, .local _ => declareLocal decl.name decl.id
  | _, _ => pure ()

/-- Checks a parameter, which must be local to a function. -/
def param (program : Program) (lookup : LocalLookup) (param : Param) : Check Unit := do
  let decl ← Visit.ofExcept (program.decl param.decl)
  varDecl program false decl (traverseInit (exprs program lookup) decl)
  match scopeOf (← Visit.context) with
  | .local _ => pure ()
  | _ =>
    Visit.fail
      (.internalError ("parameter \x60" ++ decl.name ++ "\x60 is not local to its function"))
      param.span.start

/-- Requires that the parent of a record type, if it has one, is another declared record type. -/
def parent (program : Program) (record : RecordDecl) : Check Unit :=
  match record.parent with
  | none => return
  | some name =>
    if name.text = record.name ∨ (program.record? name.text).isNone then
      Visit.fail (.unknownDataType (.record name.text)) name.span.start
    else return

/-- Checks a function, given the visit of its parts. -/
def function (program : Program) (function : Function) (parts : Check Unit) : Check Unit := do
  let type := function.signature.returnType
  requireKnown program type function.signature.span
  parts
  if !type.isNull && !function.body.returnsAlways then
    Visit.fail (.notAllPathsReturn type) function.span.start

/-- Checks a `return`, whose value must have the type that the function returns. -/
def returns (value : Part TypingState Typed) (span : Span) : Check Unit := do
  match (← Visit.context).function with
  | none => Visit.fail .returnNotAllowed span.start
  | some function =>
    let typed ← value.visit
    if !typed.type.agrees function.signature.returnType then
      Visit.fail (.returnTypeMismatch typed.type function.name) value.expr.span.start

/-- Requires that a loop is visited. -/
def insideLoop (cause : ErrorCause) (span : Span) : Check Unit := do
  if (← Visit.context).loop.isNone then Visit.fail cause span.start

end Rules

open Rules in
/-- The handlers that check a program. -/
def rules (program : Program) (lookup : LocalLookup) :
    Handlers TypingState Typed where
  toExprHandlers := exprs program lookup
  decl _ visit := visit
  varDecl decl init := Rules.varDecl program true decl init
  param param _ := Rules.param program lookup param
  signature _ params := params
  function function parts := Rules.function program function parts
  record record members := do
    parent program record
    members
  stmt _ visit := visit
  block _ body := inNewEnvironment body
  returns value span := Rules.returns value span
  branch _ parts := parts
  forLoop parts := inNewEnvironment parts
  whileLoop parts := parts
  expression value := discard value.visit
  declare decl := decl
  breakLoop span := insideLoop .breakNotAllowed span
  continueLoop span := insideLoop .continueNotAllowed span

end Offside
