import Offside.Typing.Analysis

/-! # Checking cell by cell

The rules learn the type of a part from the visit of the part, and what they find out is entered in
the end. A check can as well fill in a cell the moment it finds something out, stop there if the
cell is filled already, and read the cell where it needs to know. Such a check depends on what the
annotations hold before it. Its handlers differ from the rules only where cells are touched.
-/

namespace Offside

namespace Cells

open Rules

variable (annotations : Annotations)

/-- What the cells hold in a state: what they held before the check, and what it has filled in. -/
def held (state : TypingState) : Annotations :=
  (annotations.enterAll state.findings.toList).1

/-- Notes a finding, given what comes of entering it. -/
def noteIf (finding : Finding) : Except Error Annotations → Check Unit
  | .ok _ => note finding
  | .error error => throw error

/-- Fills in a cell, which must be empty. -/
def fill (finding : Finding) : Check Unit := do
  noteIf finding ((held annotations (← Visit.inner)).enter finding)

/-- The type in the cell of an expression. -/
def typeAt (address : Address) : Check DataType := do
  return ((held annotations (← Visit.inner)).type? address).getD .unresolved

/-- Fills in the type of an expression. The visit of an expression tells where it is. -/
def settle (address : Address) (span : Span) (type : DataType) : Check Address := do
  fill annotations (.type address type span.start)
  return address

/-- Requires that the type in the cell of an expression agrees with another. -/
def requireAgreementAt (expr : Expr) (address : Address) (expected : DataType) : Check Unit := do
  requireAgreement expr (← typeAt annotations address) expected

/-- Visits the elements of an array, of which those that are arrays have elements of a given type.
-/
def elements (inner : Option DataType) :
    List (Part TypingState Address) → Check (List (Expr × Address))
  | [] => return []
  | part :: rest => do
    if part.expr.isArray then setPending inner
    let address ← part.visit
    return (part.expr, address) :: (← elements inner rest)

/-- The type of the elements of an array: what they are declared to be, or else the type in the cell
of the first one. -/
def elementType : Option DataType → List (Expr × Address) → Check DataType
  | some element, _ => return element
  | none, [] => return .unresolved
  | none, (_, address) :: _ => typeAt annotations address

/-- Visits some arguments. -/
def arguments (args : List (Part TypingState Address)) : Check Unit :=
  args.forM fun part => discard part.visit

/-- The declaration in the cell of an expression, which only a reference has. -/
def link? (held : Annotations) : Expr → Address → Option VarId
  | .reference .., address => held.link? address
  | _, _ => none

/-- The declaration in the cell of an expression. -/
def linkAt (expr : Expr) (address : Address) : Check (Option VarId) := do
  return link? (held annotations (← Visit.inner)) expr address

/-- Checks expressions. -/
def exprs (program : Program) (lookup : LocalLookup) : ExprHandlers TypingState Address where
  expr _ _ visit := visit
  literal address value span := settle annotations address span (literalType value)
  array address values span := do
    let declared ← takePending
    let visited ← elements (innerElement? declared) values
    let element ← elementType annotations declared visited
    visited.forM fun (value, address) => requireAgreementAt annotations value address element
    settle annotations address span (.array element)
  reference address name span := do
    let context ← Visit.context
    let state ← Visit.inner
    match (lookup.find? program context state.environments name).bind program.decl? with
    | none => Visit.fail (.unknownVariable name) span.start
    | some decl =>
      fill annotations (.link address decl.id name span.start)
      settle annotations address span decl.type
  binary address operator left right span := do
    let leftAddress ← left.visit
    let rightAddress ← right.visit
    let leftType ← typeAt annotations leftAddress
    let rightType ← typeAt annotations rightAddress
    settle annotations address span
      (← binaryType operator left.expr right.expr leftType rightType)
  unary address operator operand span := do
    let operandAddress ← operand.visit
    let type ← typeAt annotations operandAddress
    settle annotations address span (← unaryType operator operand.expr type)
  call address callee args span := do
    arguments args
    if (program.record? callee.text).isSome then
      fill annotations (.constructor address)
      settle annotations address span (.record callee.text)
    else
      let context ← Visit.context
      match program.callee? context.record callee.text with
      | some function => settle annotations address span function.signature.returnType
      | none => Visit.fail (.unknownFunction callee.text) callee.span.start
  method address receiver callee args span := do
    let receiverAddress ← receiver.visit
    arguments args
    let decl? ← linkAt annotations receiver.expr receiverAddress
    match ownerOf? program { type := .unresolved, decl? } with
    | none => Visit.fail (.cannotCallMethod callee.text) receiver.expr.span.start
    | some record =>
      match program.methodOf? record callee.text with
      | some function => settle annotations address span function.signature.returnType
      | none => Visit.fail (.unknownFunction callee.text) callee.span.start
  property address receiver member span := do
    let receiverAddress ← receiver.visit
    let decl? ← linkAt annotations receiver.expr receiverAddress
    match (ownerOf? program { type := .unresolved, decl? }).bind fun record =>
        program.propertyOf? record member.text with
    | some decl => settle annotations address span decl.type
    | none => Visit.fail (.cannotFindProperty member.text) member.span.start

/-- Checks the declaration of a variable, given the visit of its first value. -/
def varDecl (program : Program) (seen : Bool) (decl : VarDecl)
    (init : Check (Option Address)) : Check Unit := do
  requireKnown program decl.type decl.span
  let address? ← withPending (declaredElement? decl) init
  match decl.init, address? with
  | some init, some address => requireAgreementAt annotations init address decl.type
  | _, _ => pure ()
  let scope := scopeOf (← Visit.context)
  fill annotations (.scope decl.id scope decl.name decl.span.start)
  match seen, scope with
  | true, .global | true, .local _ => declareLocal decl.name decl.id
  | _, _ => pure ()

/-- Checks a parameter, which must be local to a function. -/
def param (program : Program) (lookup : LocalLookup) (param : Param) : Check Unit := do
  let decl ← Visit.ofExcept (program.decl param.decl)
  varDecl annotations program false decl (traverseInit (exprs annotations program lookup) decl)
  match (held annotations (← Visit.inner)).scope? decl.id with
  | some (.local _) => pure ()
  | _ =>
    Visit.fail
      (.internalError ("parameter \x60" ++ decl.name ++ "\x60 is not local to its function"))
      param.span.start

/-- Checks a `return`, whose value must have the type that the function returns. -/
def returns (value : Part TypingState Address) (span : Span) : Check Unit := do
  match (← Visit.context).function with
  | none => Visit.fail .returnNotAllowed span.start
  | some function =>
    let address ← value.visit
    let type ← typeAt annotations address
    if !type.agrees function.signature.returnType then
      Visit.fail (.returnTypeMismatch type function.name) value.expr.span.start

/-- The handlers that check a program cell by cell. -/
def rules (program : Program) (lookup : LocalLookup) : Handlers TypingState Address where
  toExprHandlers := exprs annotations program lookup
  decl _ visit := visit
  varDecl decl init := varDecl annotations program true decl init
  param given _ := param annotations program lookup given
  signature _ params := params
  function function parts := Rules.function program function parts
  record record members := do
    parent program record
    members
  stmt _ visit := visit
  block _ body := inNewEnvironment body
  returns value span := returns annotations value span
  branch _ parts := parts
  forLoop parts := inNewEnvironment parts
  whileLoop parts := parts
  expression value := discard value.visit
  declare decl := decl
  breakLoop span := insideLoop .breakNotAllowed span
  continueLoop span := insideLoop .continueNotAllowed span

end Cells

/-- Checks a program cell by cell. -/
def Program.checkCells (program : Program) (lookup : LocalLookup)
    (annotations : Annotations := {}) : Annotations × Except Error Unit :=
  let (outcome, state) :=
    (traverseProgram (Cells.rules annotations program lookup) program).run { inner := {} }
  (Cells.held annotations state.inner, outcome)

end Offside
