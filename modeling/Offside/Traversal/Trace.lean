import Offside.Traversal.Order

/-!
# Traces of traversals

A trace lists what a traversal goes by, each event with what surrounds it at that moment. The full
trace has an event for every node; the trace of names has one for each variable that is declared or
referred to. Either can be made to fail at the first reference to a certain name.
-/

namespace Offside

/-- Something that a traversal goes by. -/
inductive TraceEvent where
  | decl (decl : Declaration)
  | varDecl (decl : VarDecl)
  | param (param : Param)
  | signature (signature : Signature)
  | function (function : Function)
  | endFunction (function : Function)
  | record (record : RecordDecl)
  | endRecord (record : RecordDecl)
  | stmt (stmt : Stmt)
  | block (block : Block)
  | endBlock
  | returns
  | branch (branches : Nat)
  | forLoop
  | whileLoop
  | expression
  | declare
  | breakLoop
  | continueLoop
  | expr (expr : Expr)
  | literal
  | array (values : Nat)
  | reference (name : String)
  | binary (operator : Operator)
  | unary (operator : Operator)
  | call (callee : String)
  | method (callee : String)
  | property (member : String)

/-- An event and what surrounded it. -/
structure TraceEntry where
  /-- The event. -/
  event : TraceEvent
  /-- What surrounded it. -/
  context : Context

/-- The events of a traversal, in order. -/
abbrev Trace := Array TraceEntry

namespace Trace

/-- Notes an event. -/
def note (event : TraceEvent) : Visit Trace Unit := do
  let context ← Visit.context
  Visit.modifyInner fun trace => trace.push ⟨event, context⟩

/-- Visits some expressions, in order. -/
def visitParts (parts : List (Part Trace Unit)) : Visit Trace Unit :=
  parts.forM Part.visit

/-- Notes a reference, or fails if it is to the forbidden name. -/
def reference (forbidden : Option String) (name : String) (span : Span) : Visit Trace Unit :=
  if forbidden = some name then Visit.fail (.unknownVariable name) span.start
  else note (.reference name)

/-- The handlers that go by every node and note the names of variables. -/
def names (forbidden : Option String) : Handlers Trace Unit where
  expr _ _ visit := visit
  literal _ _ _ := return
  array _ values _ := visitParts values
  reference _ name span := reference forbidden name span
  binary _ _ left right _ := visitParts [left, right]
  unary _ _ operand _ := operand.visit
  call _ _ args _ := visitParts args
  method _ receiver _ args _ := visitParts (receiver :: args)
  property _ receiver _ _ := receiver.visit
  decl _ visit := visit
  varDecl decl init := do
    note (.varDecl decl)
    discard init
  param _ decl := decl
  signature _ params := params
  function _ parts := parts
  record _ members := members
  stmt _ visit := visit
  block _ body := body
  returns value _ := value.visit
  branch _ parts := parts
  forLoop parts := parts
  whileLoop parts := parts
  expression value := value.visit
  declare decl := decl
  breakLoop _ := return
  continueLoop _ := return

/-- The handlers that note every node before they visit its parts. -/
def full (forbidden : Option String) : Handlers Trace Unit where
  expr _ expr visit := do
    note (.expr expr)
    visit
  literal _ _ _ := note .literal
  array _ values _ := do
    note (.array values.length)
    visitParts values
  reference _ name span := reference forbidden name span
  binary _ operator left right _ := do
    note (.binary operator)
    visitParts [left, right]
  unary _ operator operand _ := do
    note (.unary operator)
    operand.visit
  call _ callee args _ := do
    note (.call callee.text)
    visitParts args
  method _ receiver callee args _ := do
    note (.method callee.text)
    visitParts (receiver :: args)
  property _ receiver member _ := do
    note (.property member.text)
    receiver.visit
  decl decl visit := do
    note (.decl decl)
    visit
  varDecl decl init := do
    note (.varDecl decl)
    discard init
  param param decl := do
    note (.param param)
    decl
  signature signature params := do
    note (.signature signature)
    params
  function function parts := do
    note (.function function)
    parts
    note (.endFunction function)
  record record members := do
    note (.record record)
    members
    note (.endRecord record)
  stmt stmt visit := do
    note (.stmt stmt)
    visit
  block block body := do
    note (.block block)
    body
    note .endBlock
  returns value _ := do
    note .returns
    value.visit
  branch branches parts := do
    note (.branch branches.length)
    parts
  forLoop parts := do
    note .forLoop
    parts
  whileLoop parts := do
    note .whileLoop
    parts
  expression value := do
    note .expression
    value.visit
  declare decl := do
    note .declare
    decl
  breakLoop _ := note .breakLoop
  continueLoop _ := note .continueLoop

/-- Runs a traversal outside of everything, and returns its outcome, its trace and what surrounded
it in the end. -/
def run (visit : Visit Trace Unit) : Except Error Unit × Trace × Context :=
  let (outcome, state) := visit.run { inner := #[] }
  (outcome, state.inner, state.context)

end Trace

end Offside
