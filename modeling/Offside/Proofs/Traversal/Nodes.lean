import Offside.Proofs.Handles
import Offside.Traversal.Trace

/-! # The nodes of a program

What there is to visit in a program is said here without any traversal. A node lists the nodes right
below it, in the order of the source, and says of each whether it stands inside of something: a
function, a record type, a block or the body of a loop. A node is found by the path that leads down
to it, and what surrounds it is what the path goes into. Paths are ordered like the entries of a
dictionary, so that a node comes before all that is below it and after all that stands before it.
-/

namespace Offside

/-- Something that nodes stand inside of. -/
inductive Boundary where
  | function (function : Function)
  | record (record : RecordDecl)
  | block (block : Block)
  /-- The body of a loop. Its header is outside. -/
  | loop (loop : Stmt)

namespace Boundary

/-- The function that something is. -/
def function? : Boundary → Option Function
  | .function entered => some entered
  | _ => none

/-- The record type that something is. -/
def record? : Boundary → Option RecordDecl
  | .record entered => some entered
  | _ => none

/-- The block that something is. -/
def block? : Boundary → Option Block
  | .block entered => some entered
  | _ => none

/-- The loop whose body something is. -/
def loop? : Boundary → Option Stmt
  | .loop entered => some entered
  | _ => none

end Boundary

/-- The innermost of each kind of what surrounds a node, which is listed from the inside out. -/
def Context.innermost (outer : List Boundary) : Context where
  function := outer.findSome? Boundary.function?
  record := outer.findSome? Boundary.record?
  block := outer.findSome? Boundary.block?
  loop := outer.findSome? Boundary.loop?

/-- A node of a program. -/
inductive Node where
  | program
  /-- A declaration of the top level. -/
  | item (decl : Declaration)
  | varDecl (decl : VarDecl)
  | param (param : Param)
  | signature (signature : Signature)
  | function (function : Function)
  | record (record : RecordDecl)
  | stmt (stmt : Stmt)
  | block (block : Block)
  | expr (expr : Expr)

/-- A node, and what it stands inside of that the node above it does not. -/
structure Branching where
  entered : Option Boundary := none
  node : Node

namespace Node

/-- A node that stands inside of nothing more than the node above it. -/
def here (node : Node) : Branching :=
  { node }

/-- A node that stands inside of something that the node above it is not in. -/
def within (boundary : Boundary) (node : Node) : Branching :=
  ⟨some boundary, node⟩

/-- The declarations with given handles. -/
def varDecls (program : Program) (ids : List VarId) : List Node :=
  (ids.filterMap program.decl?).map varDecl

/-- What stands at the top level of a program. -/
def items (program : Program) : List Node :=
  (program.globals.filterMap program.decl?).map (fun decl => item (.var decl)) ++
    program.records.zipIdx.map (fun (declared, index) => item (.record index declared)) ++
    program.functions.zipIdx.map (fun (declared, index) =>
      item (.function (.function index) declared)) ++
    program.main.toList.map (fun declared => item (.function .main declared)) ++
    program.statements.map stmt

/-- The parts of an expression. -/
def ofExpr : Expr → List Expr
  | .literal .. | .reference .. => []
  | .array values _ => values
  | .binary _ left right _ => [left, right]
  | .unary _ operand _ => [operand]
  | .call _ args _ => args.map Arg.value
  | .method receiver _ args _ => receiver :: args.map Arg.value
  | .property receiver _ _ => [receiver]

/-- The parts of a statement. -/
def ofStmt (program : Program) : Stmt → List Branching
  | .block body => [here (block body)]
  | .returns value _ => [here (expr value)]
  | .branch branches otherwise _ =>
    branches.flatMap (fun branch => [here (expr branch.condition), here (block branch.body)]) ++
      otherwise.toList.map fun body => here (block body)
  | node@(.forLoop init condition step body _) =>
    (varDecls program [init]).map here ++
      [here (expr condition), here (expr step), within (.loop node) (block body)]
  | node@(.whileLoop condition body _) =>
    [here (expr condition), within (.loop node) (block body)]
  | .expression value => [here (expr value)]
  | .declare decl _ => (varDecls program [decl]).map here
  | .breakLoop _ | .continueLoop _ => []

/-- The nodes right below a node, in order. -/
def parts (program : Program) : Node → List Branching
  | .program => (items program).map here
  | .item (.var decl) => [here (varDecl decl)]
  | .item (.param declared) => [here (param declared)]
  | .item (.signature declared) => [here (signature declared)]
  | .item (.function _ declared) => [here (function declared)]
  | .item (.record _ declared) => [here (record declared)]
  | .varDecl decl => decl.init.toList.map fun init => here (expr init)
  | .param declared => (varDecls program [declared.decl]).map here
  | .signature declared => declared.params.map fun parameter => here (param parameter)
  | .function declared =>
    [signature declared.signature, block declared.body].map (within (.function declared))
  | .record declared =>
    (varDecls program declared.properties ++ declared.methods.map function).map
      (within (.record declared))
  | .stmt parent => ofStmt program parent
  | .block body => (body.body.map stmt).map (within (.block body))
  | .expr parent => (ofExpr parent).map fun part => here (expr part)

/-- The variable declaration that a node is. -/
def varDecl? : Node → Option VarDecl
  | varDecl decl => some decl
  | _ => none

/-- What a full trace notes when it comes to a node. -/
def events : Node → List TraceEvent
  | .program => []
  | .item decl => [.decl decl]
  | .varDecl decl => [.varDecl decl]
  | .param declared => [.param declared]
  | .signature declared => [.signature declared]
  | .function declared => [.function declared]
  | .record declared => [.record declared]
  | .block visited => [.block visited]
  | .stmt visited => .stmt visited :: match visited with
    | .block _ => []
    | .returns .. => [.returns]
    | .branch branches _ _ => [.branch branches.length]
    | .forLoop .. => [.forLoop]
    | .whileLoop .. => [.whileLoop]
    | .expression _ => [.expression]
    | .declare .. => [.declare]
    | .breakLoop _ => [.breakLoop]
    | .continueLoop _ => [.continueLoop]
  | .expr visited => .expr visited :: match visited with
    | .literal .. => [.literal]
    | .array values _ => [.array values.length]
    | .reference name _ => [.reference name]
    | .binary operator _ _ _ => [.binary operator]
    | .unary operator _ _ => [.unary operator]
    | .call callee _ _ => [.call callee.text]
    | .method _ callee _ _ => [.method callee.text]
    | .property _ member _ => [.property member.text]

/-- The node that a path leads to from a node above it, and what the path goes into, the innermost
first. -/
def find? (program : Program) : Node → (path : List Nat) → Option (Node × List Boundary)
  | node, [] => some (node, [])
  | node, index :: path => do
    let part ← (node.parts program)[index]?
    let (found, outer) ← find? program part.node path
    return (found, outer ++ part.entered.toList)

end Node

namespace Program

/-- The node of a program at a path, and what it stands inside of, the innermost first. -/
def nodeAt? (program : Program) (path : List Nat) : Option (Node × List Boundary) :=
  Node.program.find? program path

/-- What a full trace notes at a path. -/
def entriesAt (program : Program) (path : List Nat) : List TraceEntry :=
  match program.nodeAt? path with
  | some (node, outer) => node.events.map fun event => ⟨event, Context.innermost outer⟩
  | none => []

end Program

end Offside
