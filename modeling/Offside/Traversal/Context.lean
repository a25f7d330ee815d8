import Offside.Syntax.Program

/-!
# What a traversal is inside of

A traversal goes through a program from node to node and keeps, beside the state of its handlers,
the innermost function, record type, block and loop around the current node. Each of these is set
for the duration of an action and restored afterwards, also if the action fails.
-/

namespace Offside

/-- What surrounds a node. -/
structure Context where
  /-- The function or method that is visited. -/
  function : Option Function := none
  /-- The record type that is visited. -/
  record : Option RecordDecl := none
  /-- The innermost block that is visited. -/
  block : Option Block := none
  /-- The innermost loop whose body is visited. -/
  loop : Option Stmt := none
  deriving Inhabited

/-- The state of a traversal whose handlers have a state of type `σ`. -/
structure TraversalState (σ : Type) where
  /-- What surrounds the current node. -/
  context : Context := {}
  /-- The state of the handlers. -/
  inner : σ

/-- An action of a traversal. An error leaves the state as it was when it arose. -/
abbrev Visit (σ : Type) := ExceptT Error (StateM (TraversalState σ))

namespace Visit

variable {σ α : Type}

/-- What surrounds the current node. -/
def context : Visit σ Context :=
  return (← get).context

/-- The state of the handlers. -/
def inner : Visit σ σ :=
  return (← get).inner

/-- Changes the state of the handlers. -/
def modifyInner (change : σ → σ) : Visit σ Unit :=
  modify fun state => { state with inner := change state.inner }

/-- Fails with a cause, at a place. -/
def fail (cause : ErrorCause) (position : Position) : Visit σ α :=
  throw ⟨cause, position⟩

/-- An outcome that does not depend on the state. -/
def ofExcept : Except Error α → Visit σ α
  | .ok value => return value
  | .error error => throw error

/-- Runs an action between two changes of the state, of which the second is made in any case and is
told the state before the first. -/
def between (before : TraversalState σ → TraversalState σ)
    (after : (saved : TraversalState σ) → TraversalState σ → TraversalState σ)
    (action : Visit σ α) : Visit σ α := ExceptT.mk do
  let saved ← get
  set (before saved)
  let result ← action.run
  modify (after saved)
  return result

/-- Both changes are made whatever the outcome is, which is that of the action. -/
@[simp] theorem run_between (before : TraversalState σ → TraversalState σ)
    (after : TraversalState σ → TraversalState σ → TraversalState σ) (action : Visit σ α)
    (state : TraversalState σ) :
    (between before after action).run.run state =
      ((action.run.run (before state)).1, after state (action.run.run (before state)).2) := rfl

/-- Runs an action inside a function. -/
def inFunction (function : Option Function) : Visit σ α → Visit σ α :=
  between (fun state => { state with context := { state.context with function } })
    fun saved state =>
      { state with context := { state.context with function := saved.context.function } }

/-- Runs an action inside a record type. -/
def inRecord (record : Option RecordDecl) : Visit σ α → Visit σ α :=
  between (fun state => { state with context := { state.context with record } })
    fun saved state =>
      { state with context := { state.context with record := saved.context.record } }

/-- Runs an action inside a block. -/
def inBlock (block : Option Block) : Visit σ α → Visit σ α :=
  between (fun state => { state with context := { state.context with block } })
    fun saved state =>
      { state with context := { state.context with block := saved.context.block } }

/-- Runs an action inside the body of a loop. -/
def inLoop (loop : Option Stmt) : Visit σ α → Visit σ α :=
  between (fun state => { state with context := { state.context with loop } })
    fun saved state =>
      { state with context := { state.context with loop := saved.context.loop } }

end Visit

end Offside
