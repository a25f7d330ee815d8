import Offside.Typing.Rules

/-! # Watched checks

The rules keep environments and the type of the elements of the array that comes next. Here they are
watched: an alarm is raised where a block, a loop, a function or a record type does not leave the
environments as it found them, or where a declaration is visited or left while such a type is
pending. Besides, the check may break off wherever it notes something, as it does when a finding
cannot be entered.
-/

namespace Offside

namespace Rules

variable {α : Type}

/-- Runs an action, and fails behind it if the state that it leaves gives a reason to. -/
def interrupted (stop : TypingState → Option Error) (action : Check α) : Check α := do
  let value ← action
  match stop (← Visit.inner) with
  | none => return value
  | some error => throw error

/-- Runs an action and compares what the rules remember at its start and at its end, also if it
fails. If that is not right, the alarm is raised, if there is one. -/
def alarmed (alarm : Option Error) (right : TypingState → TypingState → Bool)
    (action : Check α) : Check α := ExceptT.mk do
  let saved ← get
  let result ← action.run
  let final ← get
  match alarm with
  | none => return result
  | some error => return if right saved.inner final.inner then result else .error error

/-- The environments are in the end what they were at the start. -/
def givesBack (before after : TypingState) : Bool :=
  after.environments = before.environments

/-- Neither at the start nor in the end the type of the elements of an array is pending. -/
def nonePending (before after : TypingState) : Bool :=
  before.pendingElement.isNone && after.pendingElement.isNone

/-- Declares a variable of a certain scope in the innermost block, unless it is a property or not to
be seen. -/
def declareIn (seen : Bool) (decl : VarDecl) (scope : Scope) : Check Unit :=
  match seen, scope with
  | true, .global | true, .local _ => declareLocal decl.name decl.id
  | _, _ => pure ()

/-- Declares a variable in the innermost block, unless it is a property. -/
def declareSeen (decl : VarDecl) : Check Unit := do
  match scopeOf (← Visit.context) with
  | .global | .local _ => declareLocal decl.name decl.id
  | .property _ => pure ()

/-- A check of expressions that may break off behind any of them. -/
def watchedExprs (program : Program) (lookup : LocalLookup) (stop : TypingState → Option Error) :
    ExprHandlers TypingState Typed :=
  { exprs program lookup with expr := fun _ _ visit => interrupted stop visit }

/-- Checks a parameter. The check may break off behind the declaration. -/
def watchedParam (program : Program) (lookup : LocalLookup) (stop : TypingState → Option Error)
    (param : Param) : Check Unit := do
  let decl ← Visit.ofExcept (program.decl param.decl)
  interrupted stop
    (varDecl program false decl (traverseInit (watchedExprs program lookup stop) decl))
  match scopeOf (← Visit.context) with
  | .local _ => pure ()
  | _ =>
    Visit.fail
      (.internalError ("parameter \x60" ++ decl.name ++ "\x60 is not local to its function"))
      param.span.start

/-- The handlers that check a program, watched. The check may break off where it notes something,
which is behind every expression and every declaration. -/
def watched (program : Program) (lookup : LocalLookup) (stop : TypingState → Option Error)
    (alarm : Option Error) : Handlers TypingState Typed :=
  { rules program lookup with
    toExprHandlers := watchedExprs program lookup stop
    varDecl := fun decl init => alarmed alarm nonePending do
      interrupted stop (Rules.varDecl program false decl init)
      declareSeen decl
    param := fun param _ => alarmed alarm nonePending (watchedParam program lookup stop param)
    function := fun function parts =>
      alarmed alarm givesBack (Rules.function program function parts)
    record := fun record members =>
      alarmed alarm givesBack ((rules program lookup).record record members)
    block := fun _ body => alarmed alarm givesBack (inNewEnvironment body)
    forLoop := fun parts => alarmed alarm givesBack (inNewEnvironment parts) }

theorem interrupted_never (action : Check α) : interrupted (fun _ => none) action = action :=
  bind_pure action

theorem alarmed_none (right : TypingState → TypingState → Bool) (action : Check α) :
    alarmed none right action = action := rfl

/-- The alarm is not raised where what is remembered is right. -/
theorem run_alarmed {alarm : Error} {right : TypingState → TypingState → Bool}
    {loud quiet : Check α} {state : TraversalState TypingState}
    (same : loud.run.run state = quiet.run.run state)
    (calm : right state.inner (quiet.run.run state).2.inner = true) :
    (alarmed (some alarm) right loud).run.run state =
      (alarmed none right quiet).run.run state := by
  have run : (alarmed (some alarm) right loud).run.run state =
      (if right state.inner (loud.run.run state).2.inner then (loud.run.run state).1
        else .error alarm, (loud.run.run state).2) := rfl
  rw [run, same, calm]
  rfl

/-- Declaring comes last in the check of a declaration. -/
theorem varDecl_seen (program : Program) (decl : VarDecl) (init : Check (Option Typed)) :
    (do varDecl program false decl init; declareSeen decl) = varDecl program true decl init := by
  have last : (Visit.context >>= fun context =>
      note (.scope decl.id (scopeOf context) decl.name decl.span.start) >>= fun _ =>
        declareSeen decl) = Visit.context >>= fun context =>
      note (.scope decl.id (scopeOf context) decl.name decl.span.start) >>= fun _ =>
        declareIn true decl (scopeOf context) := by
    funext state
    obtain ⟨⟨function, record, block, loop⟩, inner⟩ := state
    cases function <;> cases record <;> rfl
  simp only [varDecl, bind_assoc]
  congr 1
  funext _
  congr 1
  funext typed?
  split
  · simp only [bind_assoc]
    exact bind_congr fun _ => last
  · simp only [bind_assoc, pure_bind]
    exact last

/-- A check that is watched without an alarm and does not break off is just a check. -/
theorem watched_never (program : Program) (lookup : LocalLookup) :
    watched program lookup (fun _ => none) none = rules program lookup := by
  have exprs : watchedExprs program lookup (fun _ => none) = exprs program lookup := by
    simp only [watchedExprs, interrupted_never]
    rfl
  simp only [watched, watchedParam, exprs, interrupted_never, alarmed_none, varDecl_seen]
  rfl

end Rules

end Offside
