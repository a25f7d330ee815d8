import Offside.Proofs.Reading.Agreement
import Offside.Proofs.Reading.Expressions

/-! # Levels of nesting

A reader of operands is given a number of levels, and gives up if operands nest deeper. None does
that is given more levels than there are tokens left. So an operand is read as if nesting had no
bound: by reading operands and expressions inside it.
-/

namespace Offside

open Parse ParseState

section Safety

variable {good : TokenKind → String → Prop} {R Q Q' : ParseState → ParseState → Prop} {α : Type}
  {action action' : ParseM α} {state state' : ParseState} {returns returns' : α → ParseState → Prop}

/-- A safe action does not give up. -/
theorem Runs.not_givesUp (safe : Safe good Q action state returns) (ready : state.Ready good) :
    ¬ GivesUp action state := by
  rintro ⟨error, after, run, internal⟩
  have outcome := safe ready
  unfold Action.Ensures at outcome
  rw [run] at outcome
  exact outcome.2 internal

/-- Safe actions that agree do the same. -/
theorem Agree.of_safe (h : Agree R action action') (related : R state state')
    (ready : state.Ready good) (safe : Safe good Q action state returns)
    (ready' : state'.Ready good) (safe' : Safe good Q' action' state' returns') :
    (action.run.run state).1 = (action'.run.run state').1 ∧
      R (action.run.run state).2 (action'.run.run state').2 := by
  rcases h state state' related with same | left | right
  · exact same
  · exact absurd left (safe.not_givesUp ready)
  · exact absurd right (safe'.not_givesUp ready')

theorem Agree.run_eq (h : Agree Eq action action') (ready : state.Ready good)
    (safe : Safe good Q action state returns) (safe' : Safe good Q' action' state returns') :
    action.run.run state = action'.run.run state :=
  have same := h.of_safe rfl ready safe ready safe'
  Prod.ext same.1 same.2

end Safety

/-- The budget is one more than the tokens left. -/
theorem run_budget_bind {α : Type} (next : Nat → ParseM α) (state : ParseState) :
    (budget >>= next).run.run state = (next (state.rest.length + 1)).run.run state :=
  rfl

/-- An operand is given more levels than there are tokens left. -/
theorem operand_run (state : ParseState) :
    operand.run.run state = (operandWithin (state.rest.length + 1)).run.run state :=
  run_budget_bind operandWithin state

theorem operandWithin_agree_operand (levels : Nat) :
    Agree Eq (operandWithin levels) operand := by
  rintro state _ rfl
  unfold GivesUp
  rw [operand_run]
  exact operandWithin_agree levels _ state state rfl

/-- An operand is read by reading operands and expressions inside it. -/
theorem operand_run_eq {good : TokenKind → String → Prop} {state : ParseState}
    (ready : state.Ready good) :
    operand.run.run state = (operandWith expr operand).run.run state := by
  have operands : SafeBelow good state.rest.length operand := fun _ _ => operand_safe
  have exprs : SafeBelow good state.rest.length expr := fun _ _ => expr_safe
  have agree : Agree Eq operand (operandWith expr operand) := by
    rintro state _ rfl
    have inner := operandWithin_agree_operand state.rest.length
    have same := operandWith_agree (exprWith_agree inner Precedence.default.level) inner
      state state rfl
    unfold GivesUp at same ⊢
    rw [operand_run]
    exact same
  exact agree.run_eq ready operand_safe (operandWith_safe exprs operands)

end Offside
