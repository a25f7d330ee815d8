import Offside.Grammar.Action
import Offside.Traversal.Context

/-! # Outcomes of actions

Reading and checking are actions that have a state and may fail. What an action ensures is said of
its two outcomes at once: of the value it returns and of the error it fails with, each together with
the state that is left. What a sequence of actions ensures follows from what its parts ensure.
-/

namespace Offside

/-- An action that has a state and may fail. -/
abbrev Action (σ α : Type) := ExceptT Error (StateM σ) α

namespace Action

variable {σ α β : Type}

/-- From a state, an action either returns a value or fails, and leaves a state, as described. -/
def Ensures (action : Action σ α) (state : σ) (returns : α → σ → Prop)
    (fails : Error → σ → Prop) : Prop :=
  match action.run.run state with
  | (.ok value, after) => returns value after
  | (.error error, after) => fails error after

variable {state : σ} {returns : α → σ → Prop} {fails : Error → σ → Prop}

theorem run_bind (action : Action σ α) (next : α → Action σ β) (state : σ) :
    (action >>= next).run.run state = match action.run.run state with
      | (.ok value, after) => (next value).run.run after
      | (.error error, after) => (.error error, after) := by
  simp only [bind, ExceptT.bind, ExceptT.mk, ExceptT.run, StateT.run, StateT.bind,
    ExceptT.bindCont]
  cases action state with
  | mk result after => cases result <;> rfl

theorem run_get (state : σ) : (get : Action σ σ).run.run state = (.ok state, state) := rfl

theorem run_set (next state : σ) :
    (set next : Action σ PUnit).run.run state = (.ok ⟨⟩, next) := rfl

theorem run_modify (change : σ → σ) (state : σ) :
    (modify change : Action σ PUnit).run.run state = (.ok ⟨⟩, change state) := rfl

theorem run_pure (value : α) (state : σ) :
    (pure value : Action σ α).run.run state = (.ok value, state) := rfl

theorem run_throw (error : Error) (state : σ) :
    (throw error : Action σ α).run.run state = (.error error, state) := rfl

theorem Ensures.mono {action : Action σ α} {returns' : α → σ → Prop} {fails' : Error → σ → Prop}
    (h : action.Ensures state returns fails)
    (hreturns : ∀ value after, returns value after → returns' value after)
    (hfails : ∀ error after, fails error after → fails' error after) :
    action.Ensures state returns' fails' := by
  unfold Ensures at h ⊢
  split at h
  · exact hreturns _ _ h
  · exact hfails _ _ h

theorem Ensures.bind {action : Action σ α} {next : α → Action σ β} {ends : β → σ → Prop}
    (h : action.Ensures state returns fails)
    (hnext : ∀ value after, returns value after → (next value).Ensures after ends fails) :
    (action >>= next).Ensures state ends fails := by
  unfold Ensures at h
  unfold Ensures
  rw [run_bind]
  generalize action.run.run state = outcome at h ⊢
  match outcome, h with
  | (.ok value, after), h => exact hnext value after h
  | (.error error, after), h => exact h

end Action

theorem exists_ok_of_isOk {ε α : Type} {result : Except ε α} (h : result.isOk = true) :
    ∃ value, result = .ok value := by
  cases result with
  | error error => cases h
  | ok value => exact ⟨value, rfl⟩

theorem exists_ok_of_map_toOption {ε α β : Type} {result : Except ε α} {view : α → β} {seen : β}
    (h : result.toOption.map view = some seen) : ∃ value, result = .ok value ∧ view value = seen := by
  cases result with
  | error error => cases h
  | ok value => exact ⟨value, rfl, Option.some.inj h⟩

end Offside
