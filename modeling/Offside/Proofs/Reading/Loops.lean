import Offside.Grammar.Repetition
import Offside.Proofs.Reading.Safety

/-! # Safe repetition

A repetition ends, since each round passes a token, and keeps what each of its rounds keeps.
-/

namespace Offside

open Parse ParseState

variable {good : TokenKind → String → Prop} {R : ParseState → ParseState → Prop} [Frame R]
  {fails : Error → Prop} {α : Type} {state : ParseState}

/-- What comes of a round: either it was the last one, or it goes on behind at least one more token. -/
def Round (state : ParseState) (ends : ParseState → Prop) (goes : α → ParseState → Prop) :
    Option α → ParseState → Prop
  | none, after => ends after
  | some next, after => after.rest.length < state.rest.length ∧ goes next after

omit [Frame R] in
theorem Runs.budget_bind {β : Type} {next : Nat → ParseM β} {ends : β → ParseState → Prop}
    (h : Runs good R fails (next (state.rest.length + 1)) state ends) :
    Runs good R fails (budget >>= next) state ends := h

/-- A step can be repeated if it goes on only after it has passed a token. -/
theorem Runs.iterateWithin {step : α → ParseM (Option α)} {keep done : α → ParseState → Prop}
    (bound : Nat) (hstep : ∀ value inner, inner.rest.length ≤ bound → keep value inner →
      Runs good R fails (step value) inner (Round inner (done value) keep))
    (times : Nat) (value : α) (enough : state.rest.length < times)
    (within : state.rest.length ≤ bound) (h : keep value state) :
    Runs good R fails (Parse.iterateWithin step times value) state done := by
  induction times generalizing state value with
  | zero => exact absurd enough (Nat.not_lt_zero _)
  | succ times ih =>
      refine (hstep value state within h).bind fun next? after _ kept => ?_
      cases next? with
      | none => exact .pure kept
      | some next =>
          obtain ⟨shorter, kept⟩ := kept
          exact ih next (by omega) (by omega) kept

theorem Runs.iterate {step : α → ParseM (Option α)} {done : α → ParseState → Prop}
    (keep : α → ParseState → Prop)
    (hstep : ∀ value inner, inner.rest.length ≤ state.rest.length → keep value inner →
      Runs good R fails (step value) inner (Round inner (done value) keep))
    (value : α) (h : keep value state) : Runs good R fails (Parse.iterate step value) state done :=
  .iterateWithin _ hstep (state.rest.length + 1) value (Nat.lt_succ_self _) (Nat.le_refl _) h

/-- Items can be collected if each of them passes a token. -/
theorem Runs.collectWithin {item : ParseM (Option α)} {keep done : List α → ParseState → Prop}
    (bound : Nat) (hitem : ∀ items inner, inner.rest.length ≤ bound → keep items inner →
      Runs good R fails item inner
        (Round inner (done items) fun item => keep (items ++ [item])))
    (times : Nat) (items : List α) (enough : state.rest.length < times)
    (within : state.rest.length ≤ bound) (h : keep items state) :
    Runs good R fails (Parse.collectWithin item times) state
      fun more after => done (items ++ more) after := by
  induction times generalizing state items with
  | zero => exact absurd enough (Nat.not_lt_zero _)
  | succ times ih =>
      refine (hitem items state within h).bind fun item? after _ kept => ?_
      cases item? with
      | none =>
          refine .pure ?_
          rw [List.append_nil]
          exact kept
      | some first =>
          obtain ⟨shorter, kept⟩ := kept
          refine (ih (items ++ [first]) (by omega) (by omega) kept).bind
            fun more after _ kept => .pure ?_
          simpa using kept

theorem Runs.collect {item : ParseM (Option α)} {done : List α → ParseState → Prop}
    (keep : List α → ParseState → Prop)
    (hitem : ∀ items inner, inner.rest.length ≤ state.rest.length → keep items inner →
      Runs good R fails item inner
        (Round inner (done items) fun item => keep (items ++ [item])))
    (h : keep [] state) : Runs good R fails (Parse.collect item) state done :=
  .collectWithin _ hitem (state.rest.length + 1) [] (Nat.lt_succ_self _) (Nat.le_refl _) h

/-- Items are collected safely if each of them keeps what there is. -/
theorem collect_safe {item : ParseM (Option α)} (keep : List α → ParseState → Prop)
    (hitem : ∀ items inner, inner.rest.length ≤ state.rest.length → keep items inner →
      Safe good R item inner (Round inner (keep items) fun item => keep (items ++ [item])))
    (h : keep [] state) : Safe good R (collect item) state keep :=
  .collect keep hitem h

section Lists

variable (keep : List α → ParseState → Prop)
  (forward : ∀ items {state after : ParseState}, state.Passes after → keep items state →
    keep items after)

include forward

/-- Items with commas between them are read safely if each item is. -/
theorem commaSeparated_safe {close : TokenKind} {item : ParseM α}
    (hitem : ∀ items inner, inner.rest.length ≤ state.rest.length → keep items inner →
      Safe good R item inner fun item after => keep (items ++ [item]) after)
    (h : keep [] state) : Safe good R (commaSeparated close item) state keep := by
  refine .kind_bind ?_
  split
  · exact .pure h
  refine (hitem [] state (Nat.le_refl _) h).bind fun first mid reads kept => ?_
  have within := (Frame.leads reads).rest.length_le
  refine (collect_safe (fun others inner => keep (first :: others) inner)
    (fun others inner bounded kept => ?_) kept).bind fun others after _ kept => .pure kept
  refine .kind_bind ?_
  split
  · next comma =>
    refine take_safe.lift.discard.bind fun _ behind _ ⟨_, passes, _, taken⟩ => ?_
    have shorter := (taken (by simp [comma])).2
    refine (hitem (first :: others) behind (by omega) (forward _ passes kept)).bind
      fun item after reads kept => .pure ⟨?_, kept⟩
    exact Nat.lt_of_le_of_lt (Frame.leads reads).rest.length_le shorter
  · exact .pure kept

/-- The lines of a block are read safely if each line is, and passes a token. -/
theorem lines_safe {line : ParseM α}
    (hline : ∀ items inner, inner.rest.length ≤ state.rest.length → keep items inner →
      Safe good R line inner fun item after =>
        after.rest.length < inner.rest.length ∧ keep (items ++ [item]) after)
    (h : keep [] state) : Safe good R (lines line) state keep := by
  refine collect_safe keep (fun items inner bounded kept => ?_) h
  refine moreLines_safe.lift.bind fun more behind _ ⟨passes, _⟩ => ?_
  have within := passes.rest.length_le
  have kept := forward _ passes kept
  split
  · refine (hline items behind (by omega) kept).bind fun item after _ ⟨shorter, kept⟩ => .pure ?_
    exact ⟨by omega, kept⟩
  · exact .pure kept

end Lists

end Offside
