import Offside.Grammar.TypeSpec
import Offside.Proofs.Comparing.Actions

/-! # Comparing repetitions

What is repeated goes on equally often on both sides. The budgets of the two sides differ with the
numbers of tokens left, but each of them is large enough.
-/

namespace Offside

open Parse ParseState

namespace Comparison

/-- What comes of a round on both sides: either it was the last one, or it goes on behind at least
one more token. -/
def Rounds {α : Type} (state state' : ParseState) (ends : ParseState → ParseState → Prop)
    (goes : α → α → ParseState → ParseState → Prop) :
    Option α → Option α → ParseState → ParseState → Prop
  | none, none, after, after' => ends after after'
  | some next, some next', after, after' =>
    after.rest.length < state.rest.length ∧ after'.rest.length < state'.rest.length ∧
      goes next next' after after'
  | _, _, _, _ => False

variable {c : Comparison} {started : Prop} {α γ : Type} {state state' : ParseState}

namespace Follows

theorem budget_bind {β : Type} {next next' : Nat → ParseM β}
    {ends : β → β → ParseState → ParseState → Prop}
    (h : c.Follows (next (state.rest.length + 1)) (next' (state'.rest.length + 1)) state state'
      ends) :
    c.Follows (budget >>= next) (budget >>= next') state state' ends := h

theorem iterateWithin {step step' : α → ParseM (Option α)}
    {keep done : α → α → ParseState → ParseState → Prop} (bound bound' : Nat)
    (hstep : ∀ value value' inner inner', inner.rest.length ≤ bound → inner'.rest.length ≤ bound' →
      keep value value' inner inner' → c.Follows (step value) (step' value') inner inner'
        (Rounds inner inner' (done value value') keep))
    (times times' : Nat) (value value' : α) (enough : state.rest.length < times)
    (enough' : state'.rest.length < times') (within : state.rest.length ≤ bound)
    (within' : state'.rest.length ≤ bound') (h : keep value value' state state') :
    c.Follows (Parse.iterateWithin step times value) (Parse.iterateWithin step' times' value') state
      state' done := by
  -- Each budget is above the tokens left on its side, so neither of them is used up.
  induction times generalizing state state' value value' times' with
  | zero => exact absurd enough (Nat.not_lt_zero _)
  | succ times ih =>
      cases times' with
      | zero => exact absurd enough' (Nat.not_lt_zero _)
      | succ times' =>
          apply (hstep value value' state state' within within' h).bind
          intro next? next?' after after' _ _ kept
          cases next? with
          | none =>
              cases next?' with
              | none => exact .pure kept
              | some next' => exact kept.elim
          | some next =>
              cases next?' with
              | none => exact kept.elim
              | some next' =>
                  obtain ⟨shorter, shorter', kept⟩ := kept
                  exact ih times' next next' (by omega) (by omega) (by omega) (by omega) kept

theorem iterate {step step' : α → ParseM (Option α)}
    (keep done : α → α → ParseState → ParseState → Prop)
    (hstep : ∀ value value' inner inner', inner.rest.length ≤ state.rest.length →
      inner'.rest.length ≤ state'.rest.length → keep value value' inner inner' →
      c.Follows (step value) (step' value') inner inner'
        (Rounds inner inner' (done value value') keep))
    {value value' : α} (h : keep value value' state state') :
    c.Follows (Parse.iterate step value) (Parse.iterate step' value') state state' done :=
  iterateWithin _ _ hstep _ _ value value' (Nat.lt_succ_self _) (Nat.lt_succ_self _)
    (Nat.le_refl _) (Nat.le_refl _) h

section Collecting

variable {item item' : ParseM (Option α)} (view view' : α → γ)
  (keep last : ParseState → ParseState → Prop)

theorem collectWithin (bound bound' : Nat)
    (hitem : ∀ inner inner', inner.rest.length ≤ bound → inner'.rest.length ≤ bound' →
      keep inner inner' → c.Follows item item' inner inner'
        (Rounds inner inner' last fun value value' after after' =>
          view value = view' value' ∧ keep after after'))
    (times times' : Nat) (enough : state.rest.length < times)
    (enough' : state'.rest.length < times') (within : state.rest.length ≤ bound)
    (within' : state'.rest.length ≤ bound') (h : keep state state') :
    c.Follows (Parse.collectWithin item times) (Parse.collectWithin item' times') state state'
      fun items items' after after' => items.map view = items'.map view' ∧ last after after' := by
  induction times generalizing state state' times' with
  | zero => exact absurd enough (Nat.not_lt_zero _)
  | succ times ih =>
      cases times' with
      | zero => exact absurd enough' (Nat.not_lt_zero _)
      | succ times' =>
          apply (hitem state state' within within' h).bind
          intro item? item?' mid mid' _ _ kept
          cases item? with
          | none =>
              cases item?' with
              | none => exact .pure ⟨rfl, kept⟩
              | some first' => exact kept.elim
          | some first =>
              cases item?' with
              | none => exact kept.elim
              | some first' =>
                  obtain ⟨shorter, shorter', same, kept⟩ := kept
                  apply (ih times' (by omega) (by omega) (by omega) (by omega) kept).bind
                  rintro more more' after after' _ _ ⟨others, kept⟩
                  exact .pure ⟨by rw [List.map_cons, List.map_cons, same, others], kept⟩

theorem collect
    (hitem : ∀ inner inner', inner.rest.length ≤ state.rest.length →
      inner'.rest.length ≤ state'.rest.length → keep inner inner' →
      c.Follows item item' inner inner' (Rounds inner inner' last fun value value' after after' =>
        view value = view' value' ∧ keep after after'))
    (h : keep state state') :
    c.Follows (Parse.collect item) (Parse.collect item') state state'
      fun items items' after after' => items.map view = items'.map view' ∧ last after after' :=
  collectWithin view view' keep last _ _ hitem _ _ (Nat.lt_succ_self _) (Nat.lt_succ_self _) (Nat.le_refl _)
    (Nat.le_refl _) h

end Collecting

end Follows

section Rows

variable (lawful : c.Lawful) (view view' : α → γ)

include lawful

/-- Rows of items are read side by side if the items are. -/
theorem commaSeparated_follows (h : c.Abreast True c.inLine state state') {close : TokenKind}
    (visible : close.startsLine = true) {item item' : ParseM α}
    (hitem : ∀ inner inner', inner.rest.length ≤ state.rest.length →
      inner'.rest.length ≤ state'.rest.length → c.Abreast True c.inLine inner inner' →
      c.Follows item item' inner inner' fun value value' after after' =>
        view value = view' value' ∧ c.Abreast True c.inLine after after') :
    c.Follows (commaSeparated close item) (commaSeparated close item') state state'
      fun items items' after after' =>
        items.map view = items'.map view' ∧ c.Abreast True c.inLine after after' := by
  apply Follows.kind_bind
  apply Follows.ite (h.kind_iff lawful visible)
  · intro _
    exact .pure ⟨rfl, h⟩
  intro _
  apply (hitem state state' (Nat.le_refl _) (Nat.le_refl _) h).bind
  rintro first first' mid mid' stays stays' ⟨same, behind⟩
  refine (Follows.collect view view' (c.Abreast True c.inLine) (c.Abreast True c.inLine) ?_
    behind).bind ?_
  · intro inner inner' within within' here
    apply Follows.kind_bind
    apply Follows.ite (here.kind_iff lawful rfl)
    · intro comma
      apply (take_follows lawful here (comma ▸ rfl)).discard.bind
      rintro _ _ next next' passed passed' ⟨_, _, taken⟩
      have shorter := taken.shorter
      have shorter' := taken.shorter'
      have bounds := stays.rest
      have bounds' := stays'.rest
      apply (hitem next next' (by omega) (by omega) taken.abreast).bind
      rintro item item' after after' stays stays' held
      exact .pure ⟨Nat.lt_of_le_of_lt stays.rest shorter, Nat.lt_of_le_of_lt stays'.rest shorter',
        held⟩
    · intro _
      exact .pure here
  · rintro others others' after after' _ _ ⟨more, last⟩
    exact .pure ⟨by rw [List.map_cons, List.map_cons, same, more], last⟩

/-- The lines of a block are read side by side if each line is and passes a token. -/
theorem lines_follows (h : c.Abreast started c.atLine state state')
    (inside : c.beyond → 0 < state.indent) {line line' : ParseM α}
    (hline : ∀ inner inner', inner.rest.length ≤ state.rest.length →
      inner'.rest.length ≤ state'.rest.length → c.Abreast started c.inLine inner inner' →
      c.Follows line line' inner inner' fun value value' after after' =>
        view value = view' value' ∧ c.Abreast started c.atLine after after' ∧
          after.rest.length < inner.rest.length ∧ after'.rest.length < inner'.rest.length) :
    c.Follows (lines line) (lines line') state state' fun items items' after after' =>
      items.map view = items'.map view' ∧ c.Abreast started c.atLine after after' := by
  refine Follows.collect view view' (fun inner inner' => c.Abreast started c.atLine inner inner' ∧
    inner.indent = state.indent) (c.Abreast started c.atLine) ?_ ⟨h, rfl⟩
  rintro inner inner' within within' ⟨here, indent⟩
  apply (moreLines_follows lawful here fun more _ => indent ▸ inside more).bind
  rintro more more' mid mid' stays stays' ⟨rfl, behind⟩
  cases more with
  | true =>
      have bounds := stays.rest
      have bounds' := stays'.rest
      apply (hline mid mid' (by omega) (by omega) behind).bind
      rintro value value' after after' passed passed' ⟨same, next, shorter, shorter'⟩
      exact .pure ⟨by omega, by omega, same, next, passed.indent.trans (stays.indent.trans indent)⟩
  | false => exact .pure (behind.imp And.right)

end Rows

section Types

variable (lawful : c.Lawful) (h : c.Abreast True c.inLine state state')

include lawful h

theorem countOf_follows {repeated : TokenKind} (visible : repeated.startsLine = true) :
    c.Follows (countOf repeated) (countOf repeated) state state' fun count count' after after' =>
      count = count' ∧ c.Abreast True c.inLine after after' := by
  refine (Follows.collect Token.kind Token.kind (c.Abreast True c.inLine) (c.Abreast True c.inLine)
    ?_ h).bind ?_
  · intro inner inner' _ _ here
    apply Follows.kind_bind
    apply Follows.ite (here.kind_iff lawful visible)
    · intro found
      apply (take_follows lawful here (found ▸ visible)).bind
      intro token token' after after' _ _ taken
      exact .pure ⟨taken.shorter, taken.shorter', taken.kind_eq, taken.abreast⟩
    · intro _
      exact .pure here
  · rintro tokens tokens' after after' _ _ ⟨same, last⟩
    have counts := congrArg List.length same
    rw [List.length_map, List.length_map] at counts
    exact .pure ⟨counts, last⟩

theorem typeName_follows :
    c.Follows typeName typeName state state' fun type type' after after' =>
      type = type' ∧ c.Abreast True c.inLine after after' := by
  have named : ∀ kind : TokenKind, kind.startsLine = true → state.kind = kind →
      c.Follows (do return DataType.ofName (← take).value)
        (do return DataType.ofName (← take).value) state state' fun type type' after after' =>
          type = type' ∧ c.Abreast True c.inLine after after' := by
    intro kind visible found
    apply (take_follows lawful h (found ▸ visible)).bind
    intro token token' after after' _ _ taken
    exact .pure ⟨by rw [taken.value], taken.abreast⟩
  have identifier : state.kind = .identifier ↔ _ := h.kind_iff lawful rfl
  have null : state.kind = .nullWord ↔ _ := h.kind_iff lawful rfl
  apply Follows.kind_bind
  split
  · next found =>
    rw [identifier.1 found]
    exact named _ rfl found
  · next found =>
    rw [null.1 found]
    exact named _ rfl found
  · next other other' =>
    split
    · next found => exact absurd (identifier.2 found) other
    · next found => exact absurd (null.2 found) other'
    · exact .failHere fun _ _ => rfl

theorem typeSpec_follows :
    c.Follows typeSpec typeSpec state state' fun type type' after after' =>
      type = type' ∧ c.Abreast True c.inLine after after' := by
  apply Follows.get_bind
  apply (countOf_follows lawful h rfl).bind
  rintro opened _ mid mid' _ _ ⟨rfl, here⟩
  apply (typeName_follows lawful here).bind
  rintro element _ behind behind' _ _ ⟨rfl, here⟩
  apply (countOf_follows lawful here rfl).bind
  rintro closed _ after after' _ _ ⟨rfl, here⟩
  apply Follows.ite Iff.rfl
  · intro _
    exact .pure ⟨rfl, here⟩
  · intro _
    exact .get_bind (.fail rfl)

end Types

end Comparison

end Offside
