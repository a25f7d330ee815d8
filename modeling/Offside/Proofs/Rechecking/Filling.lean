import Offside.Proofs.Outcome
import Offside.Proofs.Rechecking.Cells
import Offside.Proofs.Rechecking.Entering

/-! # Visits that fill in cells as they go

A visit that only notes findings is compared with one that fills in a cell for each. As long as the
findings can be entered, the two go through the same states, and what the first learns from the
visit of a part stands in the cells of the part, where the second reads it. Where a finding cannot
be entered the second stops, with the error and the cells that entering would end with.
-/

namespace Offside

/-- From one state to another, findings have been added, and what surrounds is the same. -/
structure TraversalState.GrownTo (state final : TraversalState TypingState) : Prop where
  context : final.context = state.context
  findings : state.inner.findings.toList <+: final.inner.findings.toList

theorem TraversalState.GrownTo.trans {state mid final : TraversalState TypingState}
    (h : state.GrownTo mid) (h' : mid.GrownTo final) : state.GrownTo final :=
  ⟨h'.context.trans h.context, h.findings.trans h'.findings⟩

namespace Cells

open Rules

variable {α β γ δ : Type}

section Ends

variable (annotations : Annotations)

/-- What comes of entering what has been found out up to a state. -/
def entered (state : TypingState) : Annotations × Except Error Unit :=
  annotations.enterAll state.findings.toList

/-- How a visit that notes findings ends, and how one that fills in cells does. -/
inductive Ends (related : α → β → Annotations → Prop) :
    Except Error α × TraversalState TypingState → Except Error β × TraversalState TypingState →
    Prop where
  /-- All findings can be entered, and the cells are related to what is returned. -/
  | returns {value other final} :
    (entered annotations final.inner).2 = .ok () →
    related value other (held annotations final.inner) →
    Ends related (.ok value, final) (.ok other, final)
  /-- All findings can be entered, and both have failed. -/
  | fails {error final} :
    (entered annotations final.inner).2 = .ok () →
    Ends related (.error error, final) (.error error, final)
  /-- Some finding cannot be entered. -/
  | stops {outcome final stopped error} :
    entered annotations final.inner = (held annotations stopped.inner, .error error) →
    Ends related (outcome, final) (.error error, stopped)

/-- Started in the same state, where certain things are given, a visit notes the findings that the
other one fills in. It adds findings in any case. -/
def Fills (given : Prop) (state : TraversalState TypingState) (visit : Check α)
    (filling : Check β) (related : α → β → Annotations → Prop) : Prop :=
  state.GrownTo (visit.run.run state).2 ∧
    (given → (entered annotations state.inner).2 = .ok () →
      Ends annotations related (visit.run.run state) (filling.run.run state))

end Ends

/-- An action finds nothing out. -/
def Silent (action : Check α) : Prop :=
  ∀ state, (action.run.run state).2.context = state.context ∧
    (action.run.run state).2.inner.findings = state.inner.findings

theorem silent_pure {α : Type} (value : α) : Silent (pure value) :=
  fun _ => ⟨rfl, rfl⟩

theorem silent_context : Silent Visit.context :=
  fun _ => ⟨rfl, rfl⟩

theorem silent_inner : Silent Visit.inner :=
  fun _ => ⟨rfl, rfl⟩

theorem silent_setPending (element : Option DataType) : Silent (setPending element) :=
  fun _ => ⟨rfl, rfl⟩

theorem silent_takePending : Silent takePending :=
  fun _ => ⟨rfl, rfl⟩

theorem silent_fail (cause : ErrorCause) (position : Position) :
    Silent (Visit.fail cause position : Check α) :=
  fun _ => ⟨rfl, rfl⟩

theorem silent_ite (condition : Prop) [Decidable condition] {action action' : Check α}
    (h : Silent action) (h' : Silent action') :
    Silent (if condition then action else action') := by
  split
  · exact h
  · exact h'

theorem silent_bind {α β : Type} {action : Check α} {next : α → Check β}
    (h : Silent action) (h' : ∀ value, Silent (next value)) : Silent (action >>= next) := by
  intro state
  obtain ⟨context, findings⟩ := h state
  rw [Action.run_bind]
  generalize action.run.run state = outcome at context findings ⊢
  match outcome, context, findings with
  | (.ok value, mid), context, findings =>
      obtain ⟨context', findings'⟩ := h' value mid
      exact ⟨context'.trans context, findings'.trans findings⟩
  | (.error _, _), context, findings => exact ⟨context, findings⟩

theorem silent_forM {α : Type} {action : α → Check PUnit} (items : List α)
    (h : ∀ item, Silent (action item)) : Silent (items.forM action) := by
  induction items with
  | nil => exact silent_pure _
  | cons item rest ih => exact silent_bind (h item) fun _ => ih

theorem silent_requireKnown (program : Program) (type : DataType) (span : Span) :
    Silent (requireKnown program type span) :=
  silent_ite _ (silent_pure _) (silent_fail _ _)

theorem silent_requireAgreement (expr : Expr) (type expected : DataType) :
    Silent (requireAgreement expr type expected) :=
  silent_ite _ (silent_pure _) (silent_fail _ _)

theorem silent_binaryType (operator : Operator) (left right : Expr)
    (leftType rightType : DataType) :
    Silent (binaryType operator left right leftType rightType) := by
  unfold binaryType
  cases operator.operatorClass with
  | arithmetic | assignment | comparison =>
      exact silent_bind (silent_requireAgreement _ _ _) fun _ => silent_pure _
  | logical =>
      exact silent_bind (silent_requireAgreement _ _ _) fun _ =>
        silent_bind (silent_requireAgreement _ _ _) fun _ => silent_pure _

theorem silent_unaryType (operator : Operator) (operand : Expr) (type : DataType) :
    Silent (unaryType operator operand type) := by
  unfold unaryType
  split
  · exact silent_bind (silent_requireAgreement _ _ _) fun _ => silent_pure _
  · exact silent_pure _

variable {annotations : Annotations} {given given' : Prop}
  {state final : TraversalState TypingState} {visit : Check α} {filling : Check β}
  {next : α → Check γ} {next' : β → Check δ} {related related₁ : α → β → Annotations → Prop}
  {related' : γ → δ → Annotations → Prop}

/-- What cannot be entered up to a state stops what is found out later, too. -/
theorem entered_eq_error (grown : state.GrownTo final) {error : Error} {before : Annotations}
    (stops : entered annotations state.inner = (before, .error error)) :
    entered annotations final.inner = (before, .error error) := by
  obtain ⟨more, split⟩ := grown.findings
  unfold entered at stops ⊢
  rw [← split, Annotations.enterAll_append, stops]

/-- What cells hold they hold later on, too. -/
theorem held_keptBy (grown : state.GrownTo final) :
    (held annotations state.inner).KeptBy (held annotations final.inner) := by
  obtain ⟨more, split⟩ := grown.findings
  unfold held
  rw [← split, Annotations.enterAll_append]
  split
  · next entered =>
    rw [entered]
    exact Annotations.keptBy_enterAll _ _
  · next entered =>
    rw [entered]
    exact .refl _

theorem Silent.grownTo {action : Check α} (silent : Silent action)
    (state : TraversalState TypingState) : state.GrownTo (action.run.run state).2 :=
  ⟨(silent state).1, (silent state).2 ▸ List.prefix_rfl⟩

namespace Fills

theorem mono (h : Fills annotations given state visit filling related) (holds : given' → given)
    (weaker : given' → ∀ value other held, related value other held →
      related₁ value other held) :
    Fills annotations given' state visit filling related₁ := by
  refine ⟨h.1, fun holds' fresh => ?_⟩
  have ends := h.2 (holds holds') fresh
  generalize visit.run.run state = outcome at ends ⊢
  generalize filling.run.run state = outcome' at ends ⊢
  cases ends with
  | returns all relates => exact .returns all (weaker holds' _ _ _ relates)
  | fails all => exact .fails all
  | stops all => exact .stops all

theorem whatever (h : Fills annotations True state visit filling related) :
    Fills annotations given state visit filling related :=
  h.mono (fun _ => trivial) fun _ _ _ _ => id

/-- What is given where nothing can be given. -/
theorem vacuous {other : Check δ} {related' : α → δ → Annotations → Prop} (absurd : ¬ given)
    (h : Fills annotations given state visit other related') :
    Fills annotations given state visit filling related :=
  ⟨h.1, fun holds => (absurd holds).elim⟩

/-- What is given may be used where the visit finds nothing out anyway. -/
theorem of_silent (silent : Silent visit)
    (h : given → Fills annotations True state visit filling related) :
    Fills annotations given state visit filling related :=
  ⟨silent.grownTo state, fun holds => (h holds).2 trivial⟩

theorem pure {value : α} {other : β}
    (h : given → related value other (held annotations state.inner)) :
    Fills annotations given state (Pure.pure value) (Pure.pure other) related :=
  ⟨⟨rfl, List.prefix_rfl⟩, fun holds fresh => .returns fresh (h holds)⟩

theorem fail (cause : ErrorCause) (position : Position) :
    Fills annotations given state (Visit.fail cause position) (Visit.fail cause position)
      related :=
  ⟨⟨rfl, List.prefix_rfl⟩, fun _ fresh => .fails fresh⟩

theorem bind [Inhabited β] (h : Fills annotations given state visit filling related)
    (h' : ∀ value other after, Fills annotations
      (given ∧ state.GrownTo after ∧ related value other (held annotations after.inner)) after
      (next value) (next' other) related') :
    Fills annotations given state (visit >>= next) (filling >>= next') related' := by
  obtain ⟨grown, ends⟩ := h
  refine ⟨?_, fun holds fresh => ?_⟩
  · rw [Action.run_bind]
    generalize visit.run.run state = outcome at grown ⊢
    match outcome, grown with
    | (.ok value, mid), grown => exact grown.trans (h' value default mid).1
    | (.error _, _), grown => exact grown
  · replace ends := ends holds fresh
    rw [Action.run_bind, Action.run_bind]
    generalize visit.run.run state = outcome at grown ends ⊢
    generalize filling.run.run state = outcome' at ends ⊢
    cases ends with
    | returns all relates => exact (h' _ _ _).2 ⟨holds, grown, relates⟩ all
    | fails all => exact .fails all
    | @stops outcome mid stopped error all =>
        cases outcome with
        | error => exact .stops all
        | ok value =>
            -- The visit goes on, but what it finds out later is not entered any more.
            have later := entered_eq_error (h' value default mid).1 all
            exact .stops later

/-- An action on both sides that finds nothing out. -/
theorem same_bind {action : Check γ} {next : γ → Check α} {next' : γ → Check β}
    (silent : Silent action)
    (h : ∀ value after, Fills annotations (given ∧ state.GrownTo after) after (next value)
      (next' value) related) :
    Fills annotations given state (action >>= next) (action >>= next') related := by
  have grown := silent.grownTo state
  have quiet := (silent state).2
  refine ⟨?_, fun holds fresh => ?_⟩
  · rw [Action.run_bind]
    generalize action.run.run state = outcome at grown ⊢
    match outcome, grown with
    | (.ok value, mid), grown => exact grown.trans (h value mid).1
    | (.error _, _), grown => exact grown
  · rw [Action.run_bind, Action.run_bind]
    unfold entered at fresh
    rw [← quiet] at fresh
    generalize action.run.run state = outcome at grown fresh ⊢
    match outcome, grown, fresh with
    | (.ok value, mid), grown, fresh => exact (h value mid).2 ⟨holds, grown⟩ fresh
    | (.error _, _), grown, fresh => exact .fails fresh

/-- The last action on both sides, if it finds nothing out. -/
theorem same {action : Check Unit} {related : Unit → Unit → Annotations → Prop}
    (silent : Silent action)
    (h : given → ∀ after, state.GrownTo after → related () () (held annotations after.inner)) :
    Fills annotations given state action action related := by
  have ends : Fills annotations given state (action >>= Pure.pure) (action >>= Pure.pure)
      related := same_bind silent fun _ after => .pure fun holds => h holds.1 after holds.2
  simpa only [bind_pure] using ends

/-- What surrounds is looked at by the noting visit. -/
theorem context_bind {next : Context → Check α}
    (h : Fills annotations given state (next state.context) filling related) :
    Fills annotations given state (Visit.context >>= next) filling related :=
  h

/-- What is given may be used to see what the filling visit does. -/
theorem congr {filling' : Check β} (same : given → filling = filling')
    (h : Fills annotations given state visit filling' related) :
    Fills annotations given state visit filling related :=
  ⟨h.1, fun holds => same holds ▸ h.2 holds⟩

/-- An action of the filling visit alone, which looks something up. -/
theorem read_bind {read : Check γ} {next' : γ → Check β} (value : γ)
    (reads : given → read.run.run state = (.ok value, state))
    (h : Fills annotations given state visit (next' value) related) :
    Fills annotations given state visit (read >>= next') related := by
  refine ⟨h.1, fun holds fresh => ?_⟩
  rw [Action.run_bind, reads holds]
  exact h.2 holds fresh

theorem discard [Inhabited β] (h : Fills annotations given state visit filling related) :
    Fills annotations given state (Functor.discard visit) (Functor.discard filling)
      fun _ _ _ => True := by
  change Fills annotations given state (visit >>= fun _ => Pure.pure ())
    (filling >>= fun _ => Pure.pure ()) _
  exact h.bind fun _ _ _ => pure fun _ => trivial

theorem ite (condition : Prop) [Decidable condition] {visit' : Check α} {filling' : Check β}
    (h : Fills annotations given state visit filling related)
    (h' : Fills annotations given state visit' filling' related) :
    Fills annotations given state (if condition then visit else visit')
      (if condition then filling else filling') related := by
  split
  · exact h
  · exact h'

/-- A finding that is noted fills in a cell, if it can be entered. -/
theorem fill (finding : Finding) :
    Fills annotations given state (note finding) (Cells.fill annotations finding)
      fun _ _ held => held.Holds finding := by
  let noted : TraversalState TypingState :=
    { state with inner := { state.inner with findings := state.inner.findings.push finding } }
  have notes : (note finding).run.run state = (.ok (), noted) := rfl
  have fills : (Cells.fill annotations finding).run.run state =
      (noteIf finding ((held annotations state.inner).enter finding)).run.run state := rfl
  refine ⟨⟨rfl, ?_⟩, fun _ fresh => ?_⟩
  · simp [notes, noted]
  · have before : entered annotations state.inner = (held annotations state.inner, .ok ()) :=
      Prod.ext rfl fresh
    have all : entered annotations noted.inner =
        (held annotations state.inner).enterAll [finding] := by
      unfold entered at before ⊢
      rw [Array.toList_push, Annotations.enterAll_append, before]
    rw [notes, fills]
    cases enters : (held annotations state.inner).enter finding with
    | ok after =>
        rw [Annotations.enterAll, enters] at all
        have holds : held annotations noted.inner = after := congrArg Prod.fst all
        change Ends annotations _ _ (.ok (), noted)
        exact .returns (congrArg Prod.snd all) (holds ▸ Annotations.holds_of_enter enters)
    | error error =>
        rw [Annotations.enterAll, enters] at all
        exact .stops all

/-- Changes around two visits that findings have no part in. -/
theorem between {before : TraversalState TypingState → TraversalState TypingState}
    {after : TraversalState TypingState → TraversalState TypingState → TraversalState TypingState}
    (h : Fills annotations given (before state) visit filling related)
    (enters : (before state).inner.findings = state.inner.findings)
    (leaves : ∀ final, (after state final).inner.findings = final.inner.findings)
    (around : ∀ final, final.context = (before state).context →
      (after state final).context = state.context) :
    Fills annotations given state (Visit.between before after visit)
      (Visit.between before after filling) related := by
  have same (final) : entered annotations (after state final).inner =
      entered annotations final.inner := by unfold entered; rw [leaves]
  refine ⟨⟨around _ h.1.context, ?_⟩, fun holds fresh => ?_⟩
  · rw [Visit.run_between, leaves, ← enters]
    exact h.1.findings
  · have ends := h.2 holds (by unfold entered at fresh ⊢; rwa [enters])
    rw [Visit.run_between, Visit.run_between]
    generalize visit.run.run (before state) = outcome at ends ⊢
    generalize filling.run.run (before state) = outcome' at ends ⊢
    cases ends with
    | @returns value other final all relates =>
        refine .returns ((same final).symm ▸ all) ?_
        have kept : held annotations (after state final).inner = held annotations final.inner :=
          congrArg Prod.fst (same final)
        rwa [kept]
    | fails all => exact .fails ((same _).symm ▸ all)
    | @stops outcome final stopped error all =>
        have kept : held annotations (after state stopped).inner =
            held annotations stopped.inner := congrArg Prod.fst (same stopped)
        exact .stops (by rw [same, all, kept])

end Fills

end Cells

end Offside
