import Offside.Proofs.Outcome
import Offside.Proofs.Typing.Sites
import Offside.Proofs.Typing.Uniqueness
import Offside.Typing.Rules

/-! # Visits as judgements

An action of the checker is started where its state tells of a place. `Judges` says what then comes
of it: either it returns, and what it returns holds by the rules; or it fails with a semantic error,
and the rules do not hold. In both cases each finding says of a site what the rules say of it. If
the action returns, its findings fill in certain cells, one after the other, and if it fails, some of
them from the first on.
-/

namespace Offside

open Rules

/-- The state of the checker tells of a place, and of the elements of the array visited next. -/
structure Place.Matches (program : Program) (place : Place) (pending : Option DataType)
    (state : TraversalState TypingState) : Prop where
  declared : place.Declared program
  function : state.context.function = place.function
  record : state.context.record = place.record
  inLoop : state.context.loop.isSome = place.inLoop
  environments : state.inner.environments = place.environments program
  pending : state.inner.pendingElement = pending

/-- Between two states, findings have been noted that fill in certain cells. Each of them says of a
site, which stands at a declared place, what the rules say of it. -/
def Notes (program : Program) (lookup : LocalLookup) (sites : List Site) (cells : List Cell)
    (state after : TraversalState TypingState) : Prop :=
  ∃ findings, after.inner.findings.toList = state.inner.findings.toList ++ findings ∧
    findings.filterMap Finding.cell? = cells ∧
    ∀ finding ∈ findings, ∃ site ∈ sites, site.place.Declared program ∧
      site.Justifies program lookup finding

/-- What comes of an action that is started at one place and returns at another. -/
def Judges {α : Type} (program : Program) (lookup : LocalLookup) (place after : Place)
    (pending : Option DataType) (sites : List Site) (cells : List Cell) (holds : α → Prop)
    (fails : Prop) (action : Check α) : Prop :=
  ∀ state, place.Matches program pending state →
    Action.Ensures action state
      (fun value final => holds value ∧ after.Matches program none final ∧
        Notes program lookup sites cells state final)
      (fun error final => fails ∧ error.cause.category = .semantic ∧
        ∃ filled, filled <+: cells ∧ Notes program lookup sites filled state final)

variable {program : Program} {lookup : LocalLookup} {place mid after : Place}
  {pending : Option DataType} {sites sites' : List Site} {cells cells' : List Cell} {α β : Type}
  {holds : α → Prop} {holds' : β → Prop} {fails fails' : Prop}

namespace Notes

variable {state next final : TraversalState TypingState}

theorem nil : Notes program lookup sites [] state state :=
  ⟨[], by simp, rfl, by simp⟩

theorem mono (h : Notes program lookup sites cells state final) (subset : sites ⊆ sites') :
    Notes program lookup sites' cells state final := by
  obtain ⟨findings, grown, filled, justified⟩ := h
  refine ⟨findings, grown, filled, fun finding member => ?_⟩
  obtain ⟨site, hsite, justifies⟩ := justified finding member
  exact ⟨site, subset hsite, justifies⟩

theorem trans (h : Notes program lookup sites cells state next)
    (h' : Notes program lookup sites cells' next final) :
    Notes program lookup sites (cells ++ cells') state final := by
  obtain ⟨findings, grown, rfl, justified⟩ := h
  obtain ⟨findings', grown', rfl, justified'⟩ := h'
  refine ⟨findings ++ findings', by rw [grown', grown, List.append_assoc],
    List.filterMap_append, fun finding member => ?_⟩
  exact (List.mem_append.1 member).elim (justified finding) (justified' finding)

end Notes

namespace Judges

theorem mono {action : Check α} {holds' : α → Prop}
    (h : Judges program lookup place after pending sites cells holds fails action)
    (subset : sites ⊆ sites') (hholds : ∀ value, holds value → holds' value)
    (hfails : fails → fails') :
    Judges program lookup place after pending sites' cells holds' fails' action := by
  intro state hstate
  refine (h state hstate).mono ?_ ?_
  · rintro value final ⟨held, hfinal, notes⟩
    exact ⟨hholds value held, hfinal, notes.mono subset⟩
  · rintro error final ⟨failed, semantic, filled, hfilled, notes⟩
    exact ⟨hfails failed, semantic, filled, hfilled, notes.mono subset⟩

theorem bind {action : Check α} {next : α → Check β}
    (h : Judges program lookup place mid pending sites cells holds fails action)
    (hnext : ∀ value, holds value →
      Judges program lookup mid after none sites cells' holds' fails' (next value))
    (hfails : fails → fails') :
    Judges program lookup place after pending sites (cells ++ cells') holds' fails'
      (action >>= next) := by
  intro state hstate
  refine ((h state hstate).mono (fun _ _ => id) ?_).bind ?_
  · rintro error final ⟨failed, semantic, filled, hfilled, notes⟩
    exact ⟨hfails failed, semantic, filled, hfilled.trans (List.prefix_append _ _), notes⟩
  · rintro value middle ⟨held, hmiddle, notes⟩
    refine (hnext value held middle hmiddle).mono ?_ ?_
    · rintro result final ⟨held', hfinal, notes'⟩
      exact ⟨held', hfinal, notes.trans notes'⟩
    · rintro error final ⟨failed, semantic, filled, hfilled, notes'⟩
      exact ⟨failed, semantic, _, (List.prefix_append_right_inj cells).2 hfilled,
        notes.trans notes'⟩

/-- An action that only decides something fills in nothing. -/
theorem bind_nil {action : Check α} {next : α → Check β}
    (h : Judges program lookup place mid pending sites [] holds fails action)
    (hnext : ∀ value, holds value →
      Judges program lookup mid after none sites cells holds' fails' (next value))
    (hfails : fails → fails') :
    Judges program lookup place after pending sites cells holds' fails' (action >>= next) :=
  h.bind hnext hfails

/-- At the end, an action that only decides something fills in nothing more. -/
theorem bind_last {action : Check α} {next : α → Check β}
    (h : Judges program lookup place mid pending sites cells holds fails action)
    (hnext : ∀ value, holds value →
      Judges program lookup mid after none sites [] holds' fails' (next value))
    (hfails : fails → fails') :
    Judges program lookup place after pending sites cells holds' fails' (action >>= next) :=
  List.append_nil cells ▸ h.bind hnext hfails

theorem pure {value : α} (h : holds value) :
    Judges program lookup place place none sites [] holds fails (Pure.pure value : Check α) :=
  fun _ hstate => ⟨h, hstate, .nil⟩

theorem discard {action : Check α}
    (h : Judges program lookup place after pending sites cells holds fails action) :
    Judges program lookup place after pending sites cells (fun _ => ∃ value, holds value) fails
      (Functor.discard action) := by
  change Judges program lookup place after pending sites cells _ fails
    (action >>= fun _ => Pure.pure ())
  exact h.bind_last (fun value held => .pure ⟨value, held⟩) id

theorem fail {cause : ErrorCause} {position : Position} (semantic : cause.category = .semantic)
    (h : fails) :
    Judges program lookup place after pending sites cells holds fails
      (Visit.fail cause position : Check α) :=
  fun _ _ => ⟨h, semantic, [], List.nil_prefix, .nil⟩

end Judges

/-- An action that returns or fails as a condition holds or not. -/
theorem judges_ite {condition : Prop} [Decidable condition] {cause : ErrorCause}
    {position : Position} (semantic : cause.category = .semantic) :
    Judges program lookup place place none sites [] (fun _ => condition) (¬ condition)
      (if condition then return else Visit.fail cause position : Check Unit) := by
  split
  · next h => exact .pure h
  · next h => exact .fail semantic h

theorem judges_note {finding : Finding} (site : Site) (hsite : site ∈ sites)
    (stands : site.place = place) (justifies : site.Justifies program lookup finding) :
    Judges program lookup place place none sites finding.cell?.toList (fun _ => True) False
      (note finding) := by
  intro state hstate
  refine ⟨trivial, ⟨hstate.declared, hstate.function, hstate.record, hstate.inLoop,
    hstate.environments, hstate.pending⟩, [finding], by simp, ?_, ?_⟩
  · cases h : finding.cell? <;> simp [h]
  · intro other member
    cases List.mem_singleton.1 member
    exact ⟨site, hsite, stands ▸ hstate.declared, justifies⟩

theorem judges_settle {address : Address} {span : Span} {type : DataType} (site : Site)
    (hsite : site ∈ sites) (stands : site.place = place)
    (justifies : site.Justifies program lookup (.type address type span.start)) :
    Judges program lookup place place none sites [.type address] (· = { type }) False
      (settle address span type) :=
  (judges_note site hsite stands justifies).bind (fun _ _ => .pure rfl) id

theorem judges_context :
    Judges program lookup place place none sites []
      (fun context => context.function = place.function ∧ context.record = place.record ∧
        context.loop.isSome = place.inLoop) False (Visit.context : Check Context) :=
  fun _ hstate => ⟨⟨hstate.function, hstate.record, hstate.inLoop⟩, hstate, .nil⟩

theorem judges_inner :
    Judges program lookup place place none sites []
      (fun inner => inner.environments = place.environments program) False
      (Visit.inner : Check TypingState) :=
  fun _ hstate => ⟨hstate.environments, hstate, .nil⟩

theorem judges_takePending :
    Judges program lookup place place pending sites [] (· = pending) False takePending :=
  fun _ hstate => ⟨hstate.pending,
    ⟨hstate.declared, hstate.function, hstate.record, hstate.inLoop, hstate.environments, rfl⟩,
    .nil⟩

theorem judges_requireAgreement {expr : Expr} {type expected : DataType} :
    Judges program lookup place place none sites [] (fun _ => type.agrees expected)
      (¬ type.agrees expected) (requireAgreement expr type expected) :=
  judges_ite rfl

theorem judges_requireKnown {type : DataType} {span : Span} :
    Judges program lookup place place none sites [] (fun _ => program.knows type)
      (¬ program.knows type) (requireKnown program type span) :=
  judges_ite rfl

end Offside
