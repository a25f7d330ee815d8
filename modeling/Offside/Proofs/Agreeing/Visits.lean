import Offside.Proofs.Agreeing.Lookups
import Offside.Proofs.Outcome
import Offside.Typing.Rules
import Mathlib.Data.List.Forall2

/-! # Visits under the two lookups

Where the bodies of a program are unambiguous, a visit that returns while the innermost declaration
counts returns the same if the last one in the body counts, and leaves the same state. What carries
this through the nodes is that the environments only ever hold what the current body declares.
-/

namespace Offside

/-- A visit is inside a certain function, if in any, and inside a number of environments, which hold
variables that the body of the function declares. -/
structure Function.Surrounds (program : Program) (around : Option Function) (depth : Nat)
    (state : TraversalState TypingState) : Prop where
  function : state.context.function = around
  size : state.inner.environments.length = depth
  holds : ∀ function, around = some function → function.Holds program state.inner.environments

/-- Variables that the body of the function declares which a visit is inside of, if it is in any. -/
def Function.Owns (around : Option Function) (ids : List VarId) : Prop :=
  ∀ function, around = some function → ids ⊆ function.body.handles

namespace Function.Owns

variable {around : Option Function} {id : VarId} {ids ids' : List VarId}

theorem outside : Owns none ids :=
  fun _ inside => nomatch inside

theorem left (h : Owns around (ids ++ ids')) : Owns around ids :=
  fun function inside => (List.append_subset.1 (h function inside)).1

theorem right (h : Owns around (ids ++ ids')) : Owns around ids' :=
  fun function inside => (List.append_subset.1 (h function inside)).2

theorem head (h : Owns around (id :: ids)) : Owns around [id] := by
  rw [← List.singleton_append] at h
  exact h.left

theorem tail (h : Owns around (id :: ids)) : Owns around ids := by
  rw [← List.singleton_append] at h
  exact h.right

end Function.Owns

namespace Rules

/-- Started inside a function, the first of two actions either fails, or it returns what the second
returns, in the same state and still inside of the function. -/
def Agrees {α : Type} (program : Program) (around : Option Function) (depth : Nat)
    (visit other : Check α) : Prop :=
  ∀ state, Function.Surrounds program around depth state →
    Action.Ensures visit state
      (fun value after => other.run.run state = (.ok value, after) ∧
        Function.Surrounds program around depth after)
      fun _ _ => True

variable {program : Program} {around : Option Function} {depth : Nat} {α β : Type}

namespace Agrees

theorem pure (value : α) :
    Agrees program around depth (Pure.pure value) (Pure.pure value) :=
  fun _ surrounds => ⟨rfl, surrounds⟩

theorem fail (cause : ErrorCause) (position : Position) {other : Check α} :
    Agrees program around depth (Visit.fail cause position) other :=
  fun _ _ => trivial

theorem bind {visit other : Check α} {next next' : α → Check β}
    (h : Agrees program around depth visit other)
    (h' : ∀ value, Agrees program around depth (next value) (next' value)) :
    Agrees program around depth (visit >>= next) (other >>= next') := by
  refine fun state surrounds => (h state surrounds).bind ?_
  rintro value mid ⟨same, surrounds'⟩
  refine (h' value mid surrounds').mono ?_ fun _ _ => id
  rintro result after ⟨same', surrounds''⟩
  exact ⟨by rw [Action.run_bind, same]; exact same', surrounds''⟩

theorem map {visit other : Check α} (view : α → β)
    (h : Agrees program around depth visit other) :
    Agrees program around depth (view <$> visit) (view <$> other) := by
  rw [map_eq_pure_bind, map_eq_pure_bind]
  exact h.bind fun value => pure (view value)

theorem ite (condition : Prop) [Decidable condition] {visit visit' other other' : Check α}
    (h : Agrees program around depth visit other)
    (h' : Agrees program around depth visit' other') :
    Agrees program around depth (if condition then visit else visit')
      (if condition then other else other') := by
  split
  · exact h
  · exact h'

/-- What an action goes on with after looking at what surrounds it. -/
theorem context_bind {next next' : Context → Check β}
    (h : ∀ context, context.function = around →
      Agrees program around depth (next context) (next' context)) :
    Agrees program around depth (Visit.context >>= next) (Visit.context >>= next') :=
  fun state surrounds => h state.context surrounds.function state surrounds

/-- What an action goes on with after looking at what the rules remember. -/
theorem inner_bind {next next' : TypingState → Check β}
    (h : ∀ inner : TypingState,
      (∀ function, around = some function → function.Holds program inner.environments) →
      Agrees program around depth (next inner) (next' inner)) :
    Agrees program around depth (Visit.inner >>= next) (Visit.inner >>= next') :=
  fun state surrounds => h state.inner surrounds.holds state surrounds

/-- An action that changes neither the function around it nor the environments. -/
theorem modify (change : TypingState → TypingState)
    (kept : ∀ state, (change state).environments = state.environments) :
    Agrees program around depth (Visit.modifyInner change) (Visit.modifyInner change) :=
  fun state surrounds => ⟨rfl, surrounds.function, (kept state.inner).symm ▸ surrounds.size,
    (kept state.inner).symm ▸ surrounds.holds⟩

/-- Actions between two changes of the state, from one surrounding to another and back. -/
theorem between {inside : Option Function} {deeper : Nat} {visit other : Check α}
    {before : TraversalState TypingState → TraversalState TypingState}
    {after : TraversalState TypingState → TraversalState TypingState → TraversalState TypingState}
    (h : Agrees program inside deeper visit other)
    (enters : ∀ state, Function.Surrounds program around depth state →
      Function.Surrounds program inside deeper (before state))
    (leaves : ∀ saved state, Function.Surrounds program around depth saved →
      Function.Surrounds program inside deeper state →
      Function.Surrounds program around depth (after saved state)) :
    Agrees program around depth (Visit.between before after visit)
      (Visit.between before after other) := by
  intro state surrounds
  have outcome := h (before state) (enters state surrounds)
  unfold Action.Ensures at outcome ⊢
  rw [Visit.run_between, Visit.run_between]
  generalize visit.run.run (before state) = run at outcome ⊢
  match run, outcome with
  | (.ok value, final), ⟨same, surrounds'⟩ =>
      exact ⟨by rw [same], leaves state final surrounds surrounds'⟩
  | (.error error, final), _ => trivial

theorem inRecord (record : Option RecordDecl) {visit other : Check α}
    (h : Agrees program around depth visit other) :
    Agrees program around depth (Visit.inRecord record visit) (Visit.inRecord record other) :=
  h.between (fun _ surrounds => ⟨surrounds.1, surrounds.2, surrounds.3⟩)
    fun _ _ _ surrounds => ⟨surrounds.1, surrounds.2, surrounds.3⟩

theorem inBlock (block : Option Block) {visit other : Check α}
    (h : Agrees program around depth visit other) :
    Agrees program around depth (Visit.inBlock block visit) (Visit.inBlock block other) :=
  h.between (fun _ surrounds => ⟨surrounds.1, surrounds.2, surrounds.3⟩)
    fun _ _ _ surrounds => ⟨surrounds.1, surrounds.2, surrounds.3⟩

theorem inLoop (loop : Option Stmt) {visit other : Check α}
    (h : Agrees program around depth visit other) :
    Agrees program around depth (Visit.inLoop loop visit) (Visit.inLoop loop other) :=
  h.between (fun _ surrounds => ⟨surrounds.1, surrounds.2, surrounds.3⟩)
    fun _ _ _ surrounds => ⟨surrounds.1, surrounds.2, surrounds.3⟩

theorem withPending (element : Option DataType) {visit other : Check α}
    (h : Agrees program around depth visit other) :
    Agrees program around depth (Rules.withPending element visit)
      (Rules.withPending element other) :=
  h.between (fun _ surrounds => ⟨surrounds.1, surrounds.2, surrounds.3⟩)
    fun _ _ _ surrounds => ⟨surrounds.1, surrounds.2, surrounds.3⟩

/-- Outside of all blocks, a function is entered with no environments. -/
theorem inFunction (function : Function) {visit other : Check α}
    (h : Agrees program (some function) 0 visit other) :
    Agrees program none 0 (Visit.inFunction (some function) visit)
      (Visit.inFunction (some function) other) := by
  refine h.between (fun state surrounds => ⟨rfl, surrounds.size, ?_⟩)
    fun saved state surrounds surrounds' => ⟨surrounds.function, surrounds'.size, nofun⟩
  rintro - -
  have none : state.inner.environments = [] := List.eq_nil_of_length_eq_zero surrounds.size
  simpa only [none] using Function.Holds.nil

theorem inNewEnvironment {visit other : Check α}
    (h : Agrees program around (depth + 1) visit other) :
    Agrees program around depth (Rules.inNewEnvironment visit)
      (Rules.inNewEnvironment other) := by
  refine h.between (fun state surrounds => ⟨surrounds.function, ?_, ?_⟩)
    fun saved state _ surrounds => ⟨surrounds.function, ?_, ?_⟩
  · simp [surrounds.size]
  · exact fun function here => (surrounds.holds function here).cons_empty
  · simp [surrounds.size]
  · exact fun function here => (surrounds.holds function here).tail

theorem note (finding : Finding) :
    Agrees program around depth (Rules.note finding) (Rules.note finding) :=
  modify _ fun _ => rfl

theorem setPending (element : Option DataType) :
    Agrees program around depth (Rules.setPending element) (Rules.setPending element) :=
  modify _ fun _ => rfl

theorem settle (address : Address) (span : Span) (type : DataType) :
    Agrees program around depth (Rules.settle address span type)
      (Rules.settle address span type) :=
  (note _).bind fun _ => pure _

theorem requireKnown (type : DataType) (span : Span) :
    Agrees program around depth (Rules.requireKnown program type span)
      (Rules.requireKnown program type span) :=
  ite _ (pure ()) (fail _ _)

theorem requireAgreement (expr : Expr) (type expected : DataType) :
    Agrees program around depth (Rules.requireAgreement expr type expected)
      (Rules.requireAgreement expr type expected) :=
  ite _ (pure ()) (fail _ _)

theorem takePending : Agrees program around depth Rules.takePending Rules.takePending :=
  inner_bind fun _ _ => (setPending none).bind fun _ => pure _

/-- What is declared inside a function must be one of the variables that its body declares. -/
theorem declareLocal {name : String} {id : VarId}
    (owned : Function.Owns around [id])
    (declares : program.declares name id = true) :
    Agrees program around depth (Rules.declareLocal name id) (Rules.declareLocal name id) := by
  rintro ⟨context, environments, pending, findings⟩ ⟨here, deep, holds⟩
  cases environments with
  | nil => exact ⟨rfl, here, deep, holds⟩
  | cons innermost outer =>
      exact ⟨rfl, here, deep, fun function same =>
        (holds function same).declare (owned function same List.mem_cons_self) declares⟩

theorem forM {items : List α} {visit other : α → Check PUnit}
    (h : ∀ item ∈ items, Agrees program around depth (visit item) (other item)) :
    Agrees program around depth (items.forM visit) (items.forM other) := by
  induction items with
  | nil => exact pure _
  | cons item rest ih =>
      rw [List.forall_mem_cons] at h
      exact h.1.bind fun _ => ih h.2

end Agrees

/-- Parts of two visits that are of the same expression and agree. -/
def PartAgrees (program : Program) (around : Option Function) (depth : Nat)
    (part other : Part TypingState Typed) : Prop :=
  part.expr = other.expr ∧ Agrees program around depth part.visit other.visit

section Handlers

variable {address : Address} {part other left right left' right' : Part TypingState Typed}
  {parts others : List (Part TypingState Typed)}

theorem elements_agree (inner : Option DataType)
    (h : List.Forall₂ (PartAgrees program around depth) parts others) :
    Agrees program around depth (elements inner parts) (elements inner others) := by
  induction h with
  | nil => exact .pure _
  | @cons part other _ _ first _ ih =>
      obtain ⟨same, visits⟩ := first
      simp only [elements, same]
      have visited := visits.bind fun typed =>
        ih.bind fun rest => .pure ((other.expr, typed.type) :: rest)
      exact .ite _ ((Agrees.setPending inner).bind fun _ => visited) visited

theorem arguments_agree (h : List.Forall₂ (PartAgrees program around depth) parts others) :
    Agrees program around depth (arguments parts) (arguments others) := by
  induction h with
  | nil => exact .pure _
  | cons first _ ih => exact (first.2.map _).bind fun _ => ih

theorem binaryType_agrees (operator : Operator) (left right : Expr)
    (leftType rightType : DataType) :
    Agrees program around depth (binaryType operator left right leftType rightType)
      (binaryType operator left right leftType rightType) := by
  unfold binaryType
  cases operator.operatorClass with
  | arithmetic | assignment | comparison =>
      exact (Agrees.requireAgreement _ _ _).bind fun _ => .pure _
  | logical =>
      exact (Agrees.requireAgreement _ _ _).bind fun _ =>
        (Agrees.requireAgreement _ _ _).bind fun _ => .pure _

theorem unaryType_agrees (operator : Operator) (operand : Expr) (type : DataType) :
    Agrees program around depth (unaryType operator operand type)
      (unaryType operator operand type) := by
  unfold unaryType
  split
  · exact (Agrees.requireAgreement _ _ _).bind fun _ => .pure _
  · exact .pure _

theorem array_agrees (span : Span)
    (h : List.Forall₂ (PartAgrees program around depth) parts others) :
    Agrees program around depth ((exprs program .innermost).array address parts span)
      ((exprs program .lastInBody).array address others span) :=
  Agrees.takePending.bind fun _ => (elements_agree _ h).bind fun _ =>
    (Agrees.forM fun _ _ => .requireAgreement _ _ _).bind fun _ => .settle _ _ _

theorem binary_agrees (operator : Operator) (span : Span)
    (h : PartAgrees program around depth left left')
    (h' : PartAgrees program around depth right right') :
    Agrees program around depth ((exprs program .innermost).binary address operator left right span)
      ((exprs program .lastInBody).binary address operator left' right' span) := by
  simp only [exprs, h.1, h'.1]
  exact h.2.bind fun _ => h'.2.bind fun _ =>
    (binaryType_agrees _ _ _ _ _).bind fun _ => .settle _ _ _

theorem unary_agrees (operator : Operator) (span : Span)
    (h : PartAgrees program around depth part other) :
    Agrees program around depth ((exprs program .innermost).unary address operator part span)
      ((exprs program .lastInBody).unary address operator other span) := by
  simp only [exprs, h.1]
  exact h.2.bind fun _ => (unaryType_agrees _ _ _).bind fun _ => .settle _ _ _

theorem call_agrees (callee : Name) (span : Span)
    (h : List.Forall₂ (PartAgrees program around depth) parts others) :
    Agrees program around depth ((exprs program .innermost).call address callee parts span)
      ((exprs program .lastInBody).call address callee others span) := by
  refine (arguments_agree h).bind fun _ => .ite _ ?_ ?_
  · exact (Agrees.note _).bind fun _ => .settle _ _ _
  · refine .context_bind fun context _ => ?_
    split
    · exact .settle _ _ _
    · exact .fail _ _

theorem method_agrees (callee : Name) (span : Span)
    (h : PartAgrees program around depth part other)
    (h' : List.Forall₂ (PartAgrees program around depth) parts others) :
    Agrees program around depth ((exprs program .innermost).method address part callee parts span)
      ((exprs program .lastInBody).method address other callee others span) := by
  simp only [exprs, h.1]
  refine h.2.bind fun typed => (arguments_agree h').bind fun _ => ?_
  split
  · exact .fail _ _
  · split
    · exact .settle _ _ _
    · exact .fail _ _

theorem property_agrees (member : Name) (span : Span)
    (h : PartAgrees program around depth part other) :
    Agrees program around depth ((exprs program .innermost).property address part member span)
      ((exprs program .lastInBody).property address other member span) := by
  refine h.2.bind fun typed => ?_
  split
  · exact .settle _ _ _
  · exact .fail _ _

/-- A name is resolved to the same variable, if to any while the innermost declaration counts. -/
theorem reference_agrees (coherent : program.Coherent)
    (inside : ∀ function, around = some function → function.Unambiguous program) (name : String)
    (span : Span) :
    Agrees program around depth ((exprs program .innermost).reference address name span)
      ((exprs program .lastInBody).reference address name span) := by
  refine .context_bind fun context here => .inner_bind fun inner holds => ?_
  have bodies : ∀ function, context.function = some function →
      function.Unambiguous program ∧ function.Holds program inner.environments :=
    fun function same => ⟨inside function (here ▸ same), holds function (here ▸ same)⟩
  cases found : LocalLookup.innermost.find? program context inner.environments name with
  | none => exact .fail _ _
  | some id =>
      rw [LocalLookup.find?_lastInBody coherent bodies found]
      split
      · exact .fail _ _
      · exact (Agrees.note _).bind fun _ => (Agrees.settle _ _ _).bind fun _ => .pure _

end Handlers

end Rules

end Offside
