import Offside.Proofs.Outcome
import Offside.Proofs.Sizes.Lookups
import Offside.Typing.Rules

/-! # Visits do not depend on sizes

Whatever the rules do with a type, the sizes of the numbers in it do not matter. So the visit of a
node in a program without sizes is a shadow of the visit in the program: it ends in the same way and
finds out the same, but for the sizes.
-/

namespace Offside

/-- A cause without the sizes of numbers. -/
def ErrorCause.unsized : ErrorCause → ErrorCause
  | unknownDataType type => unknownDataType type.unsized
  | notAllPathsReturn type => notAllPathsReturn type.unsized
  | cannotConvertValue source target => cannotConvertValue source.unsized target.unsized
  | returnTypeMismatch type function => returnTypeMismatch type.unsized function
  | cause => cause

@[simp] theorem ErrorCause.name_unsized (cause : ErrorCause) : cause.unsized.name = cause.name := by
  cases cause <;> rfl

/-- An error without the sizes of numbers. -/
def Error.unsized (error : Error) : Error :=
  { error with cause := error.cause.unsized }

/-- A finding without the sizes of numbers. -/
def Finding.unsized : Finding → Finding
  | type address found position => type address found.unsized position
  | finding => finding

/-- What the rules remember, without the sizes of numbers. -/
def TypingState.unsized (state : TypingState) : TypingState :=
  { state with
    pendingElement := state.pendingElement.map DataType.unsized
    findings := state.findings.map Finding.unsized }

/-- The state of a visit without the sizes of numbers. -/
def TraversalState.unsized (state : TraversalState TypingState) : TraversalState TypingState :=
  ⟨state.context.unsized, state.inner.unsized⟩

/-- What is learned by visiting an expression, without the sizes of numbers. -/
def Typed.unsized (typed : Typed) : Typed :=
  { typed with type := typed.type.unsized }

/-- How an action ends, without the sizes of numbers in its error and in the view of its value. -/
def unsizedOutcome {α : Type} (view : α → α) (result : Except Error α) : Except Error α :=
  (result.map view).mapError Error.unsized

namespace Rules

/-- Started without the sizes that a visit is started with, its shadow ends in the same way and
leaves the same state, but for the sizes. -/
def Shadows {α : Type} (view : α → α) (visit shadow : Check α) : Prop :=
  ∀ state, shadow.run.run state.unsized =
    (unsizedOutcome view (visit.run.run state).1, (visit.run.run state).2.unsized)

variable {α β : Type} {view : α → α} {view' : β → β}

namespace Shadows

theorem pure (value : α) : Shadows view (Pure.pure value) (Pure.pure (view value)) :=
  fun _ => rfl

theorem fail (cause : ErrorCause) (position : Position) :
    Shadows view (Visit.fail cause position) (Visit.fail cause.unsized position) :=
  fun _ => rfl

theorem context : Shadows Context.unsized Visit.context Visit.context :=
  fun _ => rfl

theorem inner : Shadows TypingState.unsized Visit.inner Visit.inner :=
  fun _ => rfl

theorem bind {visit shadow : Check α} {next next' : α → Check β} (h : Shadows view visit shadow)
    (h' : ∀ value, Shadows view' (next value) (next' (view value))) :
    Shadows view' (visit >>= next) (shadow >>= next') := by
  intro state
  rw [Action.run_bind, Action.run_bind, h state]
  generalize visit.run.run state = outcome
  match outcome with
  | (.ok value, mid) => exact h' value mid
  | (.error error, mid) => rfl

theorem forM {γ : Type} {change : γ → γ} {items others : List γ} {visit shadow : γ → Check PUnit}
    (same : others = items.map change)
    (h : ∀ item, Shadows id (visit item) (shadow (change item))) :
    Shadows id (items.forM visit) (others.forM shadow) := by
  subst same
  induction items with
  | nil => exact pure _
  | cons item rest ih => exact (h item).bind fun _ => ih

theorem discard {visit shadow : Check α} (h : Shadows view visit shadow) :
    Shadows id (Functor.discard visit) (Functor.discard shadow) := by
  change Shadows id ((fun _ => PUnit.unit) <$> visit) ((fun _ => PUnit.unit) <$> shadow)
  rw [map_eq_pure_bind, map_eq_pure_bind]
  exact h.bind fun _ => pure _

theorem ite {condition condition' : Prop} [Decidable condition] [Decidable condition']
    (same : condition' ↔ condition) {visit visit' shadow shadow' : Check α}
    (h : Shadows view visit shadow) (h' : Shadows view visit' shadow') :
    Shadows view (if condition then visit else visit')
      (if condition' then shadow else shadow') := by
  by_cases holds : condition
  · rwa [if_pos holds, if_pos (same.2 holds)]
  · rwa [if_neg holds, if_neg fun holds' => holds (same.1 holds')]

/-- Changes that are made before and behind a visit, in which sizes have no part. -/
theorem between {visit shadow : Check α}
    {before before' : TraversalState TypingState → TraversalState TypingState}
    {after : TraversalState TypingState → TraversalState TypingState → TraversalState TypingState}
    (h : Shadows view visit shadow)
    (enters : ∀ state : TraversalState TypingState,
      before' state.unsized = (before state).unsized)
    (leaves : ∀ saved state : TraversalState TypingState,
      after saved.unsized state.unsized = (after saved state).unsized) :
    Shadows view (Visit.between before after visit) (Visit.between before' after shadow) := by
  intro state
  rw [Visit.run_between, Visit.run_between, enters, h, leaves]

theorem inFunction (function : Function) {visit shadow : Check α} (h : Shadows view visit shadow) :
    Shadows view (Visit.inFunction (some function) visit)
      (Visit.inFunction (some function.unsized) shadow) :=
  h.between (fun _ => rfl) fun _ _ => rfl

theorem inRecord (record : RecordDecl) {visit shadow : Check α} (h : Shadows view visit shadow) :
    Shadows view (Visit.inRecord (some record) visit)
      (Visit.inRecord (some record.unsized) shadow) :=
  h.between (fun _ => rfl) fun _ _ => rfl

theorem inBlock (block : Option Block) {visit shadow : Check α} (h : Shadows view visit shadow) :
    Shadows view (Visit.inBlock block visit) (Visit.inBlock block shadow) :=
  h.between (fun _ => rfl) fun _ _ => rfl

theorem inLoop (loop : Option Stmt) {visit shadow : Check α} (h : Shadows view visit shadow) :
    Shadows view (Visit.inLoop loop visit) (Visit.inLoop loop shadow) :=
  h.between (fun _ => rfl) fun _ _ => rfl

theorem inNewEnvironment {visit shadow : Check α} (h : Shadows view visit shadow) :
    Shadows view (Rules.inNewEnvironment visit) (Rules.inNewEnvironment shadow) :=
  h.between (fun _ => rfl) fun _ _ => rfl

theorem withPending (element : Option DataType) {visit shadow : Check α}
    (h : Shadows view visit shadow) :
    Shadows view (Rules.withPending element visit)
      (Rules.withPending (element.map DataType.unsized) shadow) :=
  h.between (fun _ => rfl) fun _ _ => rfl

theorem note (finding : Finding) :
    Shadows id (Rules.note finding) (Rules.note finding.unsized) := by
  intro state
  have grown : (state.inner.findings.push finding).map Finding.unsized =
      (state.inner.findings.map Finding.unsized).push finding.unsized := Array.map_push
  simp only [Rules.note, Visit.modifyInner, Action.run_modify, TraversalState.unsized,
    TypingState.unsized, grown]
  rfl

theorem decl (program : Program) (id : VarId) :
    Shadows VarDecl.unsized (Visit.ofExcept (program.decl id))
      (Visit.ofExcept (program.unsized.decl id)) := by
  unfold Program.decl
  rw [program.decl?_unsized]
  cases program.decl? id with
  | none => exact fun _ => rfl
  | some decl => exact pure decl

theorem settle (address : Address) (span : Span) (type : DataType) :
    Shadows Typed.unsized (Rules.settle address span type)
      (Rules.settle address span type.unsized) :=
  (note (.type address type span.start)).bind fun _ => pure _

theorem requireKnown (program : Program) (type : DataType) (span : Span) :
    Shadows id (Rules.requireKnown program type span)
      (Rules.requireKnown program.unsized type.unsized span) :=
  ite (by rw [program.knows_unsized]) (pure ()) (fail _ _)

theorem requireAgreement (expr : Expr) (type expected : DataType) :
    Shadows id (Rules.requireAgreement expr type expected)
      (Rules.requireAgreement expr type.unsized expected.unsized) :=
  ite (by rw [DataType.agrees_unsized]) (pure ()) (fail _ _)

theorem setPending (element : Option DataType) :
    Shadows id (Rules.setPending element) (Rules.setPending (element.map DataType.unsized)) :=
  fun _ => rfl

theorem takePending : Shadows (Option.map DataType.unsized) Rules.takePending Rules.takePending :=
  fun _ => rfl

theorem declareLocal (name : String) (decl : VarId) :
    Shadows id (Rules.declareLocal name decl) (Rules.declareLocal name decl) := by
  rintro ⟨context, environments, pending, findings⟩
  cases environments <;> rfl

end Shadows

/-- Parts of two visits that are of the same expression, one the shadow of the other. -/
def PartShadows (part shadow : Part TypingState Typed) : Prop :=
  part.expr = shadow.expr ∧ Shadows Typed.unsized part.visit shadow.visit

section Handlers

variable (program : Program) (lookup : LocalLookup) {address : Address}
  {part shadow left right left' right' : Part TypingState Typed}
  {parts shadows : List (Part TypingState Typed)}

theorem literalType_unsized (value : Literal) :
    (literalType value).unsized = literalType value := by
  cases value <;> rfl

theorem literal_shadows (value : Literal) (span : Span) :
    Shadows Typed.unsized ((exprs program lookup).literal address value span)
      ((exprs program.unsized lookup).literal address value span) := by
  have settled : Shadows Typed.unsized (settle address span (literalType value)) _ :=
    .settle address span (literalType value)
  rwa [literalType_unsized] at settled

theorem innerElement?_unsized (declared : Option DataType) :
    innerElement? (declared.map DataType.unsized) =
      (innerElement? declared).map DataType.unsized := by
  cases declared with
  | none => rfl
  | some type => cases type <;> rfl

theorem elements_shadow (inner : Option DataType) (h : List.Forall₂ PartShadows parts shadows) :
    Shadows (List.map (Prod.map id DataType.unsized)) (elements inner parts)
      (elements (inner.map DataType.unsized) shadows) := by
  induction h with
  | nil => exact .pure _
  | @cons part shadow _ _ first _ ih =>
      obtain ⟨same, visits⟩ := first
      simp only [elements, same]
      refine .ite .rfl ((Shadows.setPending inner).bind fun _ => ?_) ?_
      all_goals
        exact visits.bind fun typed => ih.bind fun rest => .pure ((shadow.expr, typed.type) :: rest)

theorem arguments_shadow (h : List.Forall₂ PartShadows parts shadows) :
    Shadows id (arguments parts) (arguments shadows) := by
  induction h with
  | nil => exact .pure ()
  | cons first _ ih => exact first.2.discard.bind fun _ => ih

theorem binaryType_shadows (operator : Operator) (left right : Expr)
    (leftType rightType : DataType) :
    Shadows DataType.unsized (binaryType operator left right leftType rightType)
      (binaryType operator left right leftType.unsized rightType.unsized) := by
  unfold binaryType
  cases operator.operatorClass with
  | arithmetic | assignment | comparison =>
      exact (Shadows.requireAgreement _ _ _).bind fun _ => .pure _
  | logical =>
      exact (Shadows.requireAgreement left leftType .bool).bind fun _ =>
        (Shadows.requireAgreement right rightType .bool).bind fun _ => .pure _

theorem unaryType_shadows (operator : Operator) (operand : Expr) (type : DataType) :
    Shadows DataType.unsized (unaryType operator operand type)
      (unaryType operator operand type.unsized) := by
  unfold unaryType
  split
  · exact (Shadows.requireAgreement operand type .bool).bind fun _ => .pure _
  · exact .pure _

theorem agreements_shadow (element : DataType) (typed : List (Expr × DataType)) :
    Shadows id (typed.forM fun (value, type) => requireAgreement value type element)
      ((typed.map (Prod.map id DataType.unsized)).forM fun (value, type) =>
        requireAgreement value type element.unsized) := by
  induction typed with
  | nil => exact .pure ()
  | cons first rest ih => exact (Shadows.requireAgreement _ _ _).bind fun _ => ih

/-- The type of the elements is the declared one, or else that of the first element. -/
theorem element_unsized (declared : Option DataType) (typed : List (Expr × DataType)) :
    (declared.map DataType.unsized).getD
        (((typed.map (Prod.map id DataType.unsized)).head?.map Prod.snd).getD .unresolved) =
      (declared.getD ((typed.head?.map Prod.snd).getD .unresolved)).unsized := by
  cases declared with
  | some element => rfl
  | none => cases typed <;> rfl

theorem array_shadows (span : Span) (h : List.Forall₂ PartShadows parts shadows) :
    Shadows Typed.unsized ((exprs program lookup).array address parts span)
      ((exprs program.unsized lookup).array address shadows span) := by
  refine Shadows.takePending.bind fun declared => ?_
  rw [innerElement?_unsized]
  refine (elements_shadow _ h).bind fun typed => ?_
  rw [element_unsized]
  exact (agreements_shadow _ typed).bind fun _ => .settle _ _ _

theorem reference_shadows (name : String) (span : Span) :
    Shadows Typed.unsized ((exprs program lookup).reference address name span)
      ((exprs program.unsized lookup).reference address name span) := by
  refine Shadows.context.bind fun context => Shadows.inner.bind fun state => ?_
  have same : (lookup.find? program.unsized context.unsized state.unsized.environments name).bind
      program.unsized.decl? =
        ((lookup.find? program context state.environments name).bind program.decl?).map
          VarDecl.unsized := by
    rw [lookup.find?_unsized, Option.map_bind]
    exact congrArg _ (funext program.decl?_unsized)
  rw [same]
  cases (lookup.find? program context state.environments name).bind program.decl? with
  | none => exact .fail _ _
  | some decl =>
      exact (Shadows.note (.link address decl.id name span.start)).bind fun _ =>
        (Shadows.settle address span decl.type).bind fun typed =>
          .pure { typed with decl? := some decl.id }

theorem binary_shadows (operator : Operator) (span : Span) (h : PartShadows left left')
    (h' : PartShadows right right') :
    Shadows Typed.unsized ((exprs program lookup).binary address operator left right span)
      ((exprs program.unsized lookup).binary address operator left' right' span) := by
  simp only [exprs, h.1, h'.1]
  exact h.2.bind fun _ => h'.2.bind fun _ =>
    (binaryType_shadows _ _ _ _ _).bind fun _ => .settle _ _ _

theorem unary_shadows (operator : Operator) (span : Span) (h : PartShadows part shadow) :
    Shadows Typed.unsized ((exprs program lookup).unary address operator part span)
      ((exprs program.unsized lookup).unary address operator shadow span) := by
  simp only [exprs, h.1]
  exact h.2.bind fun _ => (unaryType_shadows _ _ _).bind fun _ => .settle _ _ _

/-- A call has the type that the function called returns. -/
theorem returned_shadows (span : Span) (callee : Name) (function? : Option Function) :
    Shadows Typed.unsized
      (match function? with
        | some function => settle address span function.signature.returnType
        | none => Visit.fail (.unknownFunction callee.text) callee.span.start)
      (match function?.map Function.unsized with
        | some function => settle address span function.signature.returnType
        | none => Visit.fail (.unknownFunction callee.text) callee.span.start) := by
  cases function? with
  | none => exact .fail _ _
  | some function => exact .settle _ _ _

theorem call_shadows (callee : Name) (span : Span) (h : List.Forall₂ PartShadows parts shadows) :
    Shadows Typed.unsized ((exprs program lookup).call address callee parts span)
      ((exprs program.unsized lookup).call address callee shadows span) := by
  refine (arguments_shadow h).bind fun _ => .ite ?_ ?_ ?_
  · rw [program.record?_unsized, Option.isSome_map]
  · exact (Shadows.note (.constructor address)).bind fun _ =>
      .settle address span (.record callee.text)
  · refine Shadows.context.bind fun context => ?_
    have same := program.callee?_unsized context.record callee.text
    simp only [Context.unsized, same]
    exact returned_shadows span callee _

theorem ownerOf?_unsized (receiver : Typed) :
    ownerOf? program.unsized receiver.unsized =
      (ownerOf? program receiver).map RecordDecl.unsized := by
  have owner (id : VarId) : ((program.unsized.decl? id).bind fun decl =>
      decl.type.recordName?.bind program.unsized.record?) =
        ((program.decl? id).bind fun decl => decl.type.recordName?.bind program.record?).map
          RecordDecl.unsized := by
    rw [program.decl?_unsized]
    cases program.decl? id with
    | none => rfl
    | some decl =>
        simp only [Option.map_some, Option.bind_some, VarDecl.unsized, DataType.recordName?_unsized]
        cases decl.type.recordName? with
        | none => rfl
        | some name => exact program.record?_unsized name
  obtain ⟨type, _ | id⟩ := receiver
  · rfl
  · exact owner id

theorem method_shadows (callee : Name) (span : Span) (h : PartShadows part shadow)
    (h' : List.Forall₂ PartShadows parts shadows) :
    Shadows Typed.unsized ((exprs program lookup).method address part callee parts span)
      ((exprs program.unsized lookup).method address shadow callee shadows span) := by
  simp only [exprs, h.1]
  refine h.2.bind fun typed => (arguments_shadow h').bind fun _ => ?_
  rw [ownerOf?_unsized]
  cases ownerOf? program typed with
  | none => exact .fail _ _
  | some record =>
      simp only [Option.map_some, program.methodOf?_unsized]
      exact returned_shadows span callee _

theorem property_shadows (member : Name) (span : Span) (h : PartShadows part shadow) :
    Shadows Typed.unsized ((exprs program lookup).property address part member span)
      ((exprs program.unsized lookup).property address shadow member span) := by
  refine h.2.bind fun typed => ?_
  rw [ownerOf?_unsized]
  cases ownerOf? program typed with
  | none => exact .fail _ _
  | some record =>
      simp only [Option.map_some, Option.bind_some, program.propertyOf?_unsized]
      cases program.propertyOf? record member.text with
      | none => exact .fail _ _
      | some decl => exact .settle _ _ _

theorem declaredElement?_unsized (decl : VarDecl) :
    declaredElement? decl.unsized = (declaredElement? decl).map DataType.unsized := by
  obtain ⟨id, name, type, init, span⟩ := decl
  cases init with
  | none => rfl
  | some init =>
      cases type with
      | array element =>
          simp only [declaredElement?, VarDecl.unsized, DataType.unsized]
          split <;> rfl
      | _ => rfl

theorem scopeOf_unsized (context : Context) : scopeOf context.unsized = scopeOf context := by
  obtain ⟨function, record, block, loop⟩ := context
  cases function <;> cases record <;> rfl

theorem varDecl_shadows (seen : Bool) (decl : VarDecl) {init init' : Check (Option Typed)}
    (h : Shadows (Option.map Typed.unsized) init init') :
    Shadows id (varDecl program seen decl init)
      (varDecl program.unsized seen decl.unsized init') := by
  obtain ⟨id, name, type, init, span⟩ := decl
  refine (Shadows.requireKnown _ _ _).bind fun _ => ?_
  rw [declaredElement?_unsized]
  refine (h.withPending _).bind fun typed? => ?_
  rcases init with _ | init <;> rcases typed? with _ | typed
  on_goal 4 => refine (Shadows.requireAgreement init typed.type type).bind fun _ => ?_
  -- With or without a first value, the scope is noted, and the name declared if it is to be seen.
  all_goals
    refine Shadows.context.bind fun context => ?_
    rw [scopeOf_unsized]
    refine (Shadows.note (.scope id (scopeOf context) name span.start)).bind fun _ => ?_
    cases seen with
    | false => exact .pure ()
    | true =>
        cases scopeOf context with
        | property => exact .pure ()
        | _ => exact .declareLocal name id

theorem parent_shadows (record : RecordDecl) :
    Shadows id (parent program record) (parent program.unsized record.unsized) := by
  unfold parent
  simp only [RecordDecl.unsized]
  split
  · exact .pure _
  · exact .ite (by rw [program.record?_unsized, Option.isNone_map]) (.fail _ _) (.pure _)

theorem function_shadows (function : Function) {visit visit' : Check Unit}
    (h : Shadows id visit visit') :
    Shadows id (Rules.function program function visit)
      (Rules.function program.unsized function.unsized visit') := by
  refine (Shadows.requireKnown _ _ _).bind fun _ => h.bind fun _ => .ite ?_ (.fail _ _) (.pure _)
  simp only [Function.unsized, Signature.unsized, DataType.isNull_unsized]

theorem returns_shadows (span : Span) (h : PartShadows part shadow) :
    Shadows id (returns part span) (returns shadow span) := by
  refine Shadows.context.bind fun context => ?_
  cases around : context.function with
  | none =>
      simp only [Context.unsized, around]
      exact .fail _ _
  | some function =>
      simp only [Context.unsized, around, Option.map_some, h.1]
      refine h.2.bind fun typed => .ite ?_ (.fail _ _) (.pure _)
      rw [← typed.type.agrees_unsized]
      rfl

theorem insideLoop_shadows (cause : ErrorCause) (span : Span) :
    Shadows id (insideLoop cause span) (insideLoop cause.unsized span) :=
  Shadows.context.bind fun _ => .ite .rfl (.fail _ _) (.pure _)

end Handlers

end Rules

end Offside
