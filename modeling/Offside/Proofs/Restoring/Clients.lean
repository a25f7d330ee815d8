import Offside.Proofs.Restoring.Checks

/-! # Every way out restores what surrounds a visit

The rules are handlers of the kind whose visits restore what surrounds them. Together with what they
do to environments and pending types, this is how a check leaves what it has entered, wherever it
breaks off.
-/

namespace Offside

namespace Rules

open Visit

section Orderly

variable {α : Type} {given : ∀ α : Type, Check α → Prop} (program : Program) (lookup : LocalLookup)

theorem note_restores (finding : Finding) : (note finding).Restores :=
  fun _ => rfl

theorem settle_restores (address : Address) (span : Span) (type : DataType) :
    (settle address span type).Restores :=
  (note_restores _).bind fun _ => .pure _

theorem fail_restores (cause : ErrorCause) (position : Position) :
    (Visit.fail cause position : Check α).Restores :=
  fun _ => rfl

theorem requireKnown_restores (type : DataType) (span : Span) :
    (requireKnown program type span).Restores := by
  unfold requireKnown
  split
  · exact .pure _
  · exact fail_restores _ _

theorem requireAgreement_restores (expr : Expr) (type expected : DataType) :
    (requireAgreement expr type expected).Restores := by
  unfold requireAgreement
  split
  · exact .pure _
  · exact fail_restores _ _

theorem declareLocal_restores (name : String) (decl : VarId) :
    (declareLocal name decl).Restores := by
  intro state
  obtain ⟨context, environments, pending, findings⟩ := state
  cases environments <;> rfl

theorem context_restores : (Visit.context : Check Context).Restores :=
  fun _ => rfl

theorem inner_restores : (Visit.inner : Check TypingState).Restores :=
  fun _ => rfl

theorem binaryType_restores (operator : Operator) (left right : Expr)
    (leftType rightType : DataType) :
    (binaryType operator left right leftType rightType).Restores := by
  unfold binaryType
  cases operator.operatorClass with
  | arithmetic | assignment | comparison =>
      exact (requireAgreement_restores _ _ _).bind fun _ => .pure _
  | logical =>
      exact (requireAgreement_restores _ _ _).bind fun _ =>
        (requireAgreement_restores _ _ _).bind fun _ => .pure _

theorem unaryType_restores (operator : Operator) (operand : Expr) (type : DataType) :
    (unaryType operator operand type).Restores := by
  unfold unaryType
  split
  · exact (requireAgreement_restores _ _ _).bind fun _ => .pure _
  · exact .pure _

theorem elements_orderly (inner : Option DataType) {parts : List (Part TypingState Typed)}
    (h : ∀ part ∈ parts, Orderly given part.visit) : Orderly given (elements inner parts) := by
  induction parts with
  | nil => exact .own (.pure _)
  | cons part rest ih =>
      rw [List.forall_mem_cons] at h
      have visited := h.1.bind fun typed => (ih h.2).bind fun typed' =>
        .own (.pure ((part.expr, typed.type) :: typed'))
      rw [elements]
      split
      · exact (Orderly.own fun _ => rfl).bind fun _ => visited
      · exact visited

theorem arguments_orderly {parts : List (Part TypingState Typed)}
    (h : ∀ part ∈ parts, Orderly given part.visit) : Orderly given (arguments parts) :=
  .forM fun part member => (h part member).discard

theorem mem_parts_given {σ ρ : Type} {parts : List (Part σ ρ)} :
    ∀ part ∈ parts, Orderly (OfParts (parts.map Part.visit)) part.visit :=
  fun _ member => .given (.listed (List.mem_map_of_mem member))

theorem exprs_orderly : (exprs program lookup).Orderly where
  expr _ _ _ := .only
  literal _ _ _ := .own (settle_restores _ _ _)
  array address values span :=
    (Orderly.own fun _ => rfl).bind fun _ => (elements_orderly _ mem_parts_given).bind fun _ =>
      (Orderly.forM fun _ _ => .own (requireAgreement_restores _ _ _)).bind fun _ =>
        .own (settle_restores _ _ _)
  reference address name span := by
    refine (Orderly.own context_restores).bind fun context =>
      (Orderly.own inner_restores).bind fun inner => ?_
    split
    · exact .own (fail_restores _ _)
    · exact .own ((note_restores _).bind fun _ => (settle_restores _ _ _).bind fun _ => .pure _)
  binary address operator left right span :=
    (Orderly.given (.listed (by simp))).bind fun _ =>
      (Orderly.given (.listed (by simp))).bind fun _ =>
        .own ((binaryType_restores _ _ _ _ _).bind fun _ => settle_restores _ _ _)
  unary address operator operand span :=
    Orderly.only.bind fun _ =>
      .own ((unaryType_restores _ _ _).bind fun _ => settle_restores _ _ _)
  call address callee args span := by
    refine (arguments_orderly mem_parts_given).bind fun _ => ?_
    split
    · exact .own ((note_restores _).bind fun _ => settle_restores _ _ _)
    · refine (Orderly.own context_restores).bind fun context => ?_
      split
      · exact .own (settle_restores _ _ _)
      · exact .own (fail_restores _ _)
  method address receiver callee args span := by
    refine (Orderly.given (.listed (by simp))).bind fun typed =>
      (arguments_orderly fun part member => .given (.listed
        (List.mem_cons_of_mem _ (List.mem_map_of_mem member)))).bind fun _ => ?_
    split
    · exact .own (fail_restores _ _)
    · split
      · exact .own (settle_restores _ _ _)
      · exact .own (fail_restores _ _)
  property address receiver member span := by
    refine Orderly.only.bind fun typed => ?_
    split
    · exact .own (settle_restores _ _ _)
    · exact .own (fail_restores _ _)

theorem withPending_orderly (element : Option DataType) {action : Check α}
    (h : Orderly given action) : Orderly given (withPending element action) :=
  .between (fun _ => rfl) (fun _ _ => rfl) h

theorem varDecl_orderly (seen : Bool) (decl : VarDecl) {init : Check (Option Typed)}
    (h : Orderly given init) : Orderly given (varDecl program seen decl init) := by
  have finished : ∀ scope, (do
      note (.scope decl.id scope decl.name decl.span.start)
      declareIn seen decl scope : Check Unit).Restores := by
    refine fun scope => (note_restores _).bind fun _ => ?_
    unfold declareIn
    split
    · exact declareLocal_restores _ _
    · exact declareLocal_restores _ _
    · exact .pure _
  refine (Orderly.own (requireKnown_restores program _ _)).bind fun _ =>
    (withPending_orderly _ h).bind fun typed? => ?_
  split
  · exact (Orderly.own (requireAgreement_restores _ _ _)).bind fun _ =>
      (Orderly.own context_restores).bind fun context => .own (finished _)
  · exact (Orderly.own context_restores).bind fun context => .own (finished _)

theorem param_restores (param : Param) : (Rules.param program lookup param).Restores := by
  refine (Restores.ofExcept _).bind fun decl => Restores.bind ?_ fun _ =>
    context_restores.bind fun context => ?_
  · exact (varDecl_orderly program false decl .only).restores_of_part
      (traverseInit_restores (exprs_orderly program lookup) decl)
  · split
    · exact .pure _
    · exact fail_restores _ _

theorem insideLoop_restores (cause : ErrorCause) (span : Span) :
    (insideLoop cause span).Restores := by
  refine context_restores.bind fun context => ?_
  split
  · exact fail_restores _ _
  · exact .pure _

/-- The rules touch what surrounds them only by going inside of something. -/
theorem rules_orderly : (rules program lookup).Orderly where
  toOrderly := exprs_orderly program lookup
  decl _ _ := .only
  varDecl decl _ := varDecl_orderly program true decl .only
  param param _ := .own (param_restores program lookup param)
  signature _ _ := .only
  function function parts := by
    refine (Orderly.own (requireKnown_restores program _ _)).bind fun _ =>
      Orderly.only.bind fun _ => ?_
    split
    · exact .own (fail_restores _ _)
    · exact .own (.pure _)
  record record members := by
    refine Orderly.bind (.own ?_) fun _ => .only
    unfold parent
    split
    · exact .pure _
    · split
      · exact fail_restores _ _
      · exact .pure _
  stmt _ _ := .only
  block _ _ := .between (fun _ => rfl) (fun _ _ => rfl) .only
  returns value span := by
    refine (Orderly.own context_restores).bind fun context => ?_
    split
    · exact .own (fail_restores _ _)
    · refine Orderly.only.bind fun typed => ?_
      split
      · exact .own (fail_restores _ _)
      · exact .own (.pure _)
  branch _ _ := .only
  forLoop _ := .between (fun _ => rfl) (fun _ _ => rfl) .only
  whileLoop _ := .only
  expression _ := Orderly.only.discard
  declare _ := .only
  breakLoop _ := .own (insideLoop_restores _ _)
  continueLoop _ := .own (insideLoop_restores _ _)

end Orderly

end Rules

/-- However it ends, every call of a traversal restores what surrounds it, if the handlers touch that
only by going inside of something. And the alarm of a watched check is never raised: blocks, loops,
functions and record types give back the environments, and no type is pending where a declaration is
visited or left. -/
theorem Program.visits_restore (program : Program) :
    (∀ {σ ρ : Type} (handlers : Handlers σ ρ), handlers.Orderly →
      ∀ {α : Type} (visit : Visit σ α), handlers.Calls program visit →
      ∀ state, (visit.run.run state).2.context = state.context) ∧
    ∀ (lookup : LocalLookup) (stop : TypingState → Option Error) (alarm : Error),
      (traverseProgram (Rules.watched program lookup stop (some alarm)) program).run.run
        { inner := {} } =
      (traverseProgram (Rules.watched program lookup stop none) program).run.run { inner := {} } :=
  ⟨fun _ orderly _ _ calls => calls.restores orderly, fun lookup stop alarm =>
    (Rules.traverseProgram_calm program lookup stop alarm { inner := {} } rfl rfl).1⟩

/-- A handle that leads nowhere ends the visit of a loop, inside of whose block it stands, and the
visit is again inside of the loop around it. -/
theorem Program.visits_restore_dangling :
    let outer := Stmt.breakLoop default
    let inner := Stmt.whileLoop (.literal (.bool true) default) ⟨[.declare ⟨0⟩ default], default⟩
      default
    let visit := traverseStmt (rules .empty .innermost) .empty (.ofRoot (.statement 0)) inner
    let state : TraversalState TypingState := { context := { loop := some outer }, inner := {} }
    (visit.run.run state).1 =
        .error ⟨.internalError "dangling declaration handle 0", Position.null⟩ ∧
      (visit.run.run state).2.context = { loop := some outer } :=
  ⟨rfl, (Program.visits_restore .empty).1 (rules .empty .innermost)
    (Rules.rules_orderly .empty .innermost) _ (.stmt _ _) _⟩

end Offside
