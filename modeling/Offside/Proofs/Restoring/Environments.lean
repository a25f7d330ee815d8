import Offside.Proofs.Restoring.Traversals
import Offside.Proofs.Restoring.Watching

/-! # Environments around expressions

Expressions leave the environments alone. The type that is pending when an array is visited is taken
there, so that none is pending behind it; it is the declaration in front of the array that sets it,
or the array around it.
-/

namespace Offside

namespace Rules

variable {α β : Type}

/-- In the end no type is pending, and of the environments at most the innermost `open` ones have
changed. -/
def Leaves (changed : Nat) (before after : TypingState) : Prop :=
  after.pendingElement = none ∧ after.environments.length = before.environments.length ∧
    after.environments.drop changed = before.environments.drop changed

/-- Started with no type pending, the first of two actions does what the second does, and both leave
all but the innermost environments as they are. -/
def Calm (changed : Nat) (loud quiet : Check α) : Prop :=
  ∀ state, state.inner.pendingElement = none → loud.run.run state = quiet.run.run state ∧
    Leaves changed state.inner (quiet.run.run state).2.inner

/-- Started with no type pending, an action leaves all but the innermost environments as they are. -/
abbrev Keeps (changed : Nat) (action : Check α) : Prop :=
  Calm changed action action

/-- Visiting an expression leaves the environments as they are and takes the type that is pending,
which there may be if the expression is an array. -/
def Settles (expr : Expr) (visit : Check α) : Prop :=
  ∀ state, state.inner.pendingElement = none ∨ expr.isArray = true →
    Leaves 0 state.inner (visit.run.run state).2.inner

variable {changed : Nat} {loud quiet : Check α}

theorem Leaves.trans {before mid after : TypingState} (h : Leaves changed before mid)
    (h' : Leaves changed mid after) : Leaves changed before after :=
  ⟨h'.1, h'.2.1.trans h.2.1, h'.2.2.trans h.2.2⟩

theorem Leaves.givesBack {before after : TypingState} (h : Leaves 0 before after) :
    givesBack before after = true :=
  decide_eq_true h.2.2

theorem Leaves.nonePending {before after : TypingState} (h : Leaves changed before after)
    (idle : before.pendingElement = none) : nonePending before after = true := by
  simp [Rules.nonePending, idle, h.1]

namespace Calm

/-- An action that does not touch the environments and leaves no type pending. -/
theorem of_kept {action : Check α} (h : ∀ state, state.inner.pendingElement = none →
    (action.run.run state).2.inner.pendingElement = none ∧
    (action.run.run state).2.inner.environments = state.inner.environments) :
    Keeps changed action := by
  intro state idle
  obtain ⟨taken, kept⟩ := h state idle
  exact ⟨rfl, taken, by rw [kept], by rw [kept]⟩

theorem pure (value : α) : Keeps changed (Pure.pure value) :=
  of_kept fun _ idle => ⟨idle, rfl⟩

theorem fail (cause : ErrorCause) (position : Position) :
    Calm changed (Visit.fail cause position : Check α) (Visit.fail cause position) :=
  of_kept fun _ idle => ⟨idle, rfl⟩

theorem throw (error : Error) : Calm changed (throw error : Check α) (MonadExcept.throw error) :=
  of_kept fun _ idle => ⟨idle, rfl⟩

theorem ofExcept (result : Except Error α) :
    Keeps changed (Visit.ofExcept result) := by
  cases result <;> exact of_kept fun _ idle => ⟨idle, rfl⟩

theorem context : Keeps changed Visit.context :=
  of_kept fun _ idle => ⟨idle, rfl⟩

theorem inner : Keeps changed Visit.inner :=
  of_kept fun _ idle => ⟨idle, rfl⟩

theorem note (finding : Finding) : Keeps changed (Rules.note finding) :=
  of_kept fun _ idle => ⟨idle, rfl⟩

theorem bind {next next' : α → Check β} (h : Calm changed loud quiet)
    (h' : ∀ value, Calm changed (next value) (next' value)) :
    Calm changed (loud >>= next) (quiet >>= next') := by
  intro state idle
  obtain ⟨same, leaves⟩ := h state idle
  rw [Action.run_bind, Action.run_bind, same]
  generalize quiet.run.run state = outcome at leaves ⊢
  match outcome, leaves with
  | (.ok value, mid), leaves =>
      obtain ⟨same', leaves'⟩ := h' value mid leaves.1
      exact ⟨same', leaves.trans leaves'⟩
  | (.error error, mid), leaves => exact ⟨rfl, leaves⟩

theorem discard (h : Calm changed loud quiet) :
    Calm changed (discard loud) (Functor.discard quiet) := by
  have run := h.bind fun _ => pure ()
  exact run

theorem ite {condition : Prop} [Decidable condition] {loud' quiet' : Check α}
    (h : Calm changed loud quiet) (h' : Calm changed loud' quiet') :
    Calm changed (if condition then loud else loud') (if condition then quiet else quiet') := by
  split
  · exact h
  · exact h'

theorem forM {items : List β} {visit visit' : β → Check PUnit}
    (h : ∀ item ∈ items, Calm changed (visit item) (visit' item)) :
    Calm changed (items.forM visit) (items.forM visit') := by
  induction items with
  | nil => exact pure _
  | cons item rest ih =>
      rw [List.forall_mem_cons] at h
      exact h.1.bind fun _ => ih h.2

/-- Fewer environments are changed than may be. -/
theorem weaken (h : Calm 0 loud quiet) : Calm changed loud quiet := by
  intro state idle
  obtain ⟨same, taken, size, kept⟩ := h state idle
  rw [List.drop_zero, List.drop_zero] at kept
  exact ⟨same, taken, size, by rw [kept]⟩

/-- What is changed around an action does not concern the rules. -/
theorem between {before : TraversalState TypingState → TraversalState TypingState}
    {after : TraversalState TypingState → TraversalState TypingState → TraversalState TypingState}
    (enters : ∀ state, (before state).inner = state.inner)
    (leaves : ∀ saved state, (after saved state).inner = state.inner)
    (h : Calm changed loud quiet) :
    Calm changed (Visit.between before after loud) (Visit.between before after quiet) := by
  intro state idle
  obtain ⟨same, left⟩ := h (before state) (by rw [enters, idle])
  rw [Visit.run_between, Visit.run_between, same]
  refine ⟨rfl, ?_⟩
  rw [leaves, ← enters state]
  exact left

/-- The environment that is new on top is dropped again. -/
theorem inNewEnvironment (h : Calm 1 loud quiet) :
    Calm 0 (Rules.inNewEnvironment loud) (Rules.inNewEnvironment quiet) := by
  intro state idle
  obtain ⟨same, taken, size, kept⟩ := h
    { state with
      inner := { state.inner with environments := {} :: state.inner.environments } } idle
  rw [Rules.inNewEnvironment, Visit.run_between, Visit.run_between, same]
  refine ⟨rfl, taken, ?_, ?_⟩
  · simpa using congrArg Nat.pred size
  · simpa using kept

theorem stopped (stop : TypingState → Option Error) (value : α) :
    Keeps changed (Rules.interrupted stop (Pure.pure value)) := by
  refine (pure value).bind fun value => inner.bind fun state => ?_
  cases stop state with
  | none => exact pure value
  | some error => exact throw error

/-- An action may break off behind its end. -/
theorem interrupted (stop : TypingState → Option Error) (h : Calm changed loud quiet) :
    Calm changed (Rules.interrupted stop loud) (Rules.interrupted stop quiet) :=
  h.bind fun value => stopped stop value

/-- The alarm is not raised where what it watches for does not happen. -/
theorem alarmed {right : TypingState → TypingState → Bool} (alarm : Error)
    (h : Calm changed loud quiet) (calm : ∀ {before after : TypingState},
      before.pendingElement = none → Leaves changed before after → right before after = true) :
    Calm changed (Rules.alarmed (some alarm) right loud) (Rules.alarmed none right quiet) := by
  intro state idle
  obtain ⟨same, leaves⟩ := h state idle
  exact ⟨run_alarmed same (calm idle leaves), leaves⟩

end Calm

section Exprs

variable {program : Program} {lookup : LocalLookup} {stop : TypingState → Option Error}

namespace Settles

variable {expr : Expr} {visit : Check α}

theorem calm (h : Settles expr visit) : Keeps changed visit :=
  Calm.weaken fun state idle => ⟨rfl, h state (.inl idle)⟩

/-- No type is pending when an expression is visited that is not an array. -/
theorem of_calm (h : Keeps 0 visit) (other : expr.isArray = false) : Settles expr visit := by
  intro state idle
  rw [other] at idle
  exact (h state (idle.resolve_right Bool.false_ne_true)).2

theorem bind {next : α → Check β} (h : Settles expr visit)
    (h' : ∀ value, Keeps 0 (next value)) : Settles expr (visit >>= next) := by
  intro state idle
  have leaves := h state idle
  rw [Action.run_bind]
  generalize visit.run.run state = outcome at leaves ⊢
  match outcome, leaves with
  | (.ok value, mid), leaves => exact leaves.trans (h' value mid leaves.1).2
  | (.error error, mid), leaves => exact leaves

theorem interrupted (stop : TypingState → Option Error) (h : Settles expr visit) :
    Settles expr (Rules.interrupted stop visit) :=
  h.bind fun value => Calm.stopped stop value

end Settles

theorem settle_calm (address : Address) (span : Span) (type : DataType) :
    Keeps changed (settle address span type) :=
  (Calm.note _).bind fun _ => .pure _

theorem requireKnown_calm (type : DataType) (span : Span) :
    Keeps changed (requireKnown program type span) :=
  .ite (.pure ()) (.fail _ _)

theorem requireAgreement_calm (expr : Expr) (type expected : DataType) :
    Keeps changed (requireAgreement expr type expected) :=
  .ite (.pure ()) (.fail _ _)

/-- The elements of an array are visited in turn, each with its own pending type. -/
theorem elements_calm (inner : Option DataType) {parts : List (Part TypingState Typed)}
    (h : ∀ part ∈ parts, Settles part.expr part.visit) :
    Keeps 0 (elements inner parts) := by
  induction parts with
  | nil => exact .pure _
  | cons part rest ih =>
      rw [List.forall_mem_cons] at h
      obtain ⟨first, others⟩ := h
      have next := fun typed : Typed => (ih others).bind fun typed' =>
        Calm.pure ((part.expr, typed.type) :: typed')
      cases array : part.expr.isArray with
      | false =>
          simp only [elements, array, Bool.false_eq_true, if_false]
          exact first.calm.bind next
      | true =>
          simp only [elements, array, if_true]
          -- The element takes the type that is set for it.
          have pending : Keeps 0 (setPending inner >>= fun _ => part.visit) :=
            fun state _ => ⟨rfl, first
              { state with inner := { state.inner with pendingElement := inner } } (.inr array)⟩
          have both := pending.bind next
          rwa [bind_assoc] at both

theorem arguments_calm {parts : List (Part TypingState Typed)}
    (h : ∀ part ∈ parts, Settles part.expr part.visit) :
    Keeps 0 (arguments parts) :=
  .forM fun part member => (h part member).calm.discard

theorem binaryType_calm (operator : Operator) (left right : Expr) (leftType rightType : DataType) :
    Keeps changed (binaryType operator left right leftType rightType) := by
  unfold binaryType
  cases operator.operatorClass with
  | arithmetic | assignment => exact (requireAgreement_calm _ _ _).bind fun _ => .pure _
  | comparison => exact (requireAgreement_calm _ _ _).bind fun _ => .pure _
  | logical =>
      exact (requireAgreement_calm _ _ _).bind fun _ =>
        (requireAgreement_calm _ _ _).bind fun _ => .pure _

theorem unaryType_calm (operator : Operator) (operand : Expr) (type : DataType) :
    Keeps changed (unaryType operator operand type) := by
  unfold unaryType
  split
  · exact (requireAgreement_calm _ _ _).bind fun _ => .pure _
  · exact .pure _

/-- What is done with the parts of an expression leaves the environments as they are. -/
theorem visitSort_settles {address : Address} {expr : Expr}
    (parts : ∀ part ∈ partsOf (watchedExprs program lookup stop) address expr,
      Settles part.expr part.visit) :
    Settles expr (visitSort (watchedExprs program lookup stop) address expr) := by
  cases expr with
  | literal value span => exact .of_calm (settle_calm _ _ _) rfl
  | array values span =>
      have rest (declared : Option DataType) : Keeps 0 (do
          let typed ← elements (innerElement? declared)
            (elementParts (watchedExprs program lookup stop) address 0 values)
          let element := declared.getD ((typed.head?.map Prod.snd).getD .unresolved)
          typed.forM fun pair => requireAgreement pair.1 pair.2 element
          settle address span (.array element)) :=
        (elements_calm _ parts).bind fun _ =>
          (Calm.forM fun _ _ => requireAgreement_calm _ _ _).bind fun _ => settle_calm _ _ _
      intro state _
      exact (rest state.inner.pendingElement
        { state with inner := { state.inner with pendingElement := none } } rfl).2
  | reference name span =>
      refine .of_calm (Calm.context.bind fun context => Calm.inner.bind fun inner => ?_) rfl
      split
      · exact .fail _ _
      · exact (Calm.note _).bind fun _ => (settle_calm _ _ _).bind fun _ => .pure _
  | binary operator left right span =>
      simp only [partsOf, List.forall_mem_cons] at parts
      exact .of_calm (parts.1.calm.bind fun _ => parts.2.1.calm.bind fun _ =>
        (binaryType_calm _ _ _ _ _).bind fun _ => settle_calm _ _ _) rfl
  | unary operator operand span =>
      simp only [partsOf, List.forall_mem_cons] at parts
      exact .of_calm (parts.1.calm.bind fun _ =>
        (unaryType_calm _ _ _).bind fun _ => settle_calm _ _ _) rfl
  | call callee args span =>
      refine .of_calm ((arguments_calm parts).bind fun _ => ?_) rfl
      split
      · exact (Calm.note _).bind fun _ => settle_calm _ _ _
      · refine Calm.context.bind fun context => ?_
        split
        · exact settle_calm _ _ _
        · exact .fail _ _
  | method receiver callee args span =>
      simp only [partsOf, List.forall_mem_cons] at parts
      refine .of_calm (parts.1.calm.bind fun typed => (arguments_calm parts.2).bind fun _ => ?_) rfl
      split
      · exact .fail _ _
      · split
        · exact settle_calm _ _ _
        · exact .fail _ _
  | property receiver member span =>
      simp only [partsOf, List.forall_mem_cons] at parts
      refine .of_calm (parts.1.calm.bind fun typed => ?_) rfl
      split
      · exact settle_calm _ _ _
      · exact .fail _ _

theorem traverseExpr_settles_of_parts {address : Address} {expr : Expr}
    (parts : ∀ part ∈ partsOf (watchedExprs program lookup stop) address expr,
      Settles part.expr part.visit) :
    Settles expr (traverseExpr (watchedExprs program lookup stop) address expr) := by
  rw [traverseExpr_eq]
  exact (visitSort_settles parts).interrupted stop

mutual

/-- The parts of an expression leave the environments as they are. -/
theorem partsOf_settle (address : Address) : (expr : Expr) →
    ∀ part ∈ partsOf (watchedExprs program lookup stop) address expr, Settles part.expr part.visit
  | .literal .. | .reference .. => List.forall_mem_nil _
  | .array values _ => elementParts_settle address 0 values
  | .binary _ left right _ => List.forall_mem_cons.2
    ⟨traverseExpr_settles_of_parts (partsOf_settle _ left),
      List.forall_mem_singleton.2 (traverseExpr_settles_of_parts (partsOf_settle _ right))⟩
  | .unary _ operand _ => List.forall_mem_singleton.2
    (traverseExpr_settles_of_parts (partsOf_settle _ operand))
  | .call _ args _ => argumentParts_settle address 0 args
  | .method receiver _ args _ => List.forall_mem_cons.2
    ⟨traverseExpr_settles_of_parts (partsOf_settle _ receiver),
      argumentParts_settle address 0 args⟩
  | .property receiver _ _ => List.forall_mem_singleton.2
    (traverseExpr_settles_of_parts (partsOf_settle _ receiver))

theorem elementParts_settle (address : Address) (index : Nat) : (values : List Expr) →
    ∀ part ∈ elementParts (watchedExprs program lookup stop) address index values,
      Settles part.expr part.visit
  | [] => List.forall_mem_nil _
  | value :: rest => List.forall_mem_cons.2
    ⟨traverseExpr_settles_of_parts (partsOf_settle _ value),
      elementParts_settle address (index + 1) rest⟩

theorem argumentParts_settle (address : Address) (index : Nat) : (args : List Arg) →
    ∀ part ∈ argumentParts (watchedExprs program lookup stop) address index args,
      Settles part.expr part.visit
  | [] => List.forall_mem_nil _
  | ⟨_, value⟩ :: rest => List.forall_mem_cons.2
    ⟨traverseExpr_settles_of_parts (partsOf_settle _ value),
      argumentParts_settle address (index + 1) rest⟩

end

/-- Visiting an expression leaves the environments as they are. -/
theorem traverseExpr_settles (address : Address) (expr : Expr) :
    Settles expr (traverseExpr (watchedExprs program lookup stop) address expr) :=
  traverseExpr_settles_of_parts (partsOf_settle address expr)

theorem traverseExpr_calm (address : Address) (expr : Expr) :
    Keeps changed (traverseExpr (watchedExprs program lookup stop) address expr) :=
  (traverseExpr_settles address expr).calm

/-- What is pending is forgotten behind a visit that leaves the environments as they are. -/
theorem withPending_calm {element : Option DataType} {visit : Check α}
    (h : ∀ state, state.inner.pendingElement = element →
      (visit.run.run state).2.inner.environments = state.inner.environments) :
    Keeps 0 (withPending element visit) :=
  .of_kept fun state _ => ⟨rfl, h
    { state with inner := { state.inner with pendingElement := element } } rfl⟩

/-- The first value of a variable takes the type that its declaration gives to its elements. -/
theorem traverseInit_calm (decl : VarDecl) :
    Calm 0
      (withPending (declaredElement? decl) (traverseInit (watchedExprs program lookup stop) decl))
      (withPending (declaredElement? decl)
        (traverseInit (watchedExprs program lookup stop) decl)) := by
  refine withPending_calm fun state pending => ?_
  unfold traverseInit
  cases init : decl.init with
  | none => rfl
  | some value =>
      have settles : Settles value
          (traverseExpr (watchedExprs program lookup stop) (.ofRoot (.initializer decl.id)) value >>=
            fun typed => pure (some typed)) :=
        (traverseExpr_settles (.ofRoot (.initializer decl.id)) value).bind fun typed =>
          .pure (some typed)
      refine (settles state ?_).2.2
      rw [pending, declaredElement?, init]
      cases decl.type with
      | array element => cases array : value.isArray <;> simp [array]
      | _ => exact .inl rfl

/-- Checking a declaration that is not to be seen by name leaves the environments as they are. -/
theorem varDecl_calm (decl : VarDecl) :
    Keeps 0 (varDecl program false decl
      (traverseInit (watchedExprs program lookup stop) decl)) := by
  refine (requireKnown_calm _ _).bind fun _ => (traverseInit_calm decl).bind fun typed? => ?_
  split
  · exact (requireAgreement_calm _ _ _).bind fun _ => Calm.context.bind fun _ =>
      (Calm.note _).bind fun _ => .pure _
  · exact Calm.context.bind fun _ => (Calm.note _).bind fun _ => .pure _

end Exprs

end Rules

end Offside
