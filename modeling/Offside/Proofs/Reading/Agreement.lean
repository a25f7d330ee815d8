import Offside.Grammar.Program
import Offside.Proofs.Outcome

/-! # Readings that agree

Two readings go on side by side from states that are related. If the relation shows the same token
ahead on both sides and is kept by each single step, then both readings do the same, unless one of
them gives up because it has used up its budget. Their budgets need not be the same.
-/

namespace Offside

open Parse ParseState

/-- A relation between the states of two readings that shows the same on both sides and is kept by
each step of reading. -/
class Mirrors (R : ParseState → ParseState → Prop) : Prop where
  current : ∀ {state state'}, R state state' → state.current = state'.current
  column : ∀ {state state'}, R state state' → state.column = state'.column
  startsDeclaration : ∀ {state state'}, R state state' →
    state.startsDeclaration = state'.startsDeclaration
  indent : ∀ {state state'}, R state state' → state.indent = state'.indent
  lastEnd : ∀ {state state'}, R state state' → state.lastEnd = state'.lastEnd
  program : ∀ {state state'}, R state state' → state.program = state'.program
  nextId : ∀ {state state'}, R state state' → state.nextId = state'.nextId
  grammar : ∀ {state state'}, R state state' → state.grammar = state'.grammar
  pass : ∀ {state state'}, R state state' → R state.pass state'.pass
  passBlanks : ∀ {state state'}, R state state' → R state.passBlanks state'.passBlanks
  passBlankLines : ∀ {state state'}, R state state' → R state.passBlankLines state'.passBlankLines
  deeper : ∀ {state state'}, R state state' → R state.deeper state'.deeper
  shallower : ∀ {state state'}, R state state' → R state.shallower state'.shallower
  withProgram : ∀ {state state'}, R state state' → ∀ program,
    R { state with program } { state' with program }
  withNextId : ∀ {state state'}, R state state' → ∀ nextId,
    R { state with nextId } { state' with nextId }

instance : Mirrors Eq := by
  constructor <;> rintro state _ rfl <;> first | rfl | exact fun _ => rfl

/-- From a state, an action fails with an internal error. -/
def GivesUp {α : Type} (action : ParseM α) (state : ParseState) : Prop :=
  ∃ error after, action.run.run state = (.error error, after) ∧ error.cause.category = .internal

/-- From related states, two actions return the same or fail alike and leave related states, unless
one of them gives up. -/
def Agree (R : ParseState → ParseState → Prop) {α : Type} (action action' : ParseM α) : Prop :=
  ∀ state state', R state state' →
    ((action.run.run state).1 = (action'.run.run state').1 ∧
        R (action.run.run state).2 (action'.run.run state').2) ∨
      GivesUp action state ∨ GivesUp action' state'

section Agreement

variable {R : ParseState → ParseState → Prop} {α β : Type} {action action' other other' : ParseM α}
  {state state' : ParseState}

theorem Mirrors.kind [Mirrors R] (h : R state state') : state.kind = state'.kind :=
  congrArg Token.kind (Mirrors.current h)

theorem Mirrors.position [Mirrors R] (h : R state state') : state.position = state'.position :=
  congrArg (fun token => token.span.start) (Mirrors.current h)

namespace Agree

theorem bind {next next' : α → ParseM β} (h : Agree R action action')
    (hnext : ∀ value, Agree R (next value) (next' value)) :
    Agree R (action >>= next) (action' >>= next') := by
  have givesUp : ∀ {action : ParseM α} {next : α → ParseM β} {state},
      GivesUp action state → GivesUp (action >>= next) state := by
    rintro action next state ⟨error, after, run, internal⟩
    refine ⟨error, after, ?_, internal⟩
    rw [Action.run_bind, run]
  intro state state' related
  rcases h state state' related with ⟨same, kept⟩ | left | right
  · cases run : action.run.run state with
    | mk result mid =>
    cases run' : action'.run.run state' with
    | mk result' mid' =>
        rw [run, run'] at same kept
        subst same
        cases result with
        | error error =>
            left
            rw [Action.run_bind, Action.run_bind, run, run']
            exact ⟨rfl, kept⟩
        | ok value =>
            have follows : ∀ {action : ParseM α} {next : α → ParseM β} {state mid : ParseState},
                action.run.run state = (.ok value, mid) →
                (action >>= next).run.run state = (next value).run.run mid := by
              intro action next state mid run
              rw [Action.run_bind, run]
            unfold GivesUp
            rw [follows run, follows run']
            exact hnext value mid mid' kept
  · exact .inr (.inl (givesUp left))
  · exact .inr (.inr (givesUp right))

/-- An action that does one step agrees with itself if the step shows the same on both sides. -/
theorem of_step {result : ParseState → Except Error α} {next : ParseState → ParseState}
    (run : ∀ state, action.run.run state = (result state, next state))
    (same : ∀ {state state'}, R state state' → result state = result state')
    (kept : ∀ {state state'}, R state state' → R (next state) (next state')) :
    Agree R action action := by
  intro state state' related
  rw [run, run]
  exact .inl ⟨same related, kept related⟩

theorem pure {value : α} : Agree R (Pure.pure value) (Pure.pure value) :=
  of_step (show ∀ state, (Pure.pure value : ParseM α).run.run state = (.ok value, id state) from
    fun _ => rfl) (fun _ => rfl) id

theorem throw {error : Error} :
    Agree R (MonadExcept.throw error : ParseM α) (MonadExcept.throw error) :=
  of_step (show ∀ state, (MonadExcept.throw error : ParseM α).run.run state =
    (.error error, id state) from fun _ => rfl) (fun _ => rfl) id

theorem fail {cause : ErrorCause} {position : Position} :
    Agree R (Parse.fail cause position : ParseM α) (Parse.fail cause position) :=
  throw

theorem discard (h : Agree R action action') :
    Agree R (Functor.discard action) (Functor.discard action') := by
  change Agree R (action >>= fun _ => Pure.pure ()) (action' >>= fun _ => Pure.pure ())
  exact h.bind fun _ => pure

theorem ite {test : Prop} [Decidable test] (yes : Agree R action action')
    (no : Agree R other other') :
    Agree R (if test then action else other) (if test then action' else other') := by
  split
  · exact yes
  · exact no

/-- What is done next may depend on the state, where it shows the same on both sides. -/
theorem get_bind {next next' : ParseState → ParseM β}
    (h : ∀ state state', R state state' → Agree R (next state) (next' state')) :
    Agree R (get >>= next) (get >>= next') :=
  fun state state' related => h state state' related state state' related

/-- Two budgets need not be the same. -/
theorem budget_bind {next next' : Nat → ParseM β}
    (h : ∀ times times', Agree R (next times) (next' times')) :
    Agree R (budget >>= next) (budget >>= next') :=
  fun state state' related => h _ _ state state' related

theorem exhausted_left : Agree R (exhausted : ParseM α) action :=
  fun _ _ _ => .inr (.inl ⟨_, _, rfl, rfl⟩)

theorem exhausted_right : Agree R action (exhausted : ParseM α) :=
  fun _ _ _ => .inr (.inr ⟨_, _, rfl, rfl⟩)

end Agree

end Agreement

section Steps

variable {R : ParseState → ParseState → Prop} [Mirrors R] {α β : Type} {action action' : ParseM α}

theorem Agree.kind_bind {next next' : TokenKind → ParseM β}
    (h : ∀ kind, Agree R (next kind) (next' kind)) :
    Agree R (Parse.kind >>= next) (Parse.kind >>= next') := by
  refine .get_bind fun state state' related => ?_
  rw [Mirrors.kind related]
  exact h _

theorem Agree.spanSince_bind {start : Position} {next next' : Span → ParseM β}
    (h : ∀ span, Agree R (next span) (next' span)) :
    Agree R (Parse.spanSince start >>= next) (Parse.spanSince start >>= next') := by
  refine .get_bind fun state state' related => ?_
  rw [ParseState.spanSince, ParseState.spanSince, Mirrors.lastEnd related]
  exact h _

theorem Agree.indented (h : Agree R action action') :
    Agree R (Parse.indented action) (Parse.indented action') := by
  intro state state' related
  unfold GivesUp
  rw [run_indented, run_indented]
  rcases h _ _ (Mirrors.deeper related) with ⟨same, kept⟩ | ⟨error, after, run, internal⟩ |
    ⟨error, after, run, internal⟩
  · exact .inl ⟨same, Mirrors.shallower kept⟩
  · exact .inr (.inl ⟨error, after.shallower, by rw [run], internal⟩)
  · exact .inr (.inr ⟨error, after.shallower, by rw [run], internal⟩)

theorem failHere_agree {cause : String → ErrorCause} :
    Agree R (failHere cause : ParseM α) (failHere cause) := by
  refine .get_bind fun state state' related => ?_
  rw [Mirrors.current related, Mirrors.position related]
  exact .fail

theorem pass_agree : Agree R Parse.pass Parse.pass :=
  .of_step (fun _ => rfl) (fun related => congrArg Except.ok (Mirrors.current related))
    Mirrors.pass

theorem passBlanks_agree : Agree R Parse.passBlanks Parse.passBlanks :=
  .of_step (fun _ => rfl) (fun _ => rfl) Mirrors.passBlanks

theorem passBlankLines_agree :
    Agree R (modify ParseState.passBlankLines) (modify ParseState.passBlankLines) :=
  .of_step (fun _ => rfl) (fun _ => rfl) Mirrors.passBlankLines

theorem take_agree : Agree R take take :=
  pass_agree.bind fun _ => passBlanks_agree.bind fun _ => .pure

theorem expect_agree {expected : TokenKind} : Agree R (expect expected) (expect expected) :=
  .kind_bind fun _ => .ite take_agree failHere_agree

theorem expectName_agree {complaint : String} :
    Agree R (expectName complaint) (expectName complaint) :=
  .kind_bind fun _ => .ite take_agree failHere_agree

theorem lineEnd_agree : Agree R lineEnd lineEnd := by
  refine passBlanks_agree.bind fun _ => .kind_bind fun kind => ?_
  split
  · exact pass_agree.discard
  · exact .pure
  · exact failHere_agree

theorem blockStart_agree : Agree R blockStart blockStart :=
  expect_agree.discard.bind fun _ => lineEnd_agree

theorem moreLines_agree : Agree R moreLines moreLines := by
  refine passBlankLines_agree.bind fun _ => .get_bind fun state state' related => ?_
  rw [Mirrors.kind related, Mirrors.column related, Mirrors.indent related,
    Mirrors.position (Mirrors.passBlanks related)]
  exact .ite .pure (.ite (passBlanks_agree.bind fun _ => .pure) (.ite .pure .fail))

theorem atWord_agree {column : Nat} {word : TokenKind} :
    Agree R (atWord column word) (atWord column word) := by
  refine .get_bind fun state state' related => ?_
  rw [Mirrors.column related, Mirrors.kind (Mirrors.passBlanks related)]
  exact .ite (passBlanks_agree.bind fun _ => .pure) .pure

theorem freshId_agree : Agree R freshId freshId :=
  .of_step (fun _ => rfl) (fun related => congrArg Except.ok (Mirrors.nextId related))
    fun related => by
      rw [Mirrors.nextId related]
      exact Mirrors.withNextId related _

theorem declareVar_agree {name : String} {type : DataType} {init : Option Expr} {span : Span} :
    Agree R (declareVar name type init span) (declareVar name type init span) :=
  .of_step (fun _ => rfl)
    (fun related => congrArg (fun program => Except.ok program.nextDecl) (Mirrors.program related))
    fun related => by
      rw [Mirrors.program related]
      exact Mirrors.withProgram related _

theorem register_agree {add : Program → Except Error Program} :
    Agree R (register add) (register add) := by
  refine .get_bind fun state state' related => ?_
  rw [Mirrors.program related]
  cases add state'.program with
  | ok program =>
      intro before before' _
      exact .inl ⟨rfl, Mirrors.withProgram related program⟩
  | error error => exact .throw

end Steps

section Repetition

variable {R : ParseState → ParseState → Prop} [Mirrors R] {α : Type} {item item' : ParseM α}

omit [Mirrors R] in
theorem collectWithin_agree {item item' : ParseM (Option α)} (h : Agree R item item')
    (times times' : Nat) : Agree R (collectWithin item times) (collectWithin item' times') := by
  induction times generalizing times' with
  | zero => exact .exhausted_left
  | succ times ih =>
      cases times' with
      | zero => exact .exhausted_right
      | succ times' =>
          refine .bind h fun item? => ?_
          cases item? with
          | none => exact .pure
          | some first => exact (ih times').bind fun others => .pure

omit [Mirrors R] in
theorem collect_agree {item item' : ParseM (Option α)} (h : Agree R item item') :
    Agree R (collect item) (collect item') :=
  .budget_bind (collectWithin_agree h)

omit [Mirrors R] in
theorem iterateWithin_agree {step step' : α → ParseM (Option α)}
    (h : ∀ value, Agree R (step value) (step' value)) (times times' : Nat) (value : α) :
    Agree R (iterateWithin step times value) (iterateWithin step' times' value) := by
  induction times generalizing times' value with
  | zero => exact .exhausted_left
  | succ times ih =>
      cases times' with
      | zero => exact .exhausted_right
      | succ times' =>
          refine .bind (h value) fun next? => ?_
          cases next? with
          | none => exact .pure
          | some next => exact ih times' next

theorem commaSeparated_agree {close : TokenKind} (h : Agree R item item') :
    Agree R (commaSeparated close item) (commaSeparated close item') := by
  refine .kind_bind fun kind => .ite .pure (h.bind fun first => ?_)
  refine (collect_agree ?_).bind fun others => .pure
  refine .kind_bind fun kind => .ite ?_ .pure
  exact take_agree.discard.bind fun _ => h.bind fun item => .pure

theorem lines_agree (h : Agree R item item') : Agree R (lines item) (lines item') :=
  collect_agree (moreLines_agree.bind fun _ => .ite (h.bind fun _ => .pure) .pure)

end Repetition

section Types

variable {R : ParseState → ParseState → Prop} [Mirrors R]

theorem countOf_agree {repeated : TokenKind} : Agree R (countOf repeated) (countOf repeated) :=
  (collect_agree (.kind_bind fun _ => .ite (take_agree.bind fun _ => .pure) .pure)).bind
    fun _ => .pure

theorem typeName_agree : Agree R typeName typeName := by
  refine .kind_bind fun kind => ?_
  split
  · exact take_agree.bind fun _ => .pure
  · exact take_agree.bind fun _ => .pure
  · exact failHere_agree

theorem typeSpec_agree : Agree R typeSpec typeSpec := by
  refine .get_bind fun state state' related => ?_
  rw [Mirrors.position related]
  refine countOf_agree.bind fun opened => typeName_agree.bind fun element =>
    countOf_agree.bind fun closed => .ite .pure (.get_bind fun mid mid' related => ?_)
  rw [Mirrors.current related]
  exact .fail

end Types

section Operands

variable {R : ParseState → ParseState → Prop} [Mirrors R]
  {expr expr' operand operand' : ParseM Expr}

theorem primary_agree : Agree R primary primary := by
  refine take_agree.bind fun token => ?_
  split
  · split
    · exact .pure
    · exact .fail
  · split
    · exact .pure
    · exact .fail
  · exact .pure
  · exact .pure
  · exact .pure
  · exact .pure
  · exact .fail

theorem arguments_agree (h : Agree R expr expr') : Agree R (arguments expr) (arguments expr') := by
  refine expect_agree.discard.bind fun _ => (commaSeparated_agree ?_).bind fun args =>
    expect_agree.discard.bind fun _ => .pure
  exact expect_agree.bind fun label => expect_agree.discard.bind fun _ => h.bind fun value => .pure

theorem symbol_agree (h : Agree R expr expr') : Agree R (symbol expr) (symbol expr') :=
  take_agree.bind fun _ => .kind_bind fun _ =>
    .ite ((arguments_agree h).bind fun _ => .spanSince_bind fun _ => .pure) .pure

theorem grouping_agree (h : Agree R expr expr') : Agree R (grouping expr) (grouping expr') :=
  take_agree.discard.bind fun _ => h.bind fun _ => expect_agree.discard.bind fun _ => .pure

theorem array_agree (h : Agree R expr expr') : Agree R (array expr) (array expr') :=
  take_agree.bind fun _ => (commaSeparated_agree h).bind fun _ =>
    expect_agree.discard.bind fun _ => .spanSince_bind fun _ => .pure

theorem signed_agree (h : Agree R operand operand') :
    Agree R (signed operand) (signed operand') := by
  refine take_agree.bind fun sign => ?_
  split
  · refine .ite (.kind_bind fun kind => .ite (take_agree.bind fun digits => ?_) ?_) .fail
    · split
      · exact .pure
      · exact .fail
    · exact h.bind fun inner => .pure
  · exact .fail

theorem member_agree (h : Agree R expr expr') (receiver : Expr) :
    Agree R (member expr receiver) (member expr' receiver) := by
  refine .kind_bind fun kind => .ite (take_agree.discard.bind fun _ => ?_) .pure
  refine expectName_agree.bind fun name => .kind_bind fun kind => ?_
  exact .ite ((arguments_agree h).bind fun args => .spanSince_bind fun _ => .pure)
    (.spanSince_bind fun _ => .pure)

theorem operandForm_agree (hexpr : Agree R expr expr') (hoperand : Agree R operand operand')
    (form : OperandForm) :
    Agree R (operandForm expr operand form) (operandForm expr' operand' form) := by
  cases form with
  | primary => exact primary_agree
  | symbol => exact symbol_agree hexpr
  | grouping => exact grouping_agree hexpr
  | array => exact array_agree hexpr
  | signed => exact signed_agree hoperand

theorem operandWith_agree (hexpr : Agree R expr expr') (hoperand : Agree R operand operand') :
    Agree R (operandWith expr operand) (operandWith expr' operand') := by
  refine .get_bind fun state state' related => ?_
  rw [Mirrors.grammar related, Mirrors.kind related]
  split
  · exact failHere_agree
  · next form _ =>
    exact (operandForm_agree hexpr hoperand form).bind fun first =>
      .budget_bind fun times times' => iterateWithin_agree (member_agree hexpr) times times' first

theorem binaryWith_agree (hoperand : Agree R operand operand')
    {climb climb' : Nat → Expr → ParseM Expr}
    (hclimb : ∀ least left, Agree R (climb least left) (climb' least left)) (left : Expr)
    (precedence : Precedence) :
    Agree R (binaryWith operand climb left precedence)
      (binaryWith operand' climb' left precedence) := by
  refine take_agree.bind fun token => ?_
  split
  · refine hoperand.bind fun first => .get_bind fun state state' related => ?_
    rw [Mirrors.grammar related, Mirrors.kind related]
    exact .ite ((hclimb _ _).bind fun right => .pure) .pure
  · exact .fail

theorem climbWithin_agree (h : Agree R operand operand') (times times' least : Nat) (left : Expr) :
    Agree R (climbWithin operand times least left) (climbWithin operand' times' least left) := by
  induction times generalizing times' least left with
  | zero => exact .exhausted_left
  | succ times ih =>
      cases times' with
      | zero => exact .exhausted_right
      | succ times' =>
          refine .get_bind fun state state' related => ?_
          rw [Mirrors.grammar related, Mirrors.kind related]
          split
          · exact .pure
          · next precedence _ =>
            exact .ite .pure ((binaryWith_agree h (ih times') left precedence).bind fun next =>
              ih times' least next)

theorem exprWith_agree (h : Agree R operand operand') (least : Nat) :
    Agree R (exprWith operand least) (exprWith operand' least) :=
  h.bind fun first => .budget_bind fun times times' => climbWithin_agree h times times' least first

/-- Readers of operands that are given different numbers of levels agree unless one gives up. -/
theorem operandWithin_agree (levels levels' : Nat) :
    Agree R (operandWithin levels) (operandWithin levels') := by
  induction levels generalizing levels' with
  | zero => exact .exhausted_left
  | succ levels ih =>
      cases levels' with
      | zero => exact .exhausted_right
      | succ levels' => exact operandWith_agree (exprWith_agree (ih levels') _) (ih levels')

theorem operand_agree : Agree R Parse.operand Parse.operand :=
  .budget_bind operandWithin_agree

theorem exprFrom_agree (precedence : Precedence) :
    Agree R (exprFrom precedence) (exprFrom precedence) :=
  exprWith_agree operand_agree precedence.level

theorem expr_agree : Agree R Parse.expr Parse.expr :=
  exprFrom_agree .default

end Operands

section Statements

variable {R : ParseState → ParseState → Prop} [Mirrors R] {block block' : ParseM Block}
  {line line' : ParseM Stmt}

theorem varDecl_agree : Agree R varDecl varDecl := by
  refine expectName_agree.bind fun name => expect_agree.discard.bind fun _ =>
    typeSpec_agree.bind fun type => .kind_bind fun kind => ?_
  have declared (init : Option Expr) : Agree R
      (do declareVar name.value type init (← Parse.spanSince name.span.start))
      (do declareVar name.value type init (← Parse.spanSince name.span.start)) :=
    .spanSince_bind fun span => declareVar_agree
  exact .ite (take_agree.discard.bind fun _ => expr_agree.bind fun value => declared value)
    (declared none)

theorem blockWith_agree (h : Agree R line line') : Agree R (blockWith line) (blockWith line') := by
  refine (lines_agree h).indented.bind fun body => ?_
  split
  · exact .pure
  · exact failHere_agree

theorem guarded_agree (h : Agree R block block') : Agree R (guarded block) (guarded block') :=
  expr_agree.bind fun _ => blockStart_agree.bind fun _ => h.bind fun _ => .pure

theorem branching_agree (h : Agree R block block') :
    Agree R (branching block) (branching block') := by
  refine .get_bind fun state state' related => ?_
  rw [Mirrors.indent related]
  refine take_agree.bind fun word => (guarded_agree h).bind fun first =>
    (collect_agree ?_).bind fun others => atWord_agree.bind fun found => .ite ?_ ?_
  · exact passBlankLines_agree.bind fun _ => atWord_agree.bind fun found =>
      .ite (take_agree.discard.bind fun _ => (guarded_agree h).bind fun _ => .pure) .pure
  · exact take_agree.discard.bind fun _ => blockStart_agree.bind fun _ => h.bind fun _ =>
      .spanSince_bind fun _ => .pure
  · exact .spanSince_bind fun _ => .pure

theorem forLoop_agree (h : Agree R block block') : Agree R (forLoop block) (forLoop block') :=
  take_agree.bind fun _ => varDecl_agree.bind fun _ => expect_agree.discard.bind fun _ =>
    expr_agree.bind fun _ => expect_agree.discard.bind fun _ => expr_agree.bind fun _ =>
      blockStart_agree.bind fun _ => h.bind fun _ => .spanSince_bind fun _ => .pure

theorem whileLoop_agree (h : Agree R block block') : Agree R (whileLoop block) (whileLoop block') :=
  take_agree.bind fun _ => (guarded_agree h).bind fun _ => .spanSince_bind fun _ => .pure

theorem returns_agree : Agree R returns returns :=
  take_agree.bind fun _ => expr_agree.bind fun _ => .spanSince_bind fun _ => .pure

theorem stmtForm_agree (h : Agree R block block') (form : StmtForm) :
    Agree R (stmtForm block form) (stmtForm block' form) := by
  cases form with
  | branch => exact branching_agree h
  | forLoop => exact forLoop_agree h
  | whileLoop => exact whileLoop_agree h
  | returns => exact returns_agree
  | breakLoop => exact take_agree.bind fun _ => .pure
  | continueLoop => exact take_agree.bind fun _ => .pure

theorem stmtWith_agree (h : Agree R block block') : Agree R (stmtWith block) (stmtWith block') := by
  refine .get_bind fun state state' related => ?_
  rw [Mirrors.grammar related, Mirrors.kind related, Mirrors.startsDeclaration related,
    Mirrors.position related]
  split
  · exact stmtForm_agree h _
  · exact .ite (varDecl_agree.bind fun _ => .spanSince_bind fun _ => .pure)
      (expr_agree.bind fun _ => .pure)

theorem lineOf_agree (h : Agree R line line') : Agree R (lineOf line) (lineOf line') :=
  h.bind fun _ => .ite .pure (lineEnd_agree.bind fun _ => .pure)

/-- Readers of statements that are given different numbers of levels agree unless one gives up. -/
theorem stmtWithin_agree (levels levels' : Nat) :
    Agree R (stmtWithin levels) (stmtWithin levels') := by
  induction levels generalizing levels' with
  | zero => exact .exhausted_left
  | succ levels ih =>
      cases levels' with
      | zero => exact .exhausted_right
      | succ levels' => exact stmtWith_agree (blockWith_agree (lineOf_agree (ih levels')))

theorem stmt_agree : Agree R stmt stmt :=
  .budget_bind stmtWithin_agree

theorem stmtLine_agree : Agree R stmtLine stmtLine :=
  lineOf_agree stmt_agree

theorem block_agree : Agree R Parse.block Parse.block :=
  blockWith_agree stmtLine_agree

end Statements

section Programs

variable {R : ParseState → ParseState → Prop} [Mirrors R]

theorem param_agree : Agree R param param :=
  expect_agree.bind fun _ => expect_agree.discard.bind fun _ => typeSpec_agree.bind fun _ =>
    .spanSince_bind fun _ => declareVar_agree.bind fun _ => .pure

theorem returnType_agree : Agree R returnType returnType := by
  refine .kind_bind fun kind => ?_
  split
  · exact .pure
  · exact .pure
  · exact typeSpec_agree

theorem function_agree : Agree R function function :=
  take_agree.bind fun _ => expect_agree.bind fun _ => expect_agree.discard.bind fun _ =>
    (commaSeparated_agree param_agree).bind fun _ => expect_agree.discard.bind fun _ =>
      expect_agree.discard.bind fun _ => returnType_agree.bind fun _ => .spanSince_bind fun _ =>
        lineEnd_agree.bind fun _ => block_agree.bind fun _ => freshId_agree.bind fun _ =>
          .spanSince_bind fun _ => .pure

theorem recordMember_agree : Agree R recordMember recordMember := by
  refine .get_bind fun state state' related => ?_
  rw [Mirrors.kind related, Mirrors.startsDeclaration related]
  exact .ite (function_agree.bind fun _ => .pure)
    (.ite (varDecl_agree.bind fun _ => lineEnd_agree.bind fun _ => .pure) failHere_agree)

theorem recordParent_agree : Agree R recordParent recordParent :=
  .kind_bind fun _ => .ite (take_agree.discard.bind fun _ => .kind_bind fun _ =>
    .ite (take_agree.bind fun _ => .pure) .pure) .pure

theorem record_agree : Agree R record record :=
  take_agree.bind fun _ => expect_agree.bind fun _ => recordParent_agree.bind fun _ =>
    lineEnd_agree.bind fun _ => (lines_agree recordMember_agree).indented.bind fun _ =>
      freshId_agree.bind fun _ => .spanSince_bind fun _ => .pure

theorem topLevel_agree : Agree R topLevel topLevel := by
  refine .get_bind fun state state' related => ?_
  rw [Mirrors.kind related, Mirrors.startsDeclaration related]
  split
  · exact function_agree.bind fun _ => register_agree
  · exact record_agree.bind fun _ => register_agree
  · exact .ite (varDecl_agree.bind fun _ => lineEnd_agree.bind fun _ => register_agree)
      (stmtLine_agree.bind fun _ => register_agree)

theorem program_agree : Agree R program program := by
  refine (lines_agree topLevel_agree).discard.bind fun _ => .get_bind fun _ _ related => ?_
  rw [Mirrors.program related]
  exact .pure

end Programs

end Offside
