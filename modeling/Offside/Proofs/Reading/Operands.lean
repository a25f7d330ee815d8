import Offside.Proofs.Placing.Expressions
import Offside.Proofs.Precedence.Climbing
import Offside.Proofs.Printing.Expressions
import Offside.Proofs.Reading.Levels

/-! # What an operand consists of

An operand starts with a constant, a name, a call, an expression in parentheses, an array, or an
operator in front of another operand. Behind that stand the members that are asked of it, one after
the other, up to a token that is no point. Reading an operand returns just what can be put together
so.
-/

namespace Offside

open Parse ParseState

/-- Past the current token and the blanks behind it. -/
def ParseState.next (state : ParseState) : ParseState :=
  state.pass.passBlanks

/-- A member that is asked of a receiver: a property, or a method with arguments. -/
structure Access where
  name : Name
  args? : Option (List Arg)
  /-- Where it ends. -/
  stop : Position

namespace Access

/-- A receiver with a member that is asked of it. -/
def on (receiver : Expr) (access : Access) : Expr :=
  match access.args? with
  | none => .property receiver access.name ⟨receiver.span.start, access.stop⟩
  | some args => .method receiver access.name args ⟨receiver.span.start, access.stop⟩

/-- A receiver with members that are asked of it one after the other. -/
def chain (receiver : Expr) (accesses : List Access) : Expr :=
  accesses.foldl on receiver

/-- From one state to another stands a point and a member behind it. -/
inductive Stands : ParseState → Access → ParseState → Prop where
  | property {state} : state.kind = .dot → state.next.kind = .identifier →
    state.next.next.kind ≠ .openParen →
    Stands state ⟨nameOf state.next.current, none, state.next.next.lastEnd⟩ state.next.next
  | method {state args after} : state.kind = .dot → state.next.kind = .identifier →
    state.next.next.kind = .openParen →
    (arguments expr).run.run state.next.next = (.ok args, after) →
    Stands state ⟨nameOf state.next.current, some args, after.lastEnd⟩ after

end Access

/-- From one state to another stand members, one after the other, and behind the last one stands no
point. -/
inductive Accesses : ParseState → List Access → ParseState → Prop where
  | none {state} : state.kind ≠ .dot → Accesses state [] state
  | access {state mid after first others} : Access.Stands state first mid →
    Accesses mid others after → Accesses state (first :: others) after

/-- From one state to another stands what an operand starts with, if it is no sign. -/
inductive Primary : ParseState → Expr → ParseState → Prop where
  | literal {state value} : state.current.word.literal? = some value →
    Primary state (.literal value state.current.span) state.next
  | reference {state} : state.kind = .identifier → state.next.kind ≠ .openParen →
    Primary state (.reference state.current.value state.current.span) state.next
  | call {state args after} : state.kind = .identifier → state.next.kind = .openParen →
    (arguments expr).run.run state.next = (.ok args, after) →
    Primary state (.call (nameOf state.current) args ⟨state.position, after.lastEnd⟩) after
  | grouping {state inner mid} : state.kind = .openParen →
    expr.run.run state.next = (.ok inner, mid) → mid.kind = .closeParen →
    Primary state inner mid.next
  | array {state values mid} : state.kind = .openBracket →
    (commaSeparated .closeBracket expr).run.run state.next = (.ok values, mid) →
    mid.kind = .closeBracket →
    Primary state (.array values ⟨state.position, mid.next.lastEnd⟩) mid.next

/-- From one state to another stands a sign, with digits right behind a minus or with an operand. -/
inductive Signed : ParseState → Expr → ParseState → Prop where
  | digits {state value} : state.kind = .operator .minus → state.next.kind = .int →
    Number.Signed64.read? ('-' :: state.next.current.value.toList) = some value →
    Signed state (.literal (.int value) ⟨state.position, state.next.current.span.stop⟩)
      state.next.next
  | operand {state operator inner after} : state.kind = .operator operator →
    operator.isUnary = true → (operator = .minus → state.next.kind ≠ .int) →
    operand.run.run state.next = (.ok inner, after) →
    Signed state (.ofSigned operator inner ⟨state.position, inner.span.stop⟩) after

section Running

variable {α β : Type} {state after : ParseState} {token : Token}

theorem run_bind_eq_ok_iff {action : ParseM α} {next : α → ParseM β} {result : β} :
    (action >>= next).run.run state = (.ok result, after) ↔
      ∃ value mid, action.run.run state = (.ok value, mid) ∧
        (next value).run.run mid = (.ok result, after) := by
  rw [Action.run_bind]
  constructor
  · intro h
    split at h
    · next value mid run => exact ⟨value, mid, run, h⟩
    · cases h
  · rintro ⟨value, mid, run, h⟩
    rw [run]
    exact h

theorem run_pure_eq_ok_iff {value result : α} :
    (pure value : ParseM α).run.run state = (.ok result, after) ↔
      result = value ∧ after = state := by
  rw [Action.run_pure, Prod.mk.injEq, Except.ok.injEq, eq_comm, eq_comm (a := state)]

theorem run_ite_eq_ok_iff {test : Prop} [Decidable test] {yes no : ParseM α} {result : α} :
    (if test then yes else no).run.run state = (.ok result, after) ↔
      test ∧ yes.run.run state = (.ok result, after) ∨
        ¬ test ∧ no.run.run state = (.ok result, after) := by
  by_cases h : test <;> simp [h]

theorem fail_ne_ok {cause : ErrorCause} {position : Position} {result : α} :
    (fail cause position : ParseM α).run.run state ≠ (.ok result, after) := nofun

theorem failHere_ne_ok {cause : String → ErrorCause} {result : α} :
    (failHere cause : ParseM α).run.run state ≠ (.ok result, after) := nofun

theorem take_eq_ok_iff :
    take.run.run state = (.ok token, after) ↔ token = state.current ∧ after = state.next := by
  rw [run_take, Prod.mk.injEq, Except.ok.injEq, eq_comm, eq_comm (a := state.pass.passBlanks)]
  rfl

theorem discard_eq_ok_iff {action : ParseM α} {result : Unit} :
    (discard action).run.run state = (.ok result, after) ↔
      ∃ value, action.run.run state = (.ok value, after) := by
  change (action >>= fun _ => pure ()).run.run state = _ ↔ _
  simp only [run_bind_eq_ok_iff, run_pure_eq_ok_iff]
  constructor
  · rintro ⟨value, _, run, -, rfl⟩
    exact ⟨value, run⟩
  · rintro ⟨value, run⟩
    exact ⟨value, after, run, ⟨⟩, rfl⟩

theorem kind_eq_ok_iff {kind : TokenKind} :
    Parse.kind.run.run state = (.ok kind, after) ↔ kind = state.kind ∧ after = state := by
  change (pure state.kind : ParseM TokenKind).run.run state = _ ↔ _
  exact run_pure_eq_ok_iff

theorem spanSince_eq_ok_iff {start : Position} {span : Span} :
    (Parse.spanSince start).run.run state = (.ok span, after) ↔
      span = ⟨start, state.lastEnd⟩ ∧ after = state := by
  change (pure (state.spanSince start) : ParseM Span).run.run state = _ ↔ _
  exact run_pure_eq_ok_iff

theorem expect_eq_ok_iff {expected : TokenKind} :
    (expect expected).run.run state = (.ok token, after) ↔
      state.kind = expected ∧ token = state.current ∧ after = state.next := by
  simp only [expect, run_bind_eq_ok_iff, kind_eq_ok_iff, run_ite_eq_ok_iff, take_eq_ok_iff,
    failHere_ne_ok, and_false, or_false, and_assoc, exists_eq_left, exists_and_left]

theorem expectName_eq_ok_iff {complaint : String} :
    (expectName complaint).run.run state = (.ok token, after) ↔
      state.kind = .identifier ∧ token = state.current ∧ after = state.next := by
  simp only [expectName, run_bind_eq_ok_iff, kind_eq_ok_iff, run_ite_eq_ok_iff, take_eq_ok_iff,
    failHere_ne_ok, and_false, or_false, and_assoc, exists_eq_left, exists_and_left]

end Running

section Members

variable {good : TokenKind → String → Prop} {state mid after : ParseState} {receiver value : Expr}
  {access : Access} {accesses : List Access}

theorem ParseState.Ready.next (ready : state.Ready good) (inside : state.kind ≠ .eof) :
    state.next.Ready good ∧ state.next.rest.length < state.rest.length := by
  have passed := passes_passBlanks state.pass
  exact ⟨((passes_pass state).trans passed).leads.ready ready,
    Nat.lt_of_le_of_lt passed.rest.length_le (current_of_ne_eof ready inside).2⟩

/-- One member is read if a point stands ahead. -/
theorem member_eq_ok_iff {next? : Option Expr} :
    (member expr receiver).run.run state = (.ok next?, after) ↔
      state.kind ≠ .dot ∧ next? = none ∧ after = state ∨
        ∃ access, Access.Stands state access after ∧ next? = some (access.on receiver) := by
  simp only [member, run_bind_eq_ok_iff, kind_eq_ok_iff, run_ite_eq_ok_iff, run_pure_eq_ok_iff,
    discard_eq_ok_iff, take_eq_ok_iff, expectName_eq_ok_iff, spanSince_eq_ok_iff, and_assoc,
    exists_eq_left, exists_and_left, exists_const]
  constructor
  · rintro (⟨dot, named, ⟨opens, args, mid, read, rfl, rfl⟩ | ⟨other, rfl, rfl⟩⟩ | ⟨other, same⟩)
    · exact .inr ⟨_, .method dot named opens read, rfl⟩
    · exact .inr ⟨_, .property dot named other, rfl⟩
    · exact .inl ⟨other, same⟩
  · rintro (⟨other, same⟩ | ⟨access, stands, rfl⟩)
    · exact .inr ⟨other, same⟩
    · left
      cases stands with
      | property dot named other => exact ⟨dot, named, .inr ⟨other, rfl, rfl⟩⟩
      | method dot named opens read => exact ⟨dot, named, .inl ⟨opens, _, _, read, rfl, rfl⟩⟩

theorem Access.Stands.forward (stands : Access.Stands state access after)
    (ready : state.Ready good) :
    after.Ready good ∧ after.rest.length < state.rest.length := by
  cases stands with
  | property dot named other =>
      obtain ⟨ready, shorter⟩ := ready.next (by simp [dot])
      obtain ⟨ready, shorter'⟩ := ready.next (by simp [named])
      exact ⟨ready, Nat.lt_trans shorter' shorter⟩
  | method dot named opens read =>
      obtain ⟨ready, shorter⟩ := ready.next (by simp [dot])
      obtain ⟨ready, shorter'⟩ := ready.next (by simp [named])
      have exprs : SafeBelow good state.next.next.rest.length expr := fun _ _ => expr_safe
      obtain ⟨passes, -⟩ := (arguments_safe exprs (Nat.le_refl _)).of_ok ready read
      have within := passes.rest.length_le
      exact ⟨passes.leads.ready ready, by omega⟩

theorem Accesses.forward (stand : Accesses state accesses after) (ready : state.Ready good) :
    after.Ready good ∧ after.rest.length + accesses.length ≤ state.rest.length := by
  induction stand with
  | none => exact ⟨ready, Nat.le_refl _⟩
  | access first others ih =>
      obtain ⟨ready, shorter⟩ := first.forward ready
      obtain ⟨ready, fewer⟩ := ih ready
      rw [List.length_cons]
      exact ⟨ready, by omega⟩

/-- Behind members stands no point. -/
theorem Accesses.kind_ne (stand : Accesses state accesses after) : after.kind ≠ .dot := by
  induction stand with
  | none other => exact other
  | access _ _ ih => exact ih

theorem iterateWithin_member_of_accesses (stand : Accesses state accesses after) (times : Nat)
    (enough : accesses.length < times) :
    (iterateWithin (member expr) times receiver).run.run state =
      (.ok (Access.chain receiver accesses), after) := by
  induction stand generalizing times receiver with
  | none other =>
      obtain _ | times := times
      · exact absurd enough (Nat.not_lt_zero _)
      refine run_bind_eq_ok_iff.2 ⟨_, _, member_eq_ok_iff.2 (.inl ⟨other, rfl, rfl⟩), rfl⟩
  | access first others ih =>
      obtain _ | times := times
      · exact absurd enough (Nat.not_lt_zero _)
      refine run_bind_eq_ok_iff.2 ⟨_, _, member_eq_ok_iff.2 (.inr ⟨_, first, rfl⟩), ?_⟩
      exact ih times (Nat.lt_of_succ_lt_succ enough)

theorem exists_accesses_of_iterateWithin (times : Nat)
    (run : (iterateWithin (member expr) times receiver).run.run state = (.ok value, after)) :
    ∃ accesses, Accesses state accesses after ∧ value = Access.chain receiver accesses := by
  induction times generalizing receiver state with
  | zero => cases run
  | succ times ih =>
      obtain ⟨next?, mid, read, goesOn⟩ := run_bind_eq_ok_iff.1 run
      rcases member_eq_ok_iff.1 read with ⟨other, rfl, rfl⟩ | ⟨first, stands, rfl⟩
      · obtain ⟨rfl, rfl⟩ := run_pure_eq_ok_iff.1 goesOn
        exact ⟨[], .none other, rfl⟩
      · obtain ⟨others, stand, same⟩ := ih goesOn
        exact ⟨first :: others, .access stands stand, same⟩

/-- All members behind a receiver are read. -/
theorem iterate_member_eq_ok_iff (ready : state.Ready good) :
    (iterate (member expr) receiver).run.run state = (.ok value, after) ↔
      ∃ accesses, Accesses state accesses after ∧ value = Access.chain receiver accesses := by
  rw [iterate, run_budget_bind]
  constructor
  · exact exists_accesses_of_iterateWithin _
  · rintro ⟨accesses, stand, rfl⟩
    obtain ⟨-, fewer⟩ := stand.forward ready
    exact iterateWithin_member_of_accesses stand _ (by omega)

end Members

section Heads

variable {state after : ParseState} {value : Expr}

theorem primary_eq_ok_iff : primary.run.run state = (.ok value, after) ↔
    ∃ literal, state.current.word.literal? = some literal ∧
      value = .literal literal state.current.span ∧ after = state.next := by
  simp only [primary, run_bind_eq_ok_iff, take_eq_ok_iff, and_assoc, exists_eq_left,
    exists_and_left]
  have kind : state.current.word.kind = state.current.kind := rfl
  have spelling : state.current.word.value = state.current.value := rfl
  rw [Word.literal?, kind, spelling]
  cases state.current.kind
  case int =>
    cases Number.Signed64.read? state.current.value.toList <;>
      simp only [run_pure_eq_ok_iff, fail_ne_ok, Option.map_some, Option.map_none,
        Option.some.injEq, exists_eq_left', reduceCtorEq, false_and, exists_false]
  case float =>
    cases Number.Binary64.read? state.current.value.toList <;>
      simp only [run_pure_eq_ok_iff, fail_ne_ok, Option.map_some, Option.map_none,
        Option.some.injEq, exists_eq_left', reduceCtorEq, false_and, exists_false]
  all_goals
    simp only [run_pure_eq_ok_iff, fail_ne_ok, Option.some.injEq, exists_eq_left', reduceCtorEq,
      false_and, exists_false]

theorem symbol_eq_ok_iff : (symbol expr).run.run state = (.ok value, after) ↔
    (state.next.kind = .openParen ∧ ∃ args,
      (arguments expr).run.run state.next = (.ok args, after) ∧
        value = .call (nameOf state.current) args ⟨state.position, after.lastEnd⟩) ∨
      state.next.kind ≠ .openParen ∧
        value = .reference state.current.value state.current.span ∧ after = state.next := by
  simp only [symbol, run_bind_eq_ok_iff, kind_eq_ok_iff, run_ite_eq_ok_iff, run_pure_eq_ok_iff,
    take_eq_ok_iff, spanSince_eq_ok_iff, and_assoc, exists_eq_left, exists_and_left]
  constructor
  · rintro (⟨opens, args, mid, read, rfl, rfl⟩ | alone)
    · exact .inl ⟨opens, args, read, rfl⟩
    · exact .inr alone
  · rintro (⟨opens, args, read, rfl⟩ | alone)
    · exact .inl ⟨opens, args, after, read, rfl, rfl⟩
    · exact .inr alone

theorem grouping_eq_ok_iff : (grouping expr).run.run state = (.ok value, after) ↔
    ∃ mid, expr.run.run state.next = (.ok value, mid) ∧ mid.kind = .closeParen ∧
      after = mid.next := by
  simp only [grouping, run_bind_eq_ok_iff, run_pure_eq_ok_iff, discard_eq_ok_iff,
    take_eq_ok_iff, expect_eq_ok_iff, and_assoc, exists_eq_left, exists_and_left, exists_const]
  constructor
  · rintro ⟨inner, mid, read, closes, rfl, rfl⟩
    exact ⟨mid, read, closes, rfl⟩
  · rintro ⟨mid, read, closes, rfl⟩
    exact ⟨value, mid, read, closes, rfl, rfl⟩

theorem array_eq_ok_iff : (array expr).run.run state = (.ok value, after) ↔
    ∃ values mid, (commaSeparated .closeBracket expr).run.run state.next = (.ok values, mid) ∧
      mid.kind = .closeBracket ∧ value = .array values ⟨state.position, mid.next.lastEnd⟩ ∧
      after = mid.next := by
  simp only [array, run_bind_eq_ok_iff, run_pure_eq_ok_iff, discard_eq_ok_iff, take_eq_ok_iff,
    expect_eq_ok_iff, spanSince_eq_ok_iff, and_assoc, exists_eq_left, exists_and_left,
    exists_const]
  rfl

theorem signed_eq_ok_iff : (signed operand).run.run state = (.ok value, after) ↔
    Signed state value after := by
  simp only [signed, run_bind_eq_ok_iff, take_eq_ok_iff, and_assoc, exists_eq_left,
    exists_and_left]
  constructor
  · intro h
    split at h
    · next operator sign =>
      simp only [run_ite_eq_ok_iff, run_bind_eq_ok_iff, kind_eq_ok_iff, take_eq_ok_iff,
        run_pure_eq_ok_iff, fail_ne_ok, and_assoc, exists_eq_left, exists_and_left, and_false,
        or_false] at h
      obtain ⟨unary, ⟨rfl, int, h⟩ | ⟨other, inner, mid, read, rfl, rfl⟩⟩ := h
      · split at h
        · next value read =>
          obtain ⟨rfl, rfl⟩ := run_pure_eq_ok_iff.1 h
          exact .digits sign int read
        · exact absurd h fail_ne_ok
      · exact .operand sign unary (fun minus int => other ⟨minus, int⟩) read
    · exact absurd h fail_ne_ok
  · intro h
    cases h with
    | digits sign int read =>
        have current : state.current.kind = .operator .minus := sign
        simp only [current, run_ite_eq_ok_iff, run_bind_eq_ok_iff, kind_eq_ok_iff, take_eq_ok_iff,
          and_assoc, exists_eq_left, exists_and_left]
        refine .inl ⟨rfl, .inl ⟨trivial, int, ?_⟩⟩
        rw [read]
        rfl
    | @operand operator inner _ sign unary other read =>
        have current : state.current.kind = .operator operator := sign
        simp only [current, run_ite_eq_ok_iff, run_bind_eq_ok_iff, kind_eq_ok_iff,
          run_pure_eq_ok_iff, and_assoc, exists_eq_left, exists_and_left]
        exact .inl ⟨unary, .inr ⟨fun both => other both.1 both.2, inner, after, read, rfl, rfl⟩⟩

/-- A constant starts an operand. -/
theorem operandForm?_of_literal? {word : Word} {literal : Literal}
    (denotes : word.literal? = some literal) :
    Grammar.full.operandForm? word.kind = some .primary := by
  unfold Word.literal? at denotes
  split at denotes
  case h_7 => cases denotes
  all_goals
    next kind =>
    rw [kind]
    rfl

/-- What an operand starts with is read by the form that it has. -/
theorem operandForm_eq_ok_iff :
    (∃ form, Grammar.full.operandForm? state.kind = some form ∧
      (operandForm expr operand form).run.run state = (.ok value, after)) ↔
    Primary state value after ∨ Signed state value after := by
  constructor
  · rintro ⟨form, found, run⟩
    obtain ⟨-, symbol, grouping, array⟩ := kind_of_operandForm? found
    cases form with
    | primary =>
        obtain ⟨literal, denotes, rfl, rfl⟩ := primary_eq_ok_iff.1 run
        exact .inl (.literal denotes)
    | symbol =>
        rcases symbol_eq_ok_iff.1 run with ⟨opens, args, read, rfl⟩ | ⟨other, rfl, rfl⟩
        · exact .inl (.call (symbol rfl) opens read)
        · exact .inl (.reference (symbol rfl) other)
    | grouping =>
        obtain ⟨mid, read, closes, rfl⟩ := grouping_eq_ok_iff.1 run
        exact .inl (.grouping (grouping rfl) read closes)
    | array =>
        obtain ⟨values, mid, read, closes, rfl, rfl⟩ := array_eq_ok_iff.1 run
        exact .inl (.array (array rfl) read closes)
    | signed => exact .inr (signed_eq_ok_iff.1 run)
  · rintro (primary | signed)
    · cases primary with
      | literal denotes =>
          exact ⟨.primary, operandForm?_of_literal? denotes,
            primary_eq_ok_iff.2 ⟨_, denotes, rfl, rfl⟩⟩
      | reference name other =>
          exact ⟨.symbol, by rw [name]; rfl, symbol_eq_ok_iff.2 (.inr ⟨other, rfl, rfl⟩)⟩
      | call name opens read =>
          exact ⟨.symbol, by rw [name]; rfl, symbol_eq_ok_iff.2 (.inl ⟨opens, _, read, rfl⟩)⟩
      | grouping opens read closes =>
          exact ⟨.grouping, by rw [opens]; rfl, grouping_eq_ok_iff.2 ⟨_, read, closes, rfl⟩⟩
      | array opens read closes =>
          exact ⟨.array, by rw [opens]; rfl, array_eq_ok_iff.2 ⟨_, _, read, closes, rfl, rfl⟩⟩
    · refine ⟨.signed, ?_, signed_eq_ok_iff.2 signed⟩
      cases signed with
      | digits sign => rw [sign]; rfl
      | operand sign unary => simp [sign, Grammar.full, unary]

end Heads

/-- Reading an operand returns what it starts with, and the members that are asked of that. -/
theorem operand_eq_ok_iff {good : TokenKind → String → Prop} {state after : ParseState}
    {value : Expr} (ready : state.Ready good) :
    operand.run.run state = (.ok value, after) ↔ ∃ head start accesses,
      (Primary state head start ∨ Signed state head start) ∧ Accesses start accesses after ∧
        value = Access.chain head accesses := by
  rw [operand_run_eq ready, operandWith, Action.run_bind, Action.run_get]
  simp only [ready.grammar]
  cases found : Grammar.full.operandForm? state.kind with
  | none =>
      refine ⟨fun run => absurd run failHere_ne_ok, ?_⟩
      rintro ⟨head, start, _, starts, -, -⟩
      obtain ⟨form, found', -⟩ := operandForm_eq_ok_iff.2 starts
      cases found.symm.trans found'
  | some form =>
      have operands : SafeBelow good state.rest.length operand := fun _ _ => operand_safe
      have exprs : SafeBelow good state.rest.length expr := fun _ _ => expr_safe
      have behind : ∀ {head start},
          (operandForm expr operand form).run.run state = (.ok head, start) →
            start.Ready good := fun run =>
        ((operandForm_safe exprs operands found).of_ok ready run).1.leads.ready ready
      rw [run_bind_eq_ok_iff]
      constructor
      · rintro ⟨head, start, run, members⟩
        obtain ⟨accesses, stand, same⟩ := (iterate_member_eq_ok_iff (behind run)).1 members
        exact ⟨head, start, accesses, operandForm_eq_ok_iff.1 ⟨form, found, run⟩, stand, same⟩
      · rintro ⟨head, start, accesses, starts, stand, same⟩
        obtain ⟨form', found', run⟩ := operandForm_eq_ok_iff.2 starts
        cases found.symm.trans found'
        exact ⟨head, start, run, (iterate_member_eq_ok_iff (behind run)).2 ⟨accesses, stand, same⟩⟩

end Offside
