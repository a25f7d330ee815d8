import Offside.Proofs.Reading.Operands

/-! # Signs and members

A sign is put before an operand with all of the members that are asked of it, and a minus before a
number alone turns the number around. Digits right behind a minus are the exception: they are read
together with it before any members are, so that the members are asked of the number with its sign.
-/

namespace Offside

open Parse ParseState

/-- The number that a minus before a number comes to, unless it does not fit. -/
def Literal.opposite? : Literal → Option Literal
  | .int value => if value = Number.Signed64.lowest then none else some (.int (-value))
  | .float value => some (.float value.negate)
  | _ => none

/-- Whether a constant is a number. -/
def Literal.isNumber : Literal → Bool
  | .int _ | .float _ => true
  | _ => false

/-- From one state to another stands a number and nothing else, with any parentheses and minus signs
around it, and no point stands behind it or its parentheses. -/
inductive Numeral : ParseState → Literal → ParseState → Prop where
  | token {state value} : value.isNumber = true → state.current.word.literal? = some value →
    state.next.kind ≠ .dot → Numeral state value state.next
  | enclosed {state mid value} : state.kind = .openParen → Numeral state.next value mid →
    mid.kind = .closeParen → mid.next.kind ≠ .dot → Numeral state value mid.next
  | digits {state value} : state.kind = .operator .minus → state.next.kind = .int →
    Number.Signed64.read? ('-' :: state.next.current.value.toList) = some value →
    state.next.next.kind ≠ .dot → Numeral state (.int value) state.next.next
  | negated {state after value opposite} : state.kind = .operator .minus →
    state.next.kind ≠ .int → Numeral state.next value after → value.opposite? = some opposite →
    Numeral state opposite after

theorem Literal.isNumber_of_opposite? {value opposite : Literal}
    (fits : value.opposite? = some opposite) : value.isNumber = true := by
  cases value <;> first | rfl | cases fits

section Trees

variable {operator : Operator} {receiver inner : Expr} {accesses : List Access} {span : Span}
  {value opposite : Literal}

/-- With a member asked of it, a receiver is no constant. -/
theorem Access.chain_ne_literal (some : accesses ≠ []) :
    Access.chain receiver accesses ≠ .literal value span := by
  obtain ⟨before, last, rfl⟩ : ∃ before last, accesses = before ++ [last] :=
    ⟨_, _, (List.dropLast_append_getLast some).symm⟩
  rw [Access.chain, List.foldl_append, List.foldl_cons, List.foldl_nil, Access.on]
  split <;> exact nofun

/-- A minus before a number turns it around if the opposite fits. -/
theorem Expr.ofSigned_number (fits : value.opposite? = some opposite) (place : Span) :
    Expr.ofSigned .minus (.literal value place) span = .literal opposite span := by
  cases value with
  | int value =>
      rw [Literal.opposite?, ite_eq_iff] at fits
      obtain ⟨-, ⟨⟩⟩ | ⟨other, ⟨⟩⟩ := fits
      rw [Expr.ofSigned, if_neg other]
  | float value =>
      cases fits
      rfl
  | _ => cases fits

/-- Any other sign stays an operator. -/
theorem Expr.ofSigned_other (other : ∀ value place, operator = .minus →
    inner = .literal value place → value.opposite? = none) :
    Expr.ofSigned operator inner span = .unary operator inner span := by
  unfold Expr.ofSigned
  split
  · next value place =>
    have none := other (.int value) place rfl rfl
    simp only [Literal.opposite?, ite_eq_left_iff, reduceCtorEq, imp_false, not_not] at none
    rw [if_pos none]
  · next value place => cases other (.float value) place rfl rfl
  · rfl

/-- What a sign and an operand make is a constant only if the sign turns a number around. -/
theorem Expr.eq_of_ofSigned_eq_literal
    (same : Expr.ofSigned operator inner span = .literal opposite place) :
    operator = .minus ∧ ∃ value place, inner = .literal value place ∧
      value.opposite? = some opposite := by
  by_cases other : ∀ value place, operator = .minus → inner = .literal value place →
      value.opposite? = none
  · rw [Expr.ofSigned_other other] at same
    cases same
  · simp only [not_forall] at other
    obtain ⟨value, place, minus, rfl, fits⟩ := other
    obtain ⟨opposite', fits⟩ := Option.ne_none_iff_exists'.1 fits
    subst minus
    rw [Expr.ofSigned_number fits] at same
    cases same
    exact ⟨rfl, value, place, rfl, fits⟩

end Trees

section Signs

variable {state start after : ParseState} {operator : Operator} {head inner tree : Expr}
  {value : Literal} {place : Span}

theorem Primary.kind_ne_operator (primary : Primary state head start) :
    state.kind ≠ .operator operator := by
  intro sign
  cases primary with
  | literal denotes =>
      have form := operandForm?_of_literal? denotes
      rw [show state.current.word.kind = _ from sign] at form
      simp only [Grammar.full] at form
      split at form <;> cases form
  | reference kind | call kind | grouping kind | array kind => cases kind.symm.trans sign

/-- An operand ends where no member is asked of it. -/
theorem kind_ne_dot_of_operand (ready : state.Ready fun _ _ => True)
    (read : operand.run.run state = (.ok tree, after)) : after.kind ≠ .dot := by
  obtain ⟨_, _, _, _, stand, _⟩ := (operand_eq_ok_iff ready).1 read
  exact stand.kind_ne

theorem Accesses.eq_of_kind_ne {accesses : List Access} (stand : Accesses state accesses after)
    (other : state.kind ≠ .dot) : accesses = [] ∧ after = state := by
  cases stand with
  | none => exact ⟨rfl, rfl⟩
  | access first _ => cases first <;> contradiction

/-- A sign that no digits are read with is put before the operand behind it. -/
theorem operand_of_sign (ready : state.Ready fun _ _ => True)
    (sign : state.kind = .operator operator) (unary : operator.isUnary = true)
    (apart : operator = .minus → state.next.kind ≠ .int) :
    operand.run.run state = (.ok tree, after) ↔ ∃ inner,
      operand.run.run state.next = (.ok inner, after) ∧
        tree = .ofSigned operator inner ⟨state.position, inner.span.stop⟩ := by
  have next := (ready.next (by simp [sign])).1
  rw [operand_eq_ok_iff ready]
  constructor
  · rintro ⟨head, start, accesses, primary | signed, stand, rfl⟩
    · exact absurd sign primary.kind_ne_operator
    · cases signed with
      | digits minus int =>
          cases sign.symm.trans minus
          exact absurd int (apart rfl)
      | operand sign' _ _ read =>
          cases sign.symm.trans sign'
          obtain ⟨rfl, rfl⟩ := stand.eq_of_kind_ne (kind_ne_dot_of_operand next read)
          exact ⟨_, read, rfl⟩
  · rintro ⟨inner, read, rfl⟩
    exact ⟨_, _, [], .inr (.operand sign unary apart read),
      .none (kind_ne_dot_of_operand next read), rfl⟩

/-- Digits behind a minus are read with it, and members are asked of the number they come to. -/
theorem operand_of_digits (ready : state.Ready fun _ _ => True)
    (minus : state.kind = .operator .minus) (int : state.next.kind = .int) :
    operand.run.run state = (.ok tree, after) ↔ ∃ value accesses,
      Number.Signed64.read? ('-' :: state.next.current.value.toList) = some value ∧
        Accesses state.next.next accesses after ∧
        tree = Access.chain
          (.literal (.int value) ⟨state.position, state.next.current.span.stop⟩) accesses := by
  rw [operand_eq_ok_iff ready]
  constructor
  · rintro ⟨head, start, accesses, primary | signed, stand, rfl⟩
    · exact absurd minus primary.kind_ne_operator
    · cases signed with
      | digits _ _ read => exact ⟨_, accesses, read, stand, rfl⟩
      | operand sign _ apart =>
          cases minus.symm.trans sign
          exact absurd int (apart rfl)
  · rintro ⟨value, accesses, read, stand, rfl⟩
    exact ⟨_, _, accesses, .inr (.digits minus int read), stand, rfl⟩

section Climbing

variable {reader : ParseM Expr} {left : Expr}

theorem binaryWith_eq_binary {climb : Nat → Expr → ParseM Expr} {precedence : Precedence}
    (run : (binaryWith reader climb left precedence).run.run state = (.ok tree, after)) :
    ∃ operator right span, tree = .binary operator left right span := by
  obtain ⟨token, mid, -, run⟩ := run_bind_eq_ok_iff.1 run
  split at run
  · next operator _ =>
    obtain ⟨first, mid, -, run⟩ := run_bind_eq_ok_iff.1 run
    obtain ⟨_, mid, -, run⟩ := run_bind_eq_ok_iff.1 run
    extract_lets tighter finish at run
    have binary : ∀ {right mid}, (finish right).run.run mid = (.ok tree, after) →
        ∃ operator right span, tree = .binary operator left right span := fun run =>
      ⟨_, _, _, (run_pure_eq_ok_iff.1 run).1⟩
    rcases run_ite_eq_ok_iff.1 run with ⟨-, run⟩ | ⟨-, run⟩
    · obtain ⟨right, mid, -, run⟩ := run_bind_eq_ok_iff.1 run
      exact binary run
    · exact binary run
  · exact absurd run fail_ne_ok

/-- Climbing leaves the left operand as it is, or puts it into a binary expression. -/
theorem climbWithin_cases (times least : Nat)
    (run : (climbWithin reader times least left).run.run state = (.ok tree, after)) :
    (tree = left ∧ after = state) ∨ ∃ operator left right span,
      tree = .binary operator left right span := by
  induction times generalizing state left with
  | zero => cases run
  | succ times ih =>
      have stops : (pure left : ParseM Expr).run.run state = (.ok tree, after) →
          tree = left ∧ after = state := run_pure_eq_ok_iff.1
      rw [climbWithin, Action.run_bind, Action.run_get] at run
      dsimp only at run
      split at run
      · exact .inl (stops run)
      · rcases run_ite_eq_ok_iff.1 run with ⟨-, run⟩ | ⟨-, run⟩
        · exact .inl (stops run)
        · obtain ⟨grown, mid, taken, goesOn⟩ := run_bind_eq_ok_iff.1 run
          rcases ih goesOn with ⟨rfl, -⟩ | binary
          · obtain ⟨operator, right, span, same⟩ := binaryWith_eq_binary taken
            exact .inr ⟨operator, left, right, span, same⟩
          · exact .inr binary

theorem expr_eq_ok_iff : expr.run.run state = (.ok tree, after) ↔ ∃ first mid,
    operand.run.run state = (.ok first, mid) ∧
      (climbWithin operand (mid.rest.length + 1) Precedence.default.level first).run.run mid =
        (.ok tree, after) := by
  rw [expr, exprFrom, exprWith, run_bind_eq_ok_iff]
  simp only [climb, run_budget_bind]

/-- An expression that is a constant is an operand alone. -/
theorem operand_of_expr_literal
    (run : expr.run.run state = (.ok (.literal value place), after)) :
    operand.run.run state = (.ok (.literal value place), after) := by
  obtain ⟨first, mid, read, climbs⟩ := expr_eq_ok_iff.1 run
  rcases climbWithin_cases _ _ climbs with ⟨rfl, rfl⟩ | ⟨_, _, _, _, same⟩
  · exact read
  · cases same

/-- An operand in front of what is no operator between operands is an expression. -/
theorem expr_of_operand (ends : after.grammar.precedence? after.kind = none)
    (read : operand.run.run state = (.ok tree, after)) :
    expr.run.run state = (.ok tree, after) :=
  expr_eq_ok_iff.2 ⟨tree, after, read, climbWithin_ends ends tree⟩

end Climbing

/-- A number that stands alone is read as an operand. -/
theorem Numeral.operand (numeral : Numeral state value after)
    (ready : state.Ready fun _ _ => True) :
    ∃ place, Parse.operand.run.run state = (.ok (.literal value place), after) := by
  induction numeral with
  | token _ denotes other =>
      exact ⟨_, (operand_eq_ok_iff ready).2 ⟨_, _, [], .inl (.literal denotes), .none other, rfl⟩⟩
  | @enclosed state mid value opens _ closes other ih =>
      have next := (ready.next (by simp [opens])).1
      obtain ⟨place, read⟩ := ih next
      have ends : mid.grammar.precedence? mid.kind = none := by
        rw [(operand_goesForward next read).1.grammar, closes]
        rfl
      exact ⟨_, (operand_eq_ok_iff ready).2
        ⟨_, _, [], .inl (.grouping opens (expr_of_operand ends read) closes), .none other, rfl⟩⟩
  | digits minus int read other =>
      exact ⟨_, (operand_of_digits ready minus int).2 ⟨_, [], read, .none other, rfl⟩⟩
  | negated minus apart _ fits ih =>
      obtain ⟨place, read⟩ := ih (ready.next (by simp [minus])).1
      exact ⟨_, (operand_of_sign ready minus rfl fun _ => apart).2
        ⟨_, read, (Expr.ofSigned_number fits place).symm⟩⟩

/-- An operand that is read as a number is one that stands alone. -/
theorem numeral_of_operand (ready : state.Ready fun _ _ => True) (number : value.isNumber = true)
    (read : operand.run.run state = (.ok (.literal value place), after)) :
    Numeral state value after := by
  induction size : state.rest.length using Nat.strong_induction_on
    generalizing state value place after with
  | _ size ih =>
      obtain ⟨head, start, accesses, starts, stand, same⟩ := (operand_eq_ok_iff ready).1 read
      have none : accesses = [] := by
        by_contra some
        exact Access.chain_ne_literal some same.symm
      subst none
      obtain rfl : _ = head := same
      cases stand with
      | none other =>
          rcases starts with primary | signed
          · generalize whole : Expr.literal value place = head at primary
            cases primary with
            | literal denotes =>
                cases whole
                exact .token number denotes other
            | grouping opens inside closes =>
                subst whole
                obtain ⟨next, shorter⟩ := ready.next (by simp [opens])
                exact .enclosed opens
                  (ih _ (size ▸ shorter) next number (operand_of_expr_literal inside) rfl) closes
                  other
            | _ => cases whole
          · generalize whole : Expr.literal value place = head at signed
            cases signed with
            | digits minus int denotes =>
                cases whole
                exact .digits minus int denotes other
            | operand sign unary apart inside =>
                obtain ⟨rfl, inner, place, rfl, fits⟩ := Expr.eq_of_ofSigned_eq_literal whole.symm
                obtain ⟨next, shorter⟩ := ready.next (by simp [sign])
                exact .negated sign (apart rfl)
                  (ih _ (size ▸ shorter) next (Literal.isNumber_of_opposite? fits) inside rfl) fits

/-- Behind a minus that no digits are read with, a number that stands alone is turned around if its
opposite fits, and in front of any other operand the minus stays an operator. -/
theorem eq_ofSigned_minus_iff (ready : state.Ready fun _ _ => True)
    (read : operand.run.run state = (.ok inner, after)) :
    tree = .ofSigned .minus inner place ↔
      (∃ value opposite, Numeral state value after ∧ value.opposite? = some opposite ∧
        tree = .literal opposite place) ∨
      (∀ value, Numeral state value after → value.opposite? = none) ∧
        tree = .unary .minus inner place := by
  have same_number : ∀ {value}, Numeral state value after →
      ∃ place, inner = .literal value place := by
    intro value numeral
    obtain ⟨place, read'⟩ := numeral.operand ready
    cases read.symm.trans read'
    exact ⟨place, rfl⟩
  by_cases turns : ∃ value opposite, Numeral state value after ∧ value.opposite? = some opposite
  · obtain ⟨value, opposite, numeral, fits⟩ := turns
    obtain ⟨within, rfl⟩ := same_number numeral
    rw [Expr.ofSigned_number fits]
    refine ⟨fun same => .inl ⟨value, opposite, numeral, fits, same⟩, ?_⟩
    rintro (⟨value', opposite', numeral', fits', same⟩ | ⟨none, -⟩)
    · obtain ⟨_, ⟨⟩⟩ := same_number numeral'
      cases fits.symm.trans fits'
      exact same
    · cases fits.symm.trans (none value numeral)
  · have none : ∀ value, Numeral state value after → value.opposite? = none :=
      fun value numeral => Option.eq_none_iff_forall_ne_some.2 fun opposite fits =>
        turns ⟨value, opposite, numeral, fits⟩
    have stays : ∀ value within, Operator.minus = .minus → inner = .literal value within →
        value.opposite? = .none := by
      rintro value within - rfl
      by_contra some
      obtain ⟨opposite, fits⟩ := Option.ne_none_iff_exists'.1 some
      exact some (none value
        (numeral_of_operand ready (Literal.isNumber_of_opposite? fits) read))
    rw [Expr.ofSigned_other stays]
    refine ⟨fun same => .inr ⟨none, same⟩, ?_⟩
    rintro (⟨value, opposite, numeral, fits, -⟩ | ⟨-, same⟩)
    · exact absurd ⟨value, opposite, numeral, fits⟩ turns
    · exact same

end Signs

/-- A sign in front of an operand with members is put before the operand with all of them, unless it
is a minus right in front of digits. Digits right behind a minus are read as the number that both
come to, and the members are asked of that number. Any other minus turns a number around if nothing
but the number stands behind it and its opposite fits, and stays an operator in all other cases. -/
theorem operand_signed {state : ParseState} {operator : Operator}
    (closing : state.closing.kind = .eof) (grammar : state.grammar = .full)
    (sign : state.kind = .operator operator) (unary : operator.isUnary = true) :
    ((operator = .minus → state.next.kind ≠ .int) →
      ∀ head start accesses after, Primary state.next head start →
        Accesses start accesses after → accesses ≠ [] →
        let tree := Access.chain head accesses
        operand.run.run state =
          (.ok (.unary operator tree ⟨state.position, tree.span.stop⟩), after)) ∧
    (operator = .minus → state.next.kind = .int → ∀ tree after,
      operand.run.run state = (.ok tree, after) ↔ ∃ value accesses,
        Number.Signed64.read? ('-' :: state.next.current.value.toList) = some value ∧
          Accesses state.next.next accesses after ∧
          tree = Access.chain
            (.literal (.int value) ⟨state.position, state.next.current.span.stop⟩) accesses) ∧
    (operator = .minus → state.next.kind ≠ .int → ∀ tree after,
      operand.run.run state = (.ok tree, after) ↔ ∃ inner,
        operand.run.run state.next = (.ok inner, after) ∧
          ((∃ value opposite, Numeral state.next value after ∧ value.opposite? = some opposite ∧
              tree = .literal opposite ⟨state.position, inner.span.stop⟩) ∨
            (∀ value, Numeral state.next value after → value.opposite? = none) ∧
              tree = .unary .minus inner ⟨state.position, inner.span.stop⟩)) := by
  have ready : state.Ready fun _ _ => True := ⟨closing, grammar, fun _ _ => trivial⟩
  have next := (ready.next (by simp [sign])).1
  refine ⟨fun apart head start accesses after primary stand some => ?_, ?_, ?_⟩
  · have read := (operand_eq_ok_iff next).2 ⟨head, start, accesses, .inl primary, stand, rfl⟩
    have other : ∀ value place, operator = .minus →
        Access.chain head accesses = .literal value place → value.opposite? = none :=
      fun value place _ same => absurd same (Access.chain_ne_literal some)
    exact (operand_of_sign ready sign unary apart).2 ⟨_, read, (Expr.ofSigned_other other).symm⟩
  · rintro rfl int tree after
    exact operand_of_digits ready sign int
  · rintro rfl apart tree after
    rw [operand_of_sign ready sign unary fun _ => apart]
    exact exists_congr fun inner => and_congr_right fun read => eq_ofSigned_minus_iff next read

/-- A property of a number in parentheses: the minus stays an operator before both. -/
theorem operand_signed_enclosed : ∃ (state after : ParseState) (tree : Expr),
    state.rest.map Token.kind =
        [.operator .minus, .openParen, .int, .closeParen, .dot, .identifier] ∧
      state.closing.kind = .eof ∧ state.grammar = .full ∧ state.kind = .operator .minus ∧
      Operator.minus.isUnary = true ∧ operand.run.run state = (.ok tree, after) ∧
      tree.bare = .unary .minus
        (.property (.literal (.int 1) default) ⟨"a", default⟩ default) default := by
  let span : Span := ⟨Position.ofByte "signs" 0, Position.ofByte "signs" 1⟩
  let token (kind : TokenKind) (value : String) : Token := ⟨kind, value, span⟩
  let ahead (tokens : List Token) : ParseState :=
    { rest := tokens, closing := .endOfInput span.stop, lastEnd := span.stop }
  let named := [token .dot ".", token .identifier "a"]
  let closed := token .closeParen ")" :: named
  let digits := token .int "1" :: closed
  let minus := ahead (token (.operator .minus) "-" :: token .openParen "(" :: digits)
  have ready : (ahead digits).Ready fun _ _ => True := ⟨rfl, rfl, fun _ _ => trivial⟩
  have one : (ahead digits).current.word.literal? = some (.int 1) := by decide
  have read : operand.run.run (ahead digits) = (.ok (.literal (.int 1) span), ahead closed) :=
    (operand_eq_ok_iff ready).2 ⟨_, _, [], .inl (.literal one), .none nofun, rfl⟩
  have number : Primary minus.next (.literal (.int 1) span) (ahead closed).next :=
    .grouping rfl (expr_of_operand rfl read) rfl
  have property : Accesses (ahead named) [⟨⟨"a", span⟩, none, span.stop⟩] (ahead named).next.next :=
    .access (.property rfl rfl nofun) (.none nofun)
  have unary := (@operand_signed minus .minus rfl rfl rfl rfl).1 fun _ => nofun
  exact ⟨minus, _, _, rfl, rfl, rfl, rfl, rfl, unary _ _ _ _ number property nofun, rfl⟩

/-- A property of digits right behind a minus: it is asked of the number with the sign. -/
theorem operand_digits_property : ∃ (state start after : ParseState) (head tree : Expr)
    (accesses : List Access),
    state.rest.map Token.kind = [.operator .minus, .int, .dot, .identifier] ∧
      Primary state.next head start ∧ Accesses start accesses after ∧ accesses ≠ [] ∧
      operand.run.run state = (.ok tree, after) ∧
      (Access.chain head accesses).bare =
        .property (.literal (.int 1) default) ⟨"a", default⟩ default ∧
      tree.bare = .property (.literal (.int (-1)) default) ⟨"a", default⟩ default ∧
      ∀ operand span, tree ≠ .unary .minus operand span := by
  let span : Span := ⟨Position.ofByte "signs" 0, Position.ofByte "signs" 1⟩
  let token (kind : TokenKind) (value : String) : Token := ⟨kind, value, span⟩
  let state : ParseState :=
    { rest := [token (.operator .minus) "-", token .int "1", token .dot ".", token .identifier "a"]
      closing := .endOfInput span.stop, lastEnd := span.stop }
  have one : state.next.current.word.literal? = some (.int 1) := by decide
  have opposite : Number.Signed64.read? ('-' :: state.next.current.value.toList) = some (-1) := by
    decide
  have property : Accesses state.next.next [⟨⟨"a", span⟩, none, span.stop⟩]
      state.next.next.next.next :=
    .access (.property rfl rfl nofun) (.none nofun)
  have ready : state.Ready fun _ _ => True := ⟨rfl, rfl, fun _ _ => trivial⟩
  have read := (operand_of_digits ready rfl rfl).2 ⟨-1, _, opposite, property, rfl⟩
  exact ⟨state, state.next.next, _, .literal (.int 1) span, _, _, rfl, .literal one, property, nofun,
    read, rfl, rfl, nofun⟩

end Offside
