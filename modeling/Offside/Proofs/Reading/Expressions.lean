import Offside.Proofs.Reading.Loops
import Offside.Proofs.Reading.Spelled

/-! # Expressions are read safely

An operand passes a token before it reads an operand inside it, so it nests no deeper than there are
tokens.
-/

namespace Offside

open Parse ParseState

variable {good : TokenKind → String → Prop} {state : ParseState}

/-- An expression is read by going forward over at least one token. -/
def Expr.ReadFrom (good : TokenKind → String → Prop) (state : ParseState) (expr : Expr)
    (after : ParseState) : Prop :=
  after.rest.length < state.rest.length ∧ expr.Spelled good

/-- A reader of expressions is safe wherever fewer tokens than a bound are left. -/
def SafeBelow (good : TokenKind → String → Prop) (bound : Nat) (reader : ParseM Expr) : Prop :=
  ∀ state, state.rest.length < bound →
    Safe good Passes reader state (Expr.ReadFrom good state)

theorem SafeBelow.mono {bound least : Nat} {reader : ParseM Expr} (h : SafeBelow good bound reader)
    (le : least ≤ bound) : SafeBelow good least reader :=
  fun state below => h state (Nat.lt_of_lt_of_le below le)

section Signs

theorem negate_negate (number : Number.Binary64) : number.negate.negate = number := by
  cases number with
  | mk bits => simp [Number.Binary64.negate, UInt64.xor_assoc]

theorem Literal.Spelled.negate_float {value : Number.Binary64}
    (h : Literal.Spelled good (.float value)) : Literal.Spelled good (.float value.negate) := by
  obtain ⟨text, spelled, read⟩ := h
  exact ⟨text, spelled, by rw [negate_negate]; exact read.symm⟩

theorem fits_iff {value : Int} : Number.Signed64.fits value = true ↔
    -0x8000000000000000 ≤ value ∧ value ≤ 0x7FFFFFFFFFFFFFFF := by
  rw [Number.Signed64.fits, Bool.and_eq_true, decide_eq_true_eq, decide_eq_true_eq]
  rfl

theorem fits_neg {value : Int} (h : Number.Signed64.fits value = true)
    (other : value ≠ Number.Signed64.lowest) : Number.Signed64.fits (-value) = true := by
  rw [Number.Signed64.lowest] at other
  rw [fits_iff] at h ⊢
  omega

/-- A sign and a readable operand make a readable expression. -/
theorem Expr.Spelled.ofSigned {operator : Operator} {operand : Expr} {span : Span}
    (h : operand.Spelled good) (unary : operator.isUnary = true) :
    (Expr.ofSigned operator operand span).Spelled good := by
  by_cases stays : ∀ span, Expr.ofSigned operator operand span = .unary operator operand span
  · rw [stays]
    exact .unary unary h stays
  · unfold Expr.ofSigned at stays ⊢
    split
    · next value _ =>
      cases h with
      | literal spelled =>
          by_cases least : value = Number.Signed64.lowest
          · simp [least] at stays
          · rw [if_neg least]
            exact .literal (fits_neg spelled least)
    · next value _ =>
      cases h with
      | literal spelled => exact .literal spelled.negate_float
    · next other other' =>
      refine absurd (fun span => ?_) stays
      split
      · exact absurd rfl (other _ _ rfl)
      · exact absurd rfl (other' _ _ rfl)
      · rfl

end Signs

section Operands

theorem primary_safe : Safe good Passes primary state (Expr.ReadFrom good state) := by
  refine take_safe.bind fun token after _ ⟨same, taken⟩ => ?_
  have taken : token.kind ≠ .eof → _ := fun h => taken (same ▸ h)
  split
  · next kind =>
    obtain ⟨spelled, shorter⟩ := taken (by simp [kind])
    split
    · next value read =>
      exact .pure ⟨shorter, .literal (Number.Signed64.fits_of_read? read)⟩
    · exact .fail (by simp [ErrorCause.category])
  · next kind =>
    obtain ⟨spelled, shorter⟩ := taken (by simp [kind])
    split
    · next value read => exact .pure ⟨shorter, .literal ⟨_, kind ▸ spelled, .inl read⟩⟩
    · exact .fail (by simp [ErrorCause.category])
  · next kind =>
    obtain ⟨spelled, shorter⟩ := taken (by simp [kind])
    rw [kind] at spelled
    exact .pure ⟨shorter, .literal spelled⟩
  · next kind => exact .pure ⟨(taken (by simp [kind])).2, .literal trivial⟩
  · next kind => exact .pure ⟨(taken (by simp [kind])).2, .literal trivial⟩
  · next kind => exact .pure ⟨(taken (by simp [kind])).2, .literal trivial⟩
  · exact .fail (by simp [ErrorCause.category])

variable {bound : Nat} {expr operand : ParseM Expr}

theorem arguments_safe (hexpr : SafeBelow good bound expr) (within : state.rest.length ≤ bound) :
    Safe good Passes (arguments expr) state fun args _ =>
      (∀ arg ∈ args, good .identifier arg.label.text) ∧ ∀ arg ∈ args, arg.value.Spelled good := by
  refine (expect_safe (by simp)).discard.bind fun _ opened _ ⟨_, _, _, shorter⟩ => ?_
  refine (commaSeparated_safe (fun args _ => (∀ arg ∈ args, good .identifier arg.label.text) ∧
    ∀ arg ∈ args, arg.value.Spelled good) (fun _ _ _ _ => id) (fun args inner within' kept => ?_)
    (by simp)).bind fun args mid _ spelled => ?_
  · refine (expect_safe (by simp)).bind fun label mid _ ⟨_, named, shorter⟩ => ?_
    refine (expect_safe (by simp)).discard.bind fun _ behind _ ⟨_, _, _, shorter⟩ => ?_
    refine (hexpr behind (by omega)).bind fun value after _ ⟨_, spelled⟩ => .pure ?_
    simp only [List.forall_mem_append, List.forall_mem_singleton]
    exact ⟨⟨kept.1, named⟩, kept.2, spelled⟩
  · exact (expect_safe (by simp)).discard.bind fun _ _ _ _ => .pure spelled

theorem symbol_safe (hexpr : SafeBelow good state.rest.length expr)
    (kind : state.kind = .identifier) :
    Safe good Passes (symbol expr) state (Expr.ReadFrom good state) := by
  refine take_safe.bind fun token after _ ⟨same, taken⟩ => ?_
  obtain ⟨spelled, shorter⟩ := taken (by simp [kind])
  rw [same, kind] at spelled
  refine .kind_bind ?_
  split
  · refine (arguments_safe hexpr (by omega)).bind fun args behind passes ⟨labels, values⟩ => ?_
    have := passes.rest.length_le
    exact .spanSince_bind fun span => .pure ⟨by omega, .call spelled labels values⟩
  · exact .pure ⟨shorter, .reference spelled⟩

theorem grouping_safe (hexpr : SafeBelow good state.rest.length expr) (kind : state.kind ≠ .eof) :
    Safe good Passes (grouping expr) state (Expr.ReadFrom good state) := by
  refine take_safe.discard.bind fun _ after _ ⟨_, _, taken⟩ => ?_
  have shorter := (taken kind).2
  refine (hexpr after shorter).bind fun inner behind _ ⟨shorter', spelled⟩ => ?_
  refine (expect_safe (by simp)).discard.bind fun _ closed _ ⟨_, _, _, shorter''⟩ => ?_
  exact .pure ⟨by omega, spelled⟩

theorem array_safe (hexpr : SafeBelow good state.rest.length expr) (kind : state.kind ≠ .eof) :
    Safe good Passes (array expr) state (Expr.ReadFrom good state) := by
  refine take_safe.bind fun bracket after _ ⟨_, taken⟩ => ?_
  have shorter := (taken kind).2
  refine (commaSeparated_safe (fun values _ => ∀ value ∈ values, value.Spelled good)
    (fun _ _ _ _ => id) (fun values inner within kept => ?_) (by simp)).bind
    fun values mid passes spelled => ?_
  · refine (hexpr inner (by omega)).mono fun value _ _ read => ?_
    simp only [List.forall_mem_append, List.forall_mem_singleton]
    exact ⟨kept, read.2⟩
  · have := passes.rest.length_le
    refine (expect_safe (by simp)).discard.bind fun _ closed _ ⟨_, _, _, shorter'⟩ => ?_
    exact .spanSince_bind fun span => .pure ⟨by omega, .array spelled⟩

theorem signed_safe (hoperand : SafeBelow good state.rest.length operand)
    (kind : state.kind ≠ .eof) :
    Safe good Passes (signed operand) state (Expr.ReadFrom good state) := by
  apply take_safe.bind
  intro sign after _ taken
  have shorter := (taken.2 kind).2
  split
  · next operator _ =>
    split
    · next unary =>
      refine .kind_bind ?_
      split
      · apply take_safe.bind
        intro digits behind passes _
        have within := passes.rest.length_le
        split
        · next value read =>
          exact .pure ⟨by omega, .literal (Number.Signed64.fits_of_read? read)⟩
        · exact .fail (by simp [ErrorCause.category])
      · apply (hoperand after shorter).bind
        intro inner behind _ read
        exact .pure ⟨Nat.lt_trans read.1 shorter, read.2.ofSigned unary⟩
    · exact .fail (by simp [ErrorCause.category])
  · exact .fail (by simp [ErrorCause.category])

theorem member_safe (hexpr : SafeBelow good bound expr) (within : state.rest.length ≤ bound)
    {receiver : Expr} (spelled : receiver.Spelled good) :
    Safe good Passes (member expr receiver) state
      (Round state (fun _ => receiver.Spelled good) fun next _ => next.Spelled good) := by
  refine .kind_bind ?_
  split
  · next dot =>
    refine take_safe.discard.bind fun _ after _ ⟨_, _, taken⟩ => ?_
    have shorter := (taken (by simp [dot])).2
    refine expectName_safe.bind fun name behind _ ⟨named, shorter'⟩ => .kind_bind ?_
    split
    · refine (arguments_safe hexpr (by omega)).bind fun args mid passes ⟨labels, values⟩ => ?_
      have := passes.rest.length_le
      exact .spanSince_bind fun span => .pure ⟨by omega, .method spelled named labels values⟩
    · exact .spanSince_bind fun span => .pure ⟨by omega, .property spelled named⟩
  · exact .pure spelled

theorem operandForm?_eq_symbol {kind : TokenKind}
    (h : Grammar.full.operandForm? kind = some .symbol) : kind = .identifier := by
  cases kind with
  | operator operator =>
      simp only [Grammar.full] at h
      split at h <;> cases h
  | _ => simp_all [Grammar.full]

theorem operandForm_safe (hexpr : SafeBelow good state.rest.length expr)
    (hoperand : SafeBelow good state.rest.length operand) {form : OperandForm}
    (h : Grammar.full.operandForm? state.kind = some form) :
    Safe good Passes (operandForm expr operand form) state (Expr.ReadFrom good state) := by
  have kind : state.kind ≠ .eof := by
    intro eof
    rw [eof] at h
    cases h
  cases form with
  | primary => exact primary_safe
  | symbol => exact symbol_safe hexpr (operandForm?_eq_symbol h)
  | grouping => exact grouping_safe hexpr kind
  | array => exact array_safe hexpr kind
  | signed => exact signed_safe hoperand kind

theorem operandWith_safe (hexpr : SafeBelow good state.rest.length expr)
    (hoperand : SafeBelow good state.rest.length operand) :
    Safe good Passes (operandWith expr operand) state (Expr.ReadFrom good state) := by
  intro ready
  refine Runs.get_bind ?_ ready
  rw [ready.grammar]
  split
  · exact .failHere fun _ => by simp [ErrorCause.category]
  · next form h =>
    apply (operandForm_safe hexpr hoperand h).bind
    intro first after _ read
    have within := hexpr.mono (Nat.le_of_lt read.1)
    refine (Runs.iterate (fun value _ => value.Spelled good) (fun receiver inner below spelled =>
      member_safe within below spelled) first read.2).mono ?_
    intro value last passes spelled
    exact ⟨Nat.lt_of_le_of_lt passes.rest.length_le read.1, spelled⟩

end Operands

section Operators

variable {bound : Nat} {operand : ParseM Expr}

theorem precedence?_eq_some {kind : TokenKind} {precedence : Precedence}
    (h : Grammar.full.precedence? kind = some precedence) :
    ∃ operator, kind = .operator operator ∧
      Grammar.operatorPrecedence? operator = some precedence := by
  cases kind with
  | operator operator => exact ⟨operator, rfl, h⟩
  | _ => cases h

theorem binaryWith_safe (hoperand : SafeBelow good state.rest.length operand)
    {climb : Nat → Expr → ParseM Expr} (hclimb : ∀ inner least left,
      inner.rest.length < state.rest.length → left.Spelled good →
      Safe good Passes (climb least left) inner fun expr _ => expr.Spelled good)
    {left : Expr} (spelled : left.Spelled good) {precedence : Precedence}
    (h : Grammar.full.precedence? state.kind = some precedence) :
    Safe good Passes (binaryWith operand climb left precedence) state
      (Expr.ReadFrom good state) := by
  obtain ⟨operator, kind, binds⟩ := precedence?_eq_some h
  refine take_safe.bind fun token after _ ⟨same, taken⟩ => ?_
  have shorter := (taken (by simp [kind])).2
  rw [same, kind]
  refine (hoperand after shorter).bind fun first mid _ ⟨shorter', spelledFirst⟩ => .get_bind ?_
  extract_lets tighter finish
  have finishes : ∀ right last, mid.Passes last → right.Spelled good →
      Safe good Passes (finish right) last (Expr.ReadFrom good state) := by
    intro right last passes spelledRight
    have := passes.rest.length_le
    exact .pure ⟨by omega, .binary (by simp [binds]) spelled spelledRight⟩
  split
  · exact (hclimb mid _ first (by omega) spelledFirst).bind finishes
  · exact finishes first mid (.refl mid) spelledFirst

theorem climbWithin_safe (hoperand : SafeBelow good bound operand) (times least : Nat)
    (left : Expr) (spelled : left.Spelled good) (enough : state.rest.length < times)
    (within : state.rest.length ≤ bound) :
    Safe good Passes (climbWithin operand times least left) state
      fun expr _ => expr.Spelled good := by
  induction times generalizing state least left with
  | zero => exact absurd enough (Nat.not_lt_zero _)
  | succ times ih =>
      intro ready
      refine Runs.get_bind ?_ ready
      rw [ready.grammar]
      split
      · exact .pure spelled
      · next precedence h =>
        split
        · exact .pure spelled
        · refine (binaryWith_safe (hoperand.mono within) (fun inner least left shorter spelled =>
            ih least left spelled (by omega) (by omega)) spelled h).bind
            fun next after _ ⟨shorter, spelled⟩ => ?_
          exact ih least next spelled (by omega) (by omega)

theorem exprWith_safe (hoperand : SafeBelow good bound operand) (least : Nat) :
    SafeBelow good bound (exprWith operand least) := by
  intro state below
  refine (hoperand state below).bind fun first after _ ⟨shorter, spelled⟩ => .get_bind ?_
  refine (climbWithin_safe (hoperand.mono (Nat.le_of_lt below)) _ least first spelled
    (Nat.lt_succ_self _) (Nat.le_of_lt shorter)).mono fun expr last passes spelled => ⟨?_, spelled⟩
  exact Nat.lt_of_le_of_lt passes.rest.length_le shorter

end Operators

/-- A reader of operands that nest at most some levels deep is safe where fewer tokens are left. -/
theorem operandWithin_safe (levels : Nat) : SafeBelow good levels (operandWithin levels) := by
  induction levels with
  | zero => exact fun state below => absurd below (Nat.not_lt_zero _)
  | succ levels ih =>
      intro state below
      have inner := ih.mono (Nat.le_of_lt_succ below)
      exact operandWith_safe (exprWith_safe inner _) inner

theorem operand_safe : Safe good Passes operand state (Expr.ReadFrom good state) :=
  .budget_bind (operandWithin_safe _ state (Nat.lt_succ_self _))

theorem expr_safe : Safe good Passes expr state (Expr.ReadFrom good state) := by
  have operands : SafeBelow good (state.rest.length + 1) operand := fun _ _ => operand_safe
  exact exprWith_safe operands _ state (Nat.lt_succ_self _)

end Offside
