import Offside.Proofs.Comparing.Loops
import Offside.Proofs.Reading.Expressions

/-! # Comparing the reading of expressions

The readers of compound operands are compared over readers for the operands inside them, as they are
written. Two readers of operands that nest a different number of levels deep agree as long as both
numbers are large enough.
-/

namespace Offside

open Parse ParseState

namespace Comparison

/-- What two readers give is the same from where each side is looked at, and words look alike behind
it. -/
def Gives (c : Comparison) {α γ : Type} (view view' : α → γ)
    (cursor : List Token → List Token → Prop) (value value' : α) (after after' : ParseState) :
    Prop :=
  view value = view' value' ∧ c.Abreast True cursor after after'

/-- Both readings give the same expression. -/
abbrev GivesExpr (c : Comparison) : Expr → Expr → ParseState → ParseState → Prop :=
  c.Gives (Expr.moved c.left) (Expr.moved c.right) c.inLine

/-- Two readers of expressions agree wherever fewer tokens than a bound are left on each side. -/
def ExprsBelow (c : Comparison) (bound bound' : Nat) (reader reader' : ParseM Expr) : Prop :=
  ∀ started state state', state.rest.length < bound → state'.rest.length < bound' →
    c.Abreast started c.inLine state state' → c.Follows reader reader' state state' c.GivesExpr

variable {c : Comparison} (lawful : c.Lawful) {started : Prop} {state state' : ParseState}

theorem ExprsBelow.mono {bound bound' least least' : Nat} {reader reader' : ParseM Expr}
    (h : c.ExprsBelow bound bound' reader reader') (le : least ≤ bound) (le' : least' ≤ bound') :
    c.ExprsBelow least least' reader reader' :=
  fun started state state' below below' =>
    h started state state' (Nat.lt_of_lt_of_le below le) (Nat.lt_of_lt_of_le below' le')

theorem moved_nameOf {token token' : Token} (value : token.value = token'.value)
    (span : token.span.moved c.left = token'.span.moved c.right) :
    (nameOf token).moved c.left = (nameOf token').moved c.right := by
  unfold nameOf Name.moved
  rw [value, span]

include lawful

section Operands

theorem primary_follows (h : c.Abreast started c.inLine state state')
    (visible : state.kind.startsLine = true) :
    c.Follows primary primary state state' c.GivesExpr := by
  apply (take_follows lawful h visible).bind
  intro token token' after after' _ _ taken
  have span := taken.span
  have next := taken.abreast
  have literal : ∀ value : Literal, (Expr.literal value token.span).moved c.left =
      (Expr.literal value token'.span).moved c.right := by
    intro value
    rw [Expr.moved, Expr.moved, span]
  rw [← taken.kind_eq, ← taken.value]
  split
  · split
    · exact .pure ⟨literal _, next⟩
    · exact .fail rfl
  · split
    · exact .pure ⟨literal _, next⟩
    · exact .fail rfl
  · exact .pure ⟨literal _, next⟩
  · exact .pure ⟨literal _, next⟩
  · exact .pure ⟨literal _, next⟩
  · exact .pure ⟨literal _, next⟩
  · exact .fail rfl

variable {expr expr' operand operand' : ParseM Expr} {bound bound' : Nat}

theorem arguments_follows (hexpr : c.ExprsBelow bound bound' expr expr')
    (within : state.rest.length ≤ bound) (within' : state'.rest.length ≤ bound')
    (h : c.Abreast started c.inLine state state') :
    c.Follows (arguments expr) (arguments expr') state state'
      (c.Gives (Arg.listMoved c.left) (Arg.listMoved c.right) c.inLine) := by
  apply (expect_follows lawful h rfl).discard.bind
  rintro _ _ opened opened' _ _ ⟨_, _, open_⟩
  have shorter := open_.shorter
  have shorter' := open_.shorter'
  apply (commaSeparated_follows lawful (Arg.moved c.left) (Arg.moved c.right) open_.abreast rfl
    _).bind
  · rintro args args' mid mid' _ _ ⟨same, here⟩
    apply (expect_follows lawful here rfl).discard.bind
    rintro _ _ after after' _ _ ⟨_, _, closed⟩
    exact .pure ⟨by rw [Arg.listMoved_eq_map, Arg.listMoved_eq_map, same], closed.abreast⟩
  · intro inner inner' bounds bounds' here
    apply (expect_follows lawful here rfl).bind
    intro label label' _ _ _ _ named
    apply (expect_follows lawful named.abreast rfl).discard.bind
    rintro _ _ behind behind' stays stays' ⟨_, _, colon⟩
    have labelled := named.shorter
    have labelled' := named.shorter'
    have passed := colon.shorter
    have passed' := colon.shorter'
    apply (hexpr _ behind behind' (by omega) (by omega) colon.abreast).bind
    rintro value value' after after' _ _ ⟨same, next⟩
    exact .pure ⟨by rw [Arg.moved, Arg.moved, moved_nameOf named.value named.span, same], next⟩

theorem symbol_follows (hexpr : c.ExprsBelow state.rest.length state'.rest.length expr expr')
    (h : c.Abreast started c.inLine state state') (visible : state.kind.startsLine = true) :
    c.Follows (symbol expr) (symbol expr') state state' c.GivesExpr := by
  apply (take_follows lawful h visible).bind
  intro token token' after after' _ _ taken
  have here := taken.abreast
  apply Follows.kind_bind
  apply Follows.ite (here.kind_iff lawful rfl)
  · intro _
    apply (arguments_follows lawful hexpr (Nat.le_of_lt taken.shorter) (Nat.le_of_lt taken.shorter')
      here).bind
    rintro args args' behind behind' _ _ ⟨same, next⟩
    apply Follows.spanSince_bind
    have span := next.spanSince (congrArg Span.start taken.span)
    exact .pure ⟨by rw [Expr.moved, Expr.moved, moved_nameOf taken.value taken.span, same, span],
      next⟩
  · intro _
    exact .pure ⟨by rw [Expr.moved, Expr.moved, taken.value, taken.span], here⟩

theorem grouping_follows (hexpr : c.ExprsBelow state.rest.length state'.rest.length expr expr')
    (h : c.Abreast started c.inLine state state') (visible : state.kind.startsLine = true) :
    c.Follows (grouping expr) (grouping expr') state state' c.GivesExpr := by
  apply (take_follows lawful h visible).discard.bind
  rintro _ _ after after' _ _ ⟨_, _, taken⟩
  apply (hexpr _ after after' taken.shorter taken.shorter' taken.abreast).bind
  rintro inner inner' behind behind' _ _ ⟨same, here⟩
  apply (expect_follows lawful here rfl).discard.bind
  rintro _ _ last last' _ _ ⟨_, _, closed⟩
  exact .pure ⟨same, closed.abreast⟩

theorem array_follows (hexpr : c.ExprsBelow state.rest.length state'.rest.length expr expr')
    (h : c.Abreast started c.inLine state state') (visible : state.kind.startsLine = true) :
    c.Follows (array expr) (array expr') state state' c.GivesExpr := by
  apply (take_follows lawful h visible).bind
  intro bracket bracket' after after' _ _ taken
  have shorter := taken.shorter
  have shorter' := taken.shorter'
  apply (commaSeparated_follows lawful (Expr.moved c.left) (Expr.moved c.right) taken.abreast rfl
    fun inner inner' within within' here =>
      hexpr _ inner inner' (by omega) (by omega) here).bind
  rintro values values' mid mid' _ _ ⟨same, here⟩
  apply (expect_follows lawful here rfl).discard.bind
  rintro _ _ last last' _ _ ⟨_, _, closed⟩
  apply Follows.spanSince_bind
  have span := closed.abreast.spanSince (congrArg Span.start taken.span)
  refine .pure ⟨?_, closed.abreast⟩
  rw [Expr.moved, Expr.moved, Expr.listMoved_eq_map, Expr.listMoved_eq_map, same, span]

theorem signed_follows
    (hoperand : c.ExprsBelow state.rest.length state'.rest.length operand operand')
    (h : c.Abreast started c.inLine state state') (visible : state.kind.startsLine = true) :
    c.Follows (signed operand) (signed operand') state state' c.GivesExpr := by
  apply (take_follows lawful h visible).bind
  intro sign sign' after after' _ _ taken
  have here := taken.abreast
  have start : c.left.position sign.span.start = c.right.position sign'.span.start :=
    congrArg Span.start taken.span
  rw [← taken.kind_eq]
  split
  · next operator _ =>
    apply Follows.ite Iff.rfl
    · intro _
      apply Follows.kind_bind
      apply Follows.ite (and_congr_right fun _ => here.kind_iff lawful rfl)
      · rintro ⟨-, int⟩
        apply (take_follows lawful here (int ▸ rfl)).bind
        intro digits digits' behind behind' _ _ taken
        rw [← taken.value]
        split
        · refine .pure ⟨?_, taken.abreast⟩
          have stop : c.left.position digits.span.stop = c.right.position digits'.span.stop :=
            congrArg Span.stop taken.span
          rw [Expr.moved, Expr.moved, Span.moved, Span.moved, start, stop]
        · exact .fail rfl
      · intro _
        apply (hoperand _ after after' taken.shorter taken.shorter' here).bind
        rintro inner inner' behind behind' _ _ ⟨same, next⟩
        refine .pure ⟨?_, next⟩
        have stop := congrArg (fun expr => expr.span.stop) same
        simp only [Expr.span_moved] at stop
        rw [Expr.moved_ofSigned, Expr.moved_ofSigned, same]
        congr 1
        exact congrArg₂ Span.mk start stop
    · intro _
      exact .fail rfl
  · exact .fail rfl

theorem member_follows (hexpr : c.ExprsBelow bound bound' expr expr')
    (within : state.rest.length ≤ bound) (within' : state'.rest.length ≤ bound')
    (h : c.Abreast True c.inLine state state') {receiver receiver' : Expr}
    (same : receiver.moved c.left = receiver'.moved c.right) :
    c.Follows (member expr receiver) (member expr' receiver') state state'
      (Rounds state state' (c.GivesExpr receiver receiver') c.GivesExpr) := by
  have start := congrArg (fun expr => expr.span.start) same
  simp only [Expr.span_moved] at start
  apply Follows.kind_bind
  apply Follows.ite (h.kind_iff lawful rfl)
  · intro dot
    apply (take_follows lawful h (dot ▸ rfl)).discard.bind
    rintro _ _ after after' _ _ ⟨_, _, taken⟩
    apply (expectName_follows lawful taken.abreast).bind
    intro name name' behind behind' _ _ named
    have here := named.abreast
    have shorter := Nat.lt_trans named.shorter taken.shorter
    have shorter' := Nat.lt_trans named.shorter' taken.shorter'
    have names := moved_nameOf named.value named.span
    apply Follows.kind_bind
    apply Follows.ite (here.kind_iff lawful rfl)
    · intro _
      apply (arguments_follows lawful hexpr (by omega) (by omega) here).bind
      rintro args args' last last' stays stays' ⟨sameArgs, next⟩
      apply Follows.spanSince_bind
      refine .pure ⟨Nat.lt_of_le_of_lt stays.rest shorter, Nat.lt_of_le_of_lt stays'.rest shorter',
        ?_, next⟩
      rw [Expr.moved, Expr.moved, same, names, sameArgs, next.spanSince start]
    · intro _
      apply Follows.spanSince_bind
      refine .pure ⟨shorter, shorter', ?_, here⟩
      rw [Expr.moved, Expr.moved, same, names, here.spanSince start]
  · intro _
    exact .pure ⟨same, h⟩

omit lawful in
/-- The tokens that an operand starts with may start a line. -/
theorem startsLine_of_operandForm? {kind : TokenKind} {form : OperandForm}
    (h : Grammar.full.operandForm? kind = some form) : kind.startsLine = true := by
  cases kind <;> first | rfl | cases h

theorem operandForm_follows (hexpr : c.ExprsBelow state.rest.length state'.rest.length expr expr')
    (hoperand : c.ExprsBelow state.rest.length state'.rest.length operand operand')
    (h : c.Abreast started c.inLine state state') (visible : state.kind.startsLine = true)
    (form : OperandForm) :
    c.Follows (operandForm expr operand form) (operandForm expr' operand' form) state state'
      c.GivesExpr := by
  cases form with
  | primary => exact primary_follows lawful h visible
  | symbol => exact symbol_follows lawful hexpr h visible
  | grouping => exact grouping_follows lawful hexpr h visible
  | array => exact array_follows lawful hexpr h visible
  | signed => exact signed_follows lawful hoperand h visible

theorem operandWith_follows (hexpr : c.ExprsBelow state.rest.length state'.rest.length expr expr')
    (hoperand : c.ExprsBelow state.rest.length state'.rest.length operand operand')
    (h : c.Abreast started c.inLine state state') :
    c.Follows (operandWith expr operand) (operandWith expr' operand') state state'
      c.GivesExpr := by
  have forms := h.kind_congr lawful Grammar.full.operandForm? rfl
  apply Follows.get_bind
  rw [h.grammar, h.grammar', ← forms]
  split
  · exact .failHere fun _ _ => rfl
  · next form found =>
    apply (operandForm_follows lawful hexpr hoperand h (startsLine_of_operandForm? found) form).bind
    intro first first' after after' stays stays' given
    apply Follows.iterate c.GivesExpr c.GivesExpr _ given
    rintro receiver receiver' inner inner' within within' ⟨same, here⟩
    exact member_follows lawful hexpr (Nat.le_trans within stays.rest)
      (Nat.le_trans within' stays'.rest) here same

end Operands

section Operators

variable {operand operand' : ParseM Expr} {bound bound' : Nat}

theorem binaryWith_follows
    (hoperand : c.ExprsBelow state.rest.length state'.rest.length operand operand')
    {climb climb' : Nat → Expr → ParseM Expr}
    (hclimb : ∀ inner inner' least left left', inner.rest.length < state.rest.length →
      inner'.rest.length < state'.rest.length → c.Abreast True c.inLine inner inner' →
      left.moved c.left = left'.moved c.right →
      c.Follows (climb least left) (climb' least left') inner inner' c.GivesExpr)
    (h : c.Abreast True c.inLine state state') (visible : state.kind.startsLine = true)
    {left left' : Expr} (same : left.moved c.left = left'.moved c.right) (precedence : Precedence) :
    c.Follows (binaryWith operand climb left precedence) (binaryWith operand' climb' left' precedence)
      state state' fun value value' after after' => c.GivesExpr value value' after after' ∧
        after.rest.length < state.rest.length ∧ after'.rest.length < state'.rest.length := by
  apply (take_follows lawful h visible).bind
  intro token token' after after' _ _ taken
  have shorter := taken.shorter
  have shorter' := taken.shorter'
  rw [← taken.kind_eq]
  split
  · next operator _ =>
    apply (hoperand _ after after' shorter shorter' taken.abreast).bind
    rintro first first' mid mid' stays stays' ⟨sameFirst, here⟩
    have within := stays.rest
    have within' := stays'.rest
    apply Follows.get_bind
    extract_lets tighter finish tighter' finish'
    have finishes : ∀ right right' last last', mid.Stays last → mid'.Stays last' →
        c.GivesExpr right right' last last' → c.Follows (finish right) (finish' right') last last'
          fun value value' after after' => c.GivesExpr value value' after after' ∧
            after.rest.length < state.rest.length ∧ after'.rest.length < state'.rest.length := by
      rintro right right' last last' stays stays' ⟨sameRight, next⟩
      have passed := stays.rest
      have passed' := stays'.rest
      have start := congrArg (fun expr => expr.span.start) same
      have stop := congrArg (fun expr => expr.span.stop) sameRight
      simp only [Expr.span_moved] at start stop
      refine .pure ⟨⟨?_, next⟩, by omega, by omega⟩
      rw [Expr.moved, Expr.moved, same, sameRight]
      congr 1
      exact congrArg₂ Span.mk start stop
    have tight : tighter = tighter' := by
      unfold tighter tighter'
      rw [here.grammar, here.grammar', here.kind_congr lawful Grammar.full.precedence? rfl]
    rw [← tight]
    split
    · exact (hclimb mid mid' _ first first' (by omega) (by omega) here sameFirst).bind finishes
    · exact finishes first first' mid mid' (.refl mid) (.refl mid') ⟨sameFirst, here⟩
  · exact .fail rfl

theorem climbWithin_follows (hoperand : c.ExprsBelow bound bound' operand operand')
    (times times' least : Nat) {left left' : Expr} (same : left.moved c.left = left'.moved c.right)
    (enough : state.rest.length < times) (enough' : state'.rest.length < times')
    (within : state.rest.length ≤ bound) (within' : state'.rest.length ≤ bound')
    (h : c.Abreast True c.inLine state state') :
    c.Follows (climbWithin operand times least left) (climbWithin operand' times' least left') state
      state' c.GivesExpr := by
  induction times generalizing state state' times' least left left' with
  | zero => exact absurd enough (Nat.not_lt_zero _)
  | succ times ih =>
      cases times' with
      | zero => exact absurd enough' (Nat.not_lt_zero _)
      | succ times' =>
          have found := h.kind_congr lawful Grammar.full.precedence? rfl
          apply Follows.get_bind
          rw [h.grammar, h.grammar', ← found]
          split
          · exact .pure ⟨same, h⟩
          · next precedence binds =>
            obtain ⟨operator, kind, _⟩ := precedence?_eq_some binds
            apply Follows.ite Iff.rfl
            · intro _
              exact .pure ⟨same, h⟩
            · intro _
              apply (binaryWith_follows lawful (hoperand.mono within within')
                (fun inner inner' least left left' shorter shorter' here same =>
                  ih times' least same (by omega) (by omega) (by omega) (by omega) here)
                h (kind ▸ rfl) same precedence).bind
              rintro next next' after after' _ _ ⟨⟨same, here⟩, shorter, shorter'⟩
              exact ih times' least same (by omega) (by omega) (by omega) (by omega) here

theorem exprWith_follows (hoperand : c.ExprsBelow bound bound' operand operand') (least : Nat) :
    c.ExprsBelow bound bound' (exprWith operand least) (exprWith operand' least) := by
  intro started state state' below below' h
  apply (hoperand started state state' below below' h).bind
  rintro first first' after after' stays stays' ⟨same, here⟩
  apply Follows.get_bind
  exact climbWithin_follows lawful (hoperand.mono (Nat.le_of_lt below) (Nat.le_of_lt below')) _ _
    least same (Nat.lt_succ_self _) (Nat.lt_succ_self _) stays.rest stays'.rest here

end Operators

/-- Two readers of operands that nest at most some levels deep agree where fewer tokens are left. -/
theorem operandWithin_follows (levels levels' : Nat) :
    c.ExprsBelow levels levels' (operandWithin levels) (operandWithin levels') := by
  induction levels generalizing levels' with
  | zero => exact fun _ state _ below => absurd below (Nat.not_lt_zero _)
  | succ levels ih =>
      intro started state state' below below' h
      cases levels' with
      | zero => exact absurd below' (Nat.not_lt_zero _)
      | succ levels' =>
          have inner := (ih levels').mono (Nat.le_of_lt_succ below) (Nat.le_of_lt_succ below')
          exact operandWith_follows lawful (exprWith_follows lawful inner _) inner h

theorem operand_follows (h : c.Abreast started c.inLine state state') :
    c.Follows operand operand state state' c.GivesExpr :=
  .budget_bind (operandWithin_follows lawful _ _ started state state' (Nat.lt_succ_self _)
    (Nat.lt_succ_self _) h)

/-- An expression is read side by side. -/
theorem expr_follows (h : c.Abreast started c.inLine state state') :
    c.Follows expr expr state state' c.GivesExpr := by
  have operands : c.ExprsBelow (state.rest.length + 1) (state'.rest.length + 1) operand operand :=
    fun _ _ _ _ _ here => operand_follows lawful here
  exact exprWith_follows lawful operands _ started state state' (Nat.lt_succ_self _)
    (Nat.lt_succ_self _) h

end Comparison

end Offside
