import Offside.Proofs.Placing.Taking
import Offside.Proofs.Reading.Expressions

/-! # Tracking expressions

An expression is read from words that its outline takes up, from the first of them on but for
parentheses. Its span is put together from those of its parts, or goes on to the last word that has
been taken: either way, from the first of its own words to the last.
-/

namespace Offside

open Parse ParseState Outline

variable {all : List Token} {state : ParseState} {expr operand : ParseM Expr}

/-- Wherever it is started, a reader of expressions reads from words that their outlines take up. -/
def TracksExprs (all : List Token) (action : ParseM Expr) : Prop :=
  ∀ state, Tracks Takes all action state fun value used _ => value.outline.Over used

theorem literal_over (value : Literal) (token : Token) :
    (Expr.literal value token.span).outline.Over [token] := by
  rw [Expr.outline]
  exact (covers_token token).toOver

theorem primary_tracks (word : state.kind.startsLine = true) :
    Tracks Takes all primary state fun value used _ => value.outline.Over used := by
  refine (take_tracks word).bind fun token used after _ taken => ?_
  obtain ⟨rfl, -, listed⟩ := taken
  have read (value : Literal) : Tracks Takes all (pure (Expr.literal value token.span)) after
      fun read more _ => Over read.outline ([token] ++ more) :=
    .pure (literal_over value token)
  split
  · split
    · exact read _
    · exact .fail ⟨token, listed, rfl⟩
  · split
    · exact read _
    · exact .fail ⟨token, listed, rfl⟩
  · exact read _
  · exact read _
  · exact read _
  · exact read _
  · exact .fail ⟨token, listed, rfl⟩

section Compound

variable (hexpr : TracksExprs all expr)
include hexpr

/-- Arguments end with a closing parenthesis. -/
theorem arguments_tracks :
    Tracks Takes all (arguments expr) state fun args used _ =>
      LieIn (Arg.outlines args) used ∧ ∃ front last, used = front ++ [last] := by
  refine (expect_tracks rfl).discard.bind fun _ opening mid _ _ => ?_
  refine (commaSeparated_tracks (fun args used _ => LieIn (Arg.outlines args) used)
    (fun _ lie => lie.extend) (fun args used inner lie => ?_) (by
      rw [Arg.outlines]
      exact .nil)).bind fun args used behind _ lie => ?_
  · refine (expect_tracks rfl).bind fun label named after _ taken => ?_
    obtain ⟨rfl, kind, -⟩ := taken
    refine (expect_tracks rfl).discard.bind fun _ colon after _ _ => ?_
    refine (hexpr after).bind fun value read after _ goes => .pure ?_
    have arg : LieIn [(nameOf label).outline, value.outline] ([label] ++ (colon ++ read)) :=
      (LieIn.of_covers (covers_name kind)).append ((LieIn.of_over goes).prepend _)
    have both := lie.append arg
    rw [Arg.outlines_eq_flatMap] at both ⊢
    simpa using both
  · refine (expect_tracks rfl).discard.bind fun _ closing after _ taken => .pure ?_
    obtain ⟨token, rfl, -, -⟩ := taken
    exact ⟨by simpa using (lie.prepend _).extend, opening ++ used, token, by simp⟩

theorem symbol_tracks (kind : state.kind = .identifier) :
    Tracks Takes all (symbol expr) state fun value used _ => value.outline.Over used := by
  refine (take_tracks (by rw [kind]; rfl)).bind fun token used mid takes taken => ?_
  obtain ⟨rfl, rfl, -⟩ := taken
  have name : (nameOf state.current).outline.Covers [state.current] := covers_name kind
  refine .kind_bind ?_
  split
  · refine (arguments_tracks hexpr).bind fun args more after takes' read => .spanSince_bind ?_
    refine .pure (Covers.toOver ?_)
    rw [List.append_nil, Expr.outline]
    exact covers_node (takes.trans takes').goesOver ((LieIn.of_covers name).append read.1)
  · refine .pure (Covers.toOver ?_)
    rw [List.append_nil, Expr.outline]
    exact name

theorem grouping_tracks (kind : state.kind = .openParen) :
    Tracks Takes all (grouping expr) state fun value used _ => value.outline.Over used := by
  refine (take_tracks (by rw [kind]; rfl)).discard.bind fun _ used mid _ taken => ?_
  obtain ⟨token, rfl, rfl, -⟩ := taken
  refine (hexpr mid).bind fun value read behind _ goes => ?_
  refine (expect_tracks rfl).discard.bind fun _ closing after _ _ => .pure ?_
  rw [List.append_nil]
  exact goes.grouped kind

theorem array_tracks (kind : state.kind = .openBracket) :
    Tracks Takes all (array expr) state fun value used _ => value.outline.Over used := by
  refine (take_tracks (by rw [kind]; rfl)).bind fun bracket used mid takes taken => ?_
  obtain ⟨rfl, -, -⟩ := taken
  refine (commaSeparated_tracks (fun values used _ => LieIn (Expr.outlines values) used)
    (fun _ lie => lie.extend) (fun values used inner lie => ?_) (by
      rw [Expr.outlines]
      exact .nil)).bind fun values read behind takes' lie => ?_
  · refine (hexpr inner).mono fun value more after _ goes => ?_
    have both := lie.append (LieIn.of_over goes)
    rw [Expr.outlines_eq_map] at both ⊢
    simpa using both
  · refine (expect_tracks rfl).discard.bind fun _ closing after takes'' _ => .spanSince_bind ?_
    refine .pure (Covers.toOver ?_)
    rw [List.append_nil, Expr.outline]
    exact covers_node (takes.trans (takes'.trans takes'')).goesOver (lie.extend.prepend _)

/-- A member takes up its receiver's words and more. -/
theorem member_tracks {receiver : Expr} {used : List Token} (h : receiver.outline.Over used) :
    Tracks Takes all (member expr receiver) state
      (Continues (fun more _ => receiver.outline.Over (used ++ more))
        fun next more _ => next.outline.Over (used ++ more)) := by
  refine .kind_bind ?_
  split
  · next dot =>
    refine (take_tracks (by rw [dot]; rfl)).discard.bind fun _ point mid takes _ => ?_
    refine expectName_tracks.bind fun name named mid' takes' taken => ?_
    obtain ⟨rfl, kind, -⟩ := taken
    have covers : (nameOf name).outline.Covers [name] := covers_name kind
    refine .kind_bind ?_
    split
    · refine (arguments_tracks hexpr).bind fun args more after takes'' read => .spanSince_bind ?_
      obtain ⟨lie, front, last, rfl⟩ := read
      refine .pure ?_
      have lie' : LieIn ((nameOf name).outline :: Arg.outlines args)
          (point ++ ([name] ++ (front ++ [last]))) :=
        ((LieIn.of_covers covers).append lie).prepend _
      have ends : (point ++ ([name] ++ (front ++ [last]))).getLast? = some last := by
        rw [← List.append_assoc, ← List.append_assoc, List.getLast?_concat]
      rw [takes''.lastEnd last List.getLast?_concat]
      have read := h.followed lie' last.span.stop (by rw [ends]; rfl)
      simpa [Expr.outline] using read
    · refine .spanSince_bind (.pure ?_)
      have lie' : LieIn [(nameOf name).outline] (point ++ [name]) :=
        (LieIn.of_covers covers).prepend _
      rw [takes'.lastEnd name rfl]
      have read := h.followed lie' name.span.stop (by rw [List.getLast?_concat]; rfl)
      simpa [Expr.outline] using read
  · exact .pure (by simpa using h)

end Compound

/-- The outline of an operator before its operand. -/
theorem ofSigned_over {operator : Operator} {inner : Expr} {sign : Token} {used : List Token}
    (h : inner.outline.Over used) :
    (Expr.ofSigned operator inner ⟨sign.span.start, inner.span.stop⟩).outline.Over
      (sign :: used) := by
  have unary : (Expr.unary operator inner ⟨sign.span.start, inner.span.stop⟩).outline.Over
      (sign :: used) := by
    rw [Expr.outline, ← Expr.outline_span]
    exact h.signed
  unfold Expr.ofSigned
  split
  · split
    · exact unary
    · simp only [Expr.outline] at unary ⊢
      exact unary.leaf
  · simp only [Expr.outline] at unary ⊢
    exact unary.leaf
  · exact unary

theorem signed_tracks (hoperand : TracksExprs all operand) (word : state.kind.startsLine = true) :
    Tracks Takes all (signed operand) state fun value used _ => value.outline.Over used := by
  refine (take_tracks word).bind fun sign used mid takes taken => ?_
  obtain ⟨rfl, -, listed⟩ := taken
  split
  · split
    · refine .kind_bind ?_
      split
      · next int =>
        refine (take_tracks (by rw [int.2]; rfl)).bind fun digits more after _ taken => ?_
        obtain ⟨rfl, -, listed'⟩ := taken
        split
        · refine .pure (Covers.toOver ?_)
          rw [Expr.outline]
          exact covers_node ⟨rfl, rfl⟩ .nil
        · exact .fail ⟨digits, listed', rfl⟩
      · refine (hoperand mid).bind fun inner more after _ goes => .pure ?_
        rw [List.append_nil]
        exact ofSigned_over goes
    · exact .fail ⟨sign, listed, rfl⟩
  · exact .fail ⟨sign, listed, rfl⟩

/-- What an operand starts with, where that is not an operator or a literal. -/
theorem kind_of_operandForm? {kind : TokenKind} {form : OperandForm}
    (h : Grammar.full.operandForm? kind = some form) : kind.startsLine = true ∧
      (form = .symbol → kind = .identifier) ∧ (form = .grouping → kind = .openParen) ∧
        (form = .array → kind = .openBracket) := by
  cases kind with
  | operator operator =>
      simp only [Grammar.full] at h
      split at h <;> cases h
      simp [TokenKind.startsLine]
  | _ => cases h <;> simp

/-- An operand is read from words that its outline takes up, if the trees inside of it are. -/
theorem operandWith_tracks (hexpr : TracksExprs all expr) (hoperand : TracksExprs all operand) :
    TracksExprs all (operandWith expr operand) := by
  refine fun state => .of_ahead fun ahead => .get_bind ?_
  rw [ahead.grammar]
  split
  · exact .failHere
  · next form starts =>
    obtain ⟨word, symbol, grouping, array⟩ := kind_of_operandForm? starts
    have first : Tracks Takes all (operandForm expr operand form) state
        fun value used _ => value.outline.Over used := by
      cases form with
      | primary => exact primary_tracks word
      | symbol => exact symbol_tracks hexpr (symbol rfl)
      | grouping => exact grouping_tracks hexpr (grouping rfl)
      | array => exact array_tracks hexpr (array rfl)
      | signed => exact signed_tracks hoperand word
    refine first.bind fun value used mid _ goes => ?_
    exact Tracks.iterate (fun value more _ => value.outline.Over (used ++ more)) _
      (fun value more inner goes => by
        simpa only [List.append_assoc] using member_tracks hexpr goes) value (by simpa using goes)

section Operators

theorem binaryWith_tracks (hoperand : TracksExprs all operand) {climb : Nat → Expr → ParseM Expr}
    (hclimb : ∀ inner least (left : Expr) used, left.outline.Over used →
      Tracks Takes all (climb least left) inner
        fun value more _ => value.outline.Over (used ++ more))
    {left : Expr} {used : List Token} (h : left.outline.Over used) {precedence : Precedence}
    (binds : Grammar.full.precedence? state.kind = some precedence) :
    Tracks Takes all (binaryWith operand climb left precedence) state
      fun value more _ => value.outline.Over (used ++ more) := by
  obtain ⟨operator, kind, -⟩ := precedence?_eq_some binds
  refine (take_tracks (by rw [kind]; rfl)).bind fun token sign mid _ taken => ?_
  obtain ⟨rfl, same, -⟩ := taken
  have found : token.kind = .operator operator := by
    rw [same]
    exact kind
  rw [found]
  refine (hoperand mid).bind fun first read after _ goes => .get_bind ?_
  extract_lets tighter finish
  have finishes : ∀ (right : Expr) more last, right.outline.Over (read ++ more) →
      Tracks Takes all (finish right) last fun value rest _ =>
        value.outline.Over (used ++ ([token] ++ (read ++ (more ++ rest)))) := by
    intro right more last goes'
    refine .pure ?_
    have both : (Outline.node ⟨left.outline.span.start, right.outline.span.stop⟩
        [left.outline, right.outline]).Over (used ++ token :: (read ++ more)) := h.binary goes'
    simpa [Expr.outline] using both
  split
  · refine (hclimb after _ first read goes).bind fun right more last _ goes' => ?_
    exact finishes right more last goes'
  · exact finishes first [] after (by simpa using goes)

/-- Operators with their right operands are taken into a left operand. -/
theorem climbWithin_tracks (hoperand : TracksExprs all operand) (times least : Nat) (left : Expr)
    (used : List Token) (h : left.outline.Over used) :
    Tracks Takes all (climbWithin operand times least left) state
      fun value more _ => value.outline.Over (used ++ more) := by
  induction times generalizing state least left used with
  | zero => exact .exhausted
  | succ times ih =>
      refine .of_ahead fun ahead => .get_bind ?_
      rw [ahead.grammar]
      split
      · exact .pure (by simpa using h)
      · next precedence binds =>
        split
        · exact .pure (by simpa using h)
        · refine (binaryWith_tracks hoperand (fun inner least left used h => ih least left used h) h
            binds).bind fun next more after _ goes => ?_
          simpa only [List.append_assoc] using ih least next (used ++ more) goes

theorem exprWith_tracks (hoperand : TracksExprs all operand) (least : Nat) :
    TracksExprs all (exprWith operand least) := by
  refine fun state => (hoperand state).bind fun first used mid _ goes => .budget_bind ?_
  exact climbWithin_tracks hoperand _ least first used goes

end Operators

/-- An operand that nests at most some levels deep is read from words that its outline takes up. -/
theorem operandWithin_tracks (levels : Nat) : TracksExprs all (operandWithin levels) := by
  induction levels with
  | zero => exact fun state => .exhausted
  | succ levels ih => exact operandWith_tracks (exprWith_tracks ih _) ih

/-- An expression is read from words that its outline takes up. -/
theorem expr_tracks : TracksExprs all Parse.expr :=
  exprWith_tracks (fun state => .budget_bind (operandWithin_tracks _ state)) _

end Offside
