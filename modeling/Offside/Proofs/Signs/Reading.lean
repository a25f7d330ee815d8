import Mathlib.Algebra.Ring.Int.Parity
import Mathlib.Tactic.NormNum
import Offside.Proofs.Printing.Expressions
import Offside.Proofs.Reading.Programs
import Offside.Proofs.Signs.Scanning

/-! # Signs and digits are read

The sign right before some digits is read together with them. Each further one turns the number that
is read behind it into its opposite, except the least integer, which has none and keeps the signs in
front of it as operators.
-/

namespace Offside

open Parse ParseState Word

/-- What is read of digits behind some minus signs: the last sign is read together with them, and
each other one is put before what has been read. -/
def behindSigns (magnitude : Nat) : (signs : Nat) → Expr
  | 0 => .literal (.int magnitude) default
  | 1 => .literal (.int (-magnitude)) default
  | signs + 2 => .ofSigned .minus (behindSigns magnitude (signs + 1)) default

/-- An expression behind a number of minus signs that stay operators. -/
def Expr.negations : Nat → Expr → Expr
  | 0, expr => expr
  | signs + 1, expr => .unary .minus (negations signs expr) default

/-- The integer that a number and the minus signs before it denote. -/
def Expr.integer? : Expr → Option Int
  | .literal (.int value) _ => some value
  | .unary .minus operand _ => operand.integer?.map fun value => -value
  | _ => none

section Values

variable {magnitude : Nat}

theorem Expr.integer?_bare (expr : Expr) : expr.bare.integer? = expr.integer? := by
  induction expr using Expr.integer?.induct with
  | case1 value span => rfl
  | case2 operand span ih => rw [Expr.bare, Expr.integer?, Expr.integer?, ih]
  | case3 expr notInt notMinus =>
      cases expr with
      | literal value span =>
          cases value with
          | int value => exact absurd rfl (notInt value span)
          | _ => rfl
      | unary operator operand span =>
          cases operator with
          | minus => exact absurd rfl (notMinus operand span)
          | _ => rfl
      | _ => rfl

theorem Expr.integer?_negations (signs : Nat) (expr : Expr) :
    (negations signs expr).integer? = expr.integer?.map fun value => (-1) ^ signs * value := by
  induction signs with
  | zero => simp [negations]
  | succ signs ih =>
      rw [negations, integer?, ih, Option.map_map]
      congr 1
      funext value
      rw [Function.comp_apply, pow_succ, mul_neg_one, neg_mul]

theorem bare_behindSigns : ∀ signs, (behindSigns magnitude signs).bare = behindSigns magnitude signs
  | 0 => rfl
  | 1 => rfl
  | signs + 2 => by rw [behindSigns, Expr.bare_ofSigned, bare_behindSigns]

/-- A number whose opposite fits takes in every sign. -/
theorem behindSigns_of_lt (h : magnitude < 2 ^ 63) : ∀ signs,
    behindSigns magnitude signs = .literal (.int ((-1) ^ signs * magnitude)) default
  | 0 => by simp [behindSigns]
  | 1 => by simp [behindSigns]
  | signs + 2 => by
      have fits : (-1) ^ (signs + 1) * (magnitude : Int) ≠ Number.Signed64.lowest := by
        rw [Number.Signed64.lowest]
        rcases neg_one_pow_eq_or Int (signs + 1) with even | odd
        · rw [even]
          omega
        · rw [odd]
          omega
      rw [behindSigns, behindSigns_of_lt h, Expr.ofSigned, if_neg fits, pow_succ _ (signs + 1),
        mul_neg_one, neg_mul]

/-- The least integer takes in the sign right before its digits and no other. -/
theorem behindSigns_of_eq (h : magnitude = 2 ^ 63) : ∀ signs,
    behindSigns magnitude (signs + 1) =
      .negations signs (.literal (.int Number.Signed64.lowest) default)
  | 0 => by rw [h]; rfl
  | 1 => by rw [h]; rfl
  | signs + 2 => by rw [behindSigns, behindSigns_of_eq h]; rfl

end Values

section Numerals

variable {digits : List Char}

theorem isNumeral_of_isDigit (some : digits ≠ []) (decimal : ∀ c ∈ digits, c.isDigit = true) :
    Number.isNumeral digits = true := by
  rw [Number.isNumeral, Bool.and_eq_true, List.all_eq_true]
  exact ⟨by simpa using some, decimal⟩

/-- Digits without a sign are read if their value is less than the greatest magnitude. -/
theorem read?_digits (some : digits ≠ []) (decimal : ∀ c ∈ digits, c.isDigit = true) :
    Number.Signed64.read? digits =
      if Number.digitsValue digits < 2 ^ 63 then .some (Number.digitsValue digits : Int)
      else none := by
  have unsigned : Number.splitSign digits = (false, digits) := by
    cases digits with
    | nil => exact absurd rfl some
    | cons first tail => exact splitSign_of_digit (decimal first (by simp))
  have fits : Number.Signed64.fits (Number.digitsValue digits : Int) = true ↔
      Number.digitsValue digits < 2 ^ 63 := by
    rw [fits_iff]
    omega
  simp only [Number.Signed64.read?, unsigned, isNumeral_of_isDigit some decimal, if_true,
    Bool.false_eq_true, if_false, fits]

/-- Digits behind a minus sign are read up to the greatest magnitude. -/
theorem read?_minus_digits (some : digits ≠ []) (decimal : ∀ c ∈ digits, c.isDigit = true) :
    Number.Signed64.read? ('-' :: digits) =
      if Number.digitsValue digits ≤ 2 ^ 63 then .some (-(Number.digitsValue digits : Int))
      else none := by
  have fits : Number.Signed64.fits (-(Number.digitsValue digits : Int)) = true ↔
      Number.digitsValue digits ≤ 2 ^ 63 := by
    rw [fits_iff]
    omega
  simp only [Number.Signed64.read?, Number.splitSign, isNumeral_of_isDigit some decimal, if_true,
    fits]

end Numerals

section Reading

variable {digits : List Char} {gap : List Char} {gaps : List (List Char)} {tail : List Word}
  {state : ParseState}

theorem skip_blanks (h : OnlyBlanks gap) (words : List Word) :
    skip (gap.map blank ++ words) = skip words := by
  induction gap with
  | nil => rfl
  | cons c gap ih =>
      have space : (blank c).kind.isBlank = true := by
        rcases h c (by simp) with rfl | rfl <;> rfl
      rw [List.map_cons, List.cons_append, skip_cons_of_blank space]
      exact ih fun c member => h c (by simp [member])

/-- Digits without a sign are read as their value. -/
theorem operandWithin_reads_digits (some : digits ≠ []) (decimal : ∀ c ∈ digits, c.isDigit = true)
    (small : Number.digitsValue digits < 2 ^ 63) (levels : Nat)
    (words : state.words = ⟨.int, String.ofList digits⟩ :: tail)
    (other : headKind (skip tail) ≠ .dot) :
    Reads Passes (operandWithin (levels + 1)) state fun value after =>
      value.bare = (behindSigns (Number.digitsValue digits) 0).bare ∧ after.words = skip tail := by
  have denotes : Word.literal? ⟨.int, String.ofList digits⟩ =
      .some (.int (Number.digitsValue digits)) := by
    rw [Word.literal?, String.toList_ofList, read?_digits some decimal, if_pos small]
    rfl
  have starts : Grammar.full.operandForm? (headKind state.words) = .some .primary := by
    rw [words]
    rfl
  exact operandWith_reads_alone starts (primary_reads words denotes) other

/-- A minus sign right before digits is read together with them. -/
theorem signed_reads_gap_digits (some : digits ≠ []) (decimal : ∀ c ∈ digits, c.isDigit = true)
    (within : Number.digitsValue digits ≤ 2 ^ 63) (blank : OnlyBlanks gap) {inner : ParseM Expr}
    (words : state.words = mark (.operator .minus) ::
      (gap.map .blank ++ ⟨.int, String.ofList digits⟩ :: tail)) :
    Reads Passes (signed inner) state fun value after =>
      value.bare = (behindSigns (Number.digitsValue digits) 1).bare ∧ after.words = skip tail := by
  have read : Number.Signed64.read? ('-' :: (String.ofList digits).toList) =
      .some (-(Number.digitsValue digits : Int)) := by
    rw [String.toList_ofList, read?_minus_digits some decimal, if_pos within]
  apply signed_reads_digits read words
  rw [skip_blanks blank]
  exact skip_of_not_blank rfl

/-- The digits of an integer that fits are read, with the minus signs before them. -/
theorem operandWithin_reads_signs (some : digits ≠ []) (decimal : ∀ c ∈ digits, c.isDigit = true)
    (blank : ∀ gap ∈ gaps, OnlyBlanks gap)
    (fits : Number.digitsValue digits < 2 ^ 63 ∨ Number.digitsValue digits = 2 ^ 63 ∧ gaps ≠ [])
    (levels : Nat) (below : state.words.length < levels)
    (words : state.words = signWords gaps ++ ⟨.int, String.ofList digits⟩ :: tail)
    (other : headKind (skip tail) ≠ .dot) :
    Reads Passes (operandWithin levels) state fun value after =>
      value.bare = (behindSigns (Number.digitsValue digits) gaps.length).bare ∧
        after.words = skip tail := by
  induction gaps generalizing levels state with
  | nil =>
      obtain _ | levels := levels
      · exact absurd below (Nat.not_lt_zero _)
      have small : Number.digitsValue digits < 2 ^ 63 := fits.resolve_right fun h => h.2 rfl
      exact operandWithin_reads_digits some decimal small levels words other
  | cons gap gaps ih =>
      obtain _ | levels := levels
      · exact absurd below (Nat.not_lt_zero _)
      have here : OnlyBlanks gap := blank gap (by simp)
      have behind : ∀ gap ∈ gaps, OnlyBlanks gap := fun gap member => blank gap (by simp [member])
      have first : state.words = mark (.operator .minus) :: (gap.map .blank ++
          (signWords gaps ++ ⟨.int, String.ofList digits⟩ :: tail)) := by
        rw [words, ← List.append_assoc]
        rfl
      have starts : Grammar.full.operandForm? (headKind state.words) = .some .signed := by
        rw [first]
        rfl
      apply operandWith_reads_alone starts _ other
      cases gaps with
      | nil => exact signed_reads_gap_digits some decimal (by omega) here first
      | cons next gaps =>
          have ahead : skip (gap.map .blank ++ (signWords (next :: gaps) ++
              ⟨.int, String.ofList digits⟩ :: tail)) = mark (.operator .minus) ::
                (next.map .blank ++ signWords gaps ++ ⟨.int, String.ofList digits⟩ :: tail) := by
            rw [skip_blanks here]
            exact skip_of_not_blank rfl
          apply signed_reads_operand rfl first ahead (by simp [mark])
          intro mid words
          apply ih behind (fits.imp_right fun h => ⟨h.1, by simp⟩) levels _ words
          have shorter := congrArg List.length ahead
          have whole := length_skip_le (gap.map Word.blank ++ (signWords (next :: gaps) ++
            ⟨.int, String.ofList digits⟩ :: tail))
          rw [first, List.length_cons] at below
          rw [words, ← shorter]
          omega

/-- An expression of signs and digits is read to the end of the input. -/
theorem expr_reads_signs (some : digits ≠ []) (decimal : ∀ c ∈ digits, c.isDigit = true)
    (blank : ∀ gap ∈ gaps, OnlyBlanks gap)
    (fits : Number.digitsValue digits < 2 ^ 63 ∨ Number.digitsValue digits = 2 ^ 63 ∧ gaps ≠ [])
    (words : state.words = signWords gaps ++ [⟨.int, String.ofList digits⟩]) :
    Reads Passes expr state fun value after =>
      value.bare = (behindSigns (Number.digitsValue digits) gaps.length).bare ∧
        after.words = [] := by
  have operands : Reads Passes operand state fun value after =>
      value.bare = (behindSigns (Number.digitsValue digits) gaps.length).bare ∧
        after.words = [] := by
    apply Runs.budget_bind
    rw [← length_words]
    exact operandWithin_reads_signs some decimal blank fits _ (Nat.lt_succ_self _) words
      (by simp [skip])
  apply operands.bind
  intro first mid _ read
  apply Runs.budget_bind
  apply (climbWithin_reads_none (Nat.succ_pos _) (by rw [read.2]; rfl)).mono
  intro value after _ same
  exact ⟨by rw [same.1, read.1], same.2.trans read.2⟩

/-- Digits that do not fit are refused where they stand. -/
theorem expr_refuses (grammar : state.grammar = .full) (kind : state.kind = .int)
    (refused : Number.Signed64.read? state.current.value.toList = none) :
    (expr.run.run state).1 =
      .error ⟨.numberParseError state.current.value, state.current.span.start⟩ := by
  have refuses : primary.run.run state =
      (.error ⟨.numberParseError state.current.value, state.current.span.start⟩,
        state.pass.passBlanks) := by
    have taken : take.run.run state = (.ok state.current, state.pass.passBlanks) := rfl
    have int : state.current.kind = .int := kind
    rw [primary, Action.run_bind, taken]
    simp only [int, refused]
    exact Action.run_throw _ _
  have budgeted : budget.run.run state = (.ok (state.rest.length + 1), state) := rfl
  have operands : operand.run.run state =
      (.error ⟨.numberParseError state.current.value, state.current.span.start⟩,
        state.pass.passBlanks) := by
    rw [operand, Action.run_bind, budgeted]
    simp only
    rw [operandWithin, operandWith, Action.run_bind, Action.run_get]
    have form : Grammar.full.operandForm? .int = some .primary := rfl
    simp only [grammar, kind, form]
    rw [Action.run_bind, operandForm, refuses]
  rw [expr, exprFrom, exprWith, Action.run_bind, operands]

end Reading

/-- Every integer that is read as an operand, at whichever level of nesting, has 64 signed bits, and
so has its opposite, unless it is the least one, which no sign turns around. -/
def NegationsFit : Prop :=
  ∀ (levels : Nat) (state after : ParseState) (value : Int) (span : Span),
    state.Ready (fun _ _ => True) → state.rest.length < levels →
    (operandWithin levels).run.run state = (.ok (.literal (.int value) span), after) →
    Number.Signed64.fits value = true ∧
      (value ≠ Number.Signed64.lowest → Number.Signed64.fits (-value) = true)

theorem negationsFit : NegationsFit := by
  intro levels state after value span ready below run
  obtain ⟨_, _, spelled⟩ := (operandWithin_safe levels state below).of_ok ready run
  cases spelled with
  | literal fits => exact ⟨fits, fits_neg fits⟩

section Results

variable {digits : List Char} {gaps : List (List Char)}

/-- What is read of minus signs, blanks and digits denotes the value of the digits with those
signs. -/
theorem integer?_behindSigns
    (fits : Number.digitsValue digits < 2 ^ 63 ∨ Number.digitsValue digits = 2 ^ 63 ∧ gaps ≠ []) :
    (behindSigns (Number.digitsValue digits) gaps.length).integer? =
      some ((-1) ^ gaps.length * (Number.digitsValue digits : Int)) := by
  rcases fits with small | ⟨greatest, signed⟩
  · rw [behindSigns_of_lt small, Expr.integer?]
  · cases gaps with
    | nil => exact absurd rfl signed
    | cons gap gaps =>
        rw [List.length_cons, behindSigns_of_eq greatest, Expr.integer?_negations, Expr.integer?,
          Option.map_some, greatest, Number.Signed64.lowest, pow_succ]
        norm_num

/-- What is read of digits that fit with the minus signs before them. -/
theorem expr_reads_value {state : ParseState} (ready : state.Ready fun _ _ => True)
    (blank : ∀ gap ∈ gaps, OnlyBlanks gap) (some : digits ≠ [])
    (decimal : ∀ c ∈ digits, c.isDigit = true)
    (fits : Number.digitsValue digits < 2 ^ 63 ∨ Number.digitsValue digits = 2 ^ 63 ∧ gaps ≠ [])
    (words : state.words = signWords gaps ++ [⟨.int, String.ofList digits⟩]) :
    ∃ value after, expr.run.run state = (.ok value, after) ∧ after.kind = .eof ∧
      value.bare = behindSigns (Number.digitsValue digits) gaps.length := by
  have outcome := expr_reads_signs some decimal blank fits words ready
  unfold Action.Ensures at outcome
  split at outcome
  · next value after run =>
    obtain ⟨passes, same, ends⟩ := outcome
    refine ⟨value, after, run, ?_, same.trans (bare_behindSigns _)⟩
    rw [(passes.leads.ready ready).kind_eq, ends]
    rfl
  · exact outcome.2.elim

/-- The greatest magnitude is refused where it stands alone. -/
theorem expr_refuses_greatest (file : String) (some : digits ≠ [])
    (decimal : ∀ c ∈ digits, c.isDigit = true) (greatest : Number.digitsValue digits = 2 ^ 63)
    {tokens : List Token} (scanned : Token.scan (String.ofList digits) file = .ok tokens) :
    (expr.run.run (.ofTokens tokens file)).1 =
      .error ⟨.numberParseError (String.ofList digits), Position.ofByte file 0⟩ := by
  rw [Token.scan, String.toList_ofList, scanFrom_digits file 0 some decimal,
    if_pos (by rw [greatest]; decide)] at scanned
  cases scanned
  rw [show ∀ first second : Token, [first, second] = [first] ++ [second] from fun _ _ => rfl,
    ofTokens_append_eof rfl]
  apply expr_refuses rfl rfl
  change Number.Signed64.read? (String.ofList digits).toList = none
  rw [String.toList_ofList, read?_digits some decimal, if_neg (by omega)]

/-- Minus signs, each with any blanks behind it, and then digits: digits beyond the greatest
magnitude are refused by the scanner, and the greatest magnitude alone by the reader. Behind at least
one sign it is the least integer with the other signs before it, and any smaller number takes in all
of them. -/
theorem scan_expr_signs (file : String) (blank : ∀ gap ∈ gaps, OnlyBlanks gap) (some : digits ≠ [])
    (decimal : ∀ c ∈ digits, c.isDigit = true) :
    let source := String.ofList (signs gaps ++ digits)
    let magnitude := Number.digitsValue digits
    let refusal : Error :=
      ⟨.numberParseError (String.ofList digits), Position.ofByte file (byteLength (signs gaps))⟩
    (2 ^ 63 < magnitude → Token.scan source file = .error refusal) ∧
    (magnitude ≤ 2 ^ 63 → ∃ tokens, Token.scan source file = .ok tokens ∧
      (magnitude = 2 ^ 63 ∧ gaps = [] →
        (expr.run.run (.ofTokens tokens file)).1 = .error refusal) ∧
      (magnitude < 2 ^ 63 ∨ gaps ≠ [] → ∃ value after,
        expr.run.run (.ofTokens tokens file) = (.ok value, after) ∧ after.kind = .eof ∧
        (magnitude = 2 ^ 63 → value.bare =
          .negations (gaps.length - 1) (.literal (.int Number.Signed64.lowest) default)) ∧
        (magnitude < 2 ^ 63 →
          value.bare = .literal (.int ((-1) ^ gaps.length * magnitude)) default) ∧
        value.integer? = .some ((-1) ^ gaps.length * magnitude))) ∧
    NegationsFit := by
  intro source magnitude refusal
  have scanned := scan_signs file blank some decimal
  have greatest : Lexeme.greatestMagnitude = 2 ^ 63 := by decide
  rw [greatest] at scanned
  refine ⟨fun beyond => by rwa [if_neg (Nat.not_le.2 beyond)] at scanned, fun within => ?_,
    negationsFit⟩
  rw [if_pos within] at scanned
  obtain ⟨tokens, last, scanned, words, ends⟩ := scanned
  refine ⟨tokens ++ [last], scanned, fun ⟨greatest, unsigned⟩ => ?_, fun signed => ?_⟩
  · subst unsigned
    exact expr_refuses_greatest file some decimal greatest scanned
  · have fits : magnitude < 2 ^ 63 ∨ magnitude = 2 ^ 63 ∧ gaps ≠ [] :=
      (Nat.lt_or_eq_of_le within).imp_right fun greatest =>
        ⟨greatest, signed.resolve_left (by omega)⟩
    have start := @ofTokens_append_eof tokens last file ends
    have ready : (ParseState.ofTokens (tokens ++ [last]) file).Ready fun _ _ => True :=
      ready_ofTokens fun _ _ => trivial
    obtain ⟨value, after, run, eof, same⟩ := expr_reads_value ready blank some decimal fits
      (by rw [start]; exact words)
    refine ⟨value, after, run, eof, fun greatest => ?_, fun small => ?_, ?_⟩
    · cases gaps with
      | nil => exact absurd rfl (fits.resolve_left (by omega)).2
      | cons gap gaps => rw [same, List.length_cons, behindSigns_of_eq greatest]; rfl
    · rw [same, behindSigns_of_lt small]
    · rw [← Expr.integer?_bare, same, integer?_behindSigns fits]

/-- Two minus signs and a blank before the digits of the least integer. -/
theorem scan_expr_signs_least :
    (∀ gap ∈ [[' '], []], OnlyBlanks gap) ∧ "9223372036854775808".toList ≠ [] ∧
    (∀ c ∈ "9223372036854775808".toList, c.isDigit = true) ∧
    ∃ tokens value after, Token.scan "- -9223372036854775808" = .ok tokens ∧
      expr.run.run (.ofTokens tokens Position.defaultFile) = (.ok value, after) ∧
      value.bare = .unary .minus (.literal (.int Number.Signed64.lowest) default) default ∧
      value.integer? = some 9223372036854775808 := by
  have blank : ∀ gap ∈ [[' '], []], OnlyBlanks gap := by simp [OnlyBlanks]
  have some : "9223372036854775808".toList ≠ [] := by decide
  have decimal : ∀ c ∈ "9223372036854775808".toList, c.isDigit = true := by simp
  have greatest : Number.digitsValue "9223372036854775808".toList = 2 ^ 63 := by decide
  obtain ⟨_, within, _⟩ := scan_expr_signs Position.defaultFile blank some decimal
  obtain ⟨tokens, scanned, _, reads⟩ := within (Nat.le_of_eq greatest)
  obtain ⟨value, after, run, _, least, _, denotes⟩ := reads (.inr (by simp))
  exact ⟨blank, some, decimal, tokens, value, after, scanned, run, least greatest,
    by rw [denotes, greatest]; rfl⟩

end Results

end Offside
