import Offside.Proofs.Printing.Legible
import Offside.Proofs.Printing.Renaming

/-! # Printed expressions are read back

An operand in parentheses is read back whatever follows it, and any other expression up to a token
that ends expressions. Since every operand stands in parentheses, no operator is ever taken into an
operand that it does not belong to.
-/

namespace Offside

open Parse ParseState Word TokenKind

/-- Whether a kind of token ends an expression. -/
@[simp] def TokenKind.endsExpr : TokenKind → Bool
  | closeParen | closeBracket | comma | colon | newline => true
  | _ => false

/-- An expression ends before some words. -/
def Ends (tail : List Word) : Prop :=
  (headKind tail).endsExpr = true

namespace Ends

variable {tail : List Word}

theorem skip_eq (h : Ends tail) : skip tail = tail := by
  apply skip_of_not_blank
  unfold Ends at h
  generalize headKind tail = kind at h
  cases kind <;> first | rfl | cases h

theorem ne (h : Ends tail) {kind : TokenKind} (other : kind.endsExpr = false) :
    headKind tail ≠ kind := by
  rintro rfl
  exact Bool.false_ne_true (other.symm.trans h)

theorem precedence? (h : Ends tail) : Grammar.full.precedence? (headKind tail) = none := by
  unfold Ends at h
  cases kind : headKind tail with
  | operator _ =>
      rw [kind] at h
      cases h
  | _ => rfl

end Ends

/-- The words of a constant are those of a token, but for its sign. -/
def Word.literal? (word : Word) : Option Literal :=
  match word.kind with
  | .int => (Number.Signed64.read? word.value.toList).map .int
  | .float => (Number.Binary64.read? word.value.toList).map .float
  | .string => some (.string word.value)
  | .trueWord => some (.bool true)
  | .falseWord => some (.bool false)
  | .nullWord => some .null
  | _ => none

section Heads

variable {decimal : Number.Binary64 → String} {tail : List Word}

theorem Literal.head (value : Literal) : ∃ word rest, value.words decimal = word :: rest ∧
    (Grammar.full.operandForm? word.kind).isSome := by
  cases value with
  | null => exact ⟨_, _, rfl, rfl⟩
  | string value => exact ⟨_, _, rfl, rfl⟩
  | bool value => cases value <;> exact ⟨_, _, rfl, rfl⟩
  | int value =>
      rw [Literal.words]
      split <;> exact ⟨_, _, rfl, rfl⟩
  | float value =>
      rw [Literal.words]
      split <;> exact ⟨_, _, rfl, rfl⟩

variable (decimal) in
/-- An expression that can be read starts with a token that starts operands. -/
theorem Expr.Spelled.head {expr : Expr} (spelled : expr.Spelled Admits) :
    ∃ word rest, expr.words decimal = word :: rest ∧
      (Grammar.full.operandForm? word.kind).isSome := by
  cases spelled with
  | literal _ => exact Literal.head _
  | unary unary _ _ => exact ⟨_, _, rfl, by simp [mark, Grammar.full, unary]⟩
  | _ => exact ⟨_, _, rfl, rfl⟩

theorem startsLine_of_operandForm? {kind : TokenKind}
    (h : (Grammar.full.operandForm? kind).isSome) : kind.startsLine = true := by
  cases kind <;> first | rfl | cases h

theorem ne_of_operandForm? {kind other : TokenKind} (h : (Grammar.full.operandForm? kind).isSome)
    (starts : Grammar.full.operandForm? other = none) : kind ≠ other := by
  rintro rfl
  rw [starts] at h
  cases h

/-- No blanks stand before an expression. -/
theorem Expr.Spelled.skip_words {expr : Expr} (spelled : expr.Spelled Admits) :
    skip (expr.words decimal ++ tail) = expr.words decimal ++ tail := by
  obtain ⟨word, rest, words, starts⟩ := spelled.head decimal
  rw [words]
  exact skip_of_not_blank (isBlank_of_startsLine (startsLine_of_operandForm? starts))

end Heads

section Operands

variable {decimal : Number.Binary64 → String} {bound : Nat} {expr operand : ParseM Expr}
  {state : ParseState} {word : Word} {tail : List Word}

variable (decimal) in
/-- Where fewer words than a bound are left, a reader reads printed expressions back. -/
def ReadsExprs (bound : Nat) (reader : ParseM Expr) : Prop :=
  ∀ (expr : Expr) (state : ParseState) (tail : List Word), state.words.length < bound →
    expr.Spelled Admits → state.words = expr.words decimal ++ tail → Ends tail →
    Reads Passes reader state fun value after => value.bare = expr.bare ∧ after.words = tail

variable (decimal) in
/-- Where fewer words than a bound are left, a reader reads printed operands back: those in
parentheses, and those that need none. -/
structure ReadsOperands (bound : Nat) (reader : ParseM Expr) : Prop where
  enclosed : ∀ (expr : Expr) (state : ParseState) (tail : List Word), state.words.length < bound →
    expr.Spelled Admits →
    state.words = mark openParen :: (expr.words decimal ++ mark closeParen :: tail) →
    headKind (skip tail) ≠ dot →
    Reads Passes reader state fun value after => value.bare = expr.bare ∧ after.words = skip tail
  plain : ∀ (expr : Expr) (state : ParseState) (tail : List Word), state.words.length < bound →
    expr.Spelled Admits → (∀ operator left right span, expr ≠ .binary operator left right span) →
    state.words = expr.words decimal ++ tail → Ends tail →
    Reads Passes reader state fun value after => value.bare = expr.bare ∧ after.words = tail

theorem ReadsExprs.mono {least : Nat} {reader : ParseM Expr} (h : ReadsExprs decimal bound reader)
    (le : least ≤ bound) : ReadsExprs decimal least reader :=
  fun expr state tail below => h expr state tail (Nat.lt_of_lt_of_le below le)

theorem ReadsOperands.mono {least : Nat} {reader : ParseM Expr}
    (h : ReadsOperands decimal bound reader) (le : least ≤ bound) :
    ReadsOperands decimal least reader :=
  ⟨fun expr state tail below => h.enclosed expr state tail (Nat.lt_of_lt_of_le below le),
    fun expr state tail below => h.plain expr state tail (Nat.lt_of_lt_of_le below le)⟩

/-- A token that is a constant is read as it. -/
theorem primary_reads {value : Literal} (words : state.words = word :: tail)
    (denotes : word.literal? = some value) :
    Reads Passes primary state fun expr after =>
      expr.bare = .literal value default ∧ after.words = skip tail := by
  have inside : word.kind ≠ eof := by
    intro eof
    rw [Word.literal?, eof] at denotes
    cases denotes
  apply (take_reads words inside).bind
  intro token after _ taken
  obtain ⟨rfl, ahead⟩ := taken
  unfold Word.literal? at denotes
  have kind : token.word.kind = token.kind := rfl
  have spelling : token.word.value = token.value := rfl
  rw [kind, spelling] at denotes
  split
  · next int =>
    rw [int, Option.map_eq_some_iff] at denotes
    obtain ⟨value, read, rfl⟩ := denotes
    rw [read]
    exact .pure ⟨rfl, ahead⟩
  · next float =>
    rw [float, Option.map_eq_some_iff] at denotes
    obtain ⟨value, read, rfl⟩ := denotes
    rw [read]
    exact .pure ⟨rfl, ahead⟩
  · next string =>
    rw [string] at denotes
    cases denotes
    exact .pure ⟨rfl, ahead⟩
  · next trueWord =>
    rw [trueWord] at denotes
    cases denotes
    exact .pure ⟨rfl, ahead⟩
  · next falseWord =>
    rw [falseWord] at denotes
    cases denotes
    exact .pure ⟨rfl, ahead⟩
  · next nullWord =>
    rw [nullWord] at denotes
    cases denotes
    exact .pure ⟨rfl, ahead⟩
  · next int float string trueWord falseWord nullWord =>
    split at denotes
    · next kind => exact absurd kind int
    · next kind => exact absurd kind float
    · next kind => exact absurd kind string
    · next kind => exact absurd kind trueWord
    · next kind => exact absurd kind falseWord
    · next kind => exact absurd kind nullWord
    · cases denotes

/-- Printed arguments are read back. -/
theorem arguments_reads (hexpr : ReadsExprs decimal bound expr)
    (within : state.words.length ≤ bound) {args : List Arg}
    (spelled : ∀ arg ∈ args, arg.value.Spelled Admits)
    (words : state.words = mark openParen ::
      (separated (Arg.listWords decimal args) ++ mark closeParen :: tail)) :
    Reads Passes (arguments expr) state fun args' after =>
      Arg.listBare args' = Arg.listBare args ∧ after.words = skip tail := by
  simp only [Arg.listWords_eq_map, Arg.listBare_eq_map] at words ⊢
  have starts : ∀ arg ∈ args, ∃ word rest, arg.words decimal = word :: rest ∧
      word.kind ≠ closeParen ∧ word.kind.isBlank = false :=
    fun arg _ => ⟨_, _, rfl, by simp [Word.name], rfl⟩
  apply (mark_reads words (by simp)).bind
  intro _ opened passes ahead
  rw [skip_separated _ starts rfl] at ahead
  have shorter := passes.rest.length_le
  rw [← length_words, ← length_words] at shorter
  apply (commaSeparated_reads (Arg.words decimal)
    (fun sources items _ => items.map Arg.bare = sources.map Arg.bare)
    (fun _ _ _ _ _ held => held) starts (by simp) ?_ ahead rfl).bind
  · intro args' mid _ read
    apply (mark_reads read.1 (by simp)).bind
    intro _ after _ words
    exact .pure ⟨read.2, words⟩
  · intro front arg back items inner behind all fewer words next held
    rw [← length_words, ← length_words] at fewer
    apply (expect_reads words rfl (by simp [Word.name])).bind
    intro label mid _ taken
    obtain ⟨named, ahead⟩ := taken
    rw [List.append_eq, List.cons_append, skip_of_not_blank rfl] at ahead
    apply (mark_reads ahead (by simp)).bind
    intro _ behindColon _ ahead
    have spelled := spelled arg (by simp [all])
    rw [List.cons_append, skip_cons_of_blank rfl, spelled.skip_words] at ahead
    have ends : Ends behind := by
      rcases next with next | next <;> rw [Ends, next] <;> rfl
    have below : behindColon.words.length < bound := by
      rw [words] at fewer
      rw [ahead]
      simp [Arg.words] at fewer ⊢
      omega
    apply (hexpr arg.value behindColon behind below spelled ahead ends).bind
    intro value after _ read
    refine .pure ⟨read.2, ?_⟩
    have label : label.value = arg.label.text := congrArg Word.value named
    simp only [List.map_append, held, List.map_cons, List.map_nil]
    rw [Arg.bare, Name.bare, nameOf, label, read.1]
    rfl

/-- A printed name is read back, with the arguments behind it if it is called. -/
theorem symbol_reads_reference {name : String} {span : Span}
    (words : state.words = Word.name name :: tail) (ends : Ends tail) :
    Reads Passes (symbol expr) state fun value after =>
      value.bare = (Expr.reference name span).bare ∧ after.words = tail := by
  apply (take_reads words (by simp [Word.name])).bind
  intro token after _ taken
  obtain ⟨named, ahead⟩ := taken
  rw [ends.skip_eq] at ahead
  apply Reads.kind_bind
  rw [ahead, if_neg (ends.ne rfl)]
  have same : token.value = name := congrArg Word.value named
  exact .pure ⟨by rw [Expr.bare, Expr.bare, same], ahead⟩

theorem symbol_reads_call (hexpr : ReadsExprs decimal state.words.length expr) {callee : Name}
    {args : List Arg} {span : Span} (spelled : ∀ arg ∈ args, arg.value.Spelled Admits)
    (words : state.words = (Expr.call callee args span).words decimal ++ tail) (ends : Ends tail) :
    Reads Passes (symbol expr) state fun value after =>
      value.bare = (Expr.call callee args span).bare ∧ after.words = tail := by
  simp only [Expr.words, List.cons_append, List.append_assoc, List.nil_append] at words
  apply (take_reads words (by simp [Word.name])).bind
  intro token mid passes taken
  obtain ⟨named, ahead⟩ := taken
  rw [skip_of_not_blank rfl] at ahead
  apply Reads.kind_bind
  rw [ahead, headKind, if_pos (by rfl)]
  have shorter := passes.rest.length_le
  rw [← length_words, ← length_words] at shorter
  apply (arguments_reads hexpr shorter spelled ahead).bind
  intro args' after _ read
  apply Runs.spanSince_bind
  intro span
  have same : token.value = callee.text := congrArg Word.value named
  rw [ends.skip_eq] at read
  exact .pure ⟨by rw [Expr.bare, Expr.bare, read.1, Name.bare, nameOf, same]; rfl, read.2⟩

/-- What stands in parentheses is read back. -/
theorem grouping_reads (hexpr : ReadsExprs decimal state.words.length expr) {value : Expr}
    (spelled : value.Spelled Admits)
    (words : state.words = mark openParen :: (value.words decimal ++ mark closeParen :: tail)) :
    Reads Passes (grouping expr) state fun value' after =>
      value'.bare = value.bare ∧ after.words = skip tail := by
  apply (take_reads words (by simp [mark])).discard.bind
  intro _ mid _ taken
  obtain ⟨_, _, ahead⟩ := taken
  rw [spelled.skip_words] at ahead
  have below : mid.words.length < state.words.length := by
    rw [words, ahead]
    exact Nat.lt_succ_self _
  apply (hexpr value mid _ below spelled ahead rfl).bind
  intro inner behind _ read
  apply (mark_reads read.2 (by simp)).bind
  intro _ after _ words
  exact .pure ⟨read.1, words⟩

/-- Printed values in brackets are read back. -/
theorem array_reads (hexpr : ReadsExprs decimal state.words.length expr) {values : List Expr}
    {span : Span} (spelled : ∀ value ∈ values, value.Spelled Admits)
    (words : state.words = (Expr.array values span).words decimal ++ tail) (ends : Ends tail) :
    Reads Passes (array expr) state fun value after =>
      value.bare = (Expr.array values span).bare ∧ after.words = tail := by
  simp only [Expr.words, Expr.bare, Expr.listWords_eq_map, Expr.listBare_eq_map, List.cons_append,
    List.append_assoc, List.nil_append] at words ⊢
  have starts : ∀ value ∈ values, ∃ word rest, value.words decimal = word :: rest ∧
      word.kind ≠ closeBracket ∧ word.kind.isBlank = false := by
    intro value listed
    obtain ⟨word, rest, words, starts⟩ := (spelled value listed).head decimal
    exact ⟨word, rest, words, ne_of_operandForm? starts rfl,
      isBlank_of_startsLine (startsLine_of_operandForm? starts)⟩
  apply (take_reads words (by simp [mark])).bind
  intro bracket opened _ taken
  obtain ⟨_, ahead⟩ := taken
  rw [skip_separated _ starts rfl] at ahead
  have shorter : opened.words.length < state.words.length := by
    rw [words, ahead]
    exact Nat.lt_succ_self _
  apply (commaSeparated_reads (Expr.words decimal)
    (fun sources items _ => items.map Expr.bare = sources.map Expr.bare)
    (fun _ _ _ _ _ held => held) starts (by simp) ?_ ahead rfl).bind
  · intro values' mid _ read
    apply (mark_reads read.1 (by simp)).bind
    intro _ after _ words
    rw [ends.skip_eq] at words
    apply Runs.spanSince_bind
    intro span
    exact .pure ⟨by rw [Expr.bare, Expr.listBare_eq_map, read.2], words⟩
  · intro front value back items inner behind all fewer words next held
    rw [← length_words, ← length_words] at fewer
    have ends : Ends behind := by
      rcases next with next | next <;> rw [Ends, next] <;> rfl
    apply (hexpr value inner behind (Nat.lt_of_le_of_lt fewer shorter) (spelled value (by simp [all]))
      words ends).mono
    intro value' after _ read
    exact ⟨read.2, by simp only [List.map_append, held, List.map_cons, List.map_nil, read.1]⟩

/-- A number of digits is read with the sign before it. -/
theorem read?_natural {value : Int} (fits : Number.Signed64.fits value = true) :
    if value < 0 then
      Number.Signed64.read? ('-' :: (natural value.natAbs).value.toList) = some value
    else Number.Signed64.read? (natural value.natAbs).value.toList = some value := by
  have numeral : Number.isNumeral (Nat.toDigits 10 value.natAbs) = true := by
    rw [Number.isNumeral, Bool.and_eq_true, List.all_eq_true]
    refine ⟨?_, fun c member => Nat.isDigit_of_mem_toDigits (by decide) (by decide) member⟩
    simp [Nat.toDigits_ne_nil]
  have unsigned : Number.splitSign (Nat.toDigits 10 value.natAbs) =
      (false, Nat.toDigits 10 value.natAbs) := by
    cases same : Nat.toDigits 10 value.natAbs with
    | nil => exact absurd same Nat.toDigits_ne_nil
    | cons first rest =>
        rw [same, Number.isNumeral, Bool.and_eq_true, List.all_cons, Bool.and_eq_true] at numeral
        exact splitSign_of_digit numeral.2.1
  rw [natural_toList]
  split
  · next negative =>
    have opposite : -(value.natAbs : Int) = value := by omega
    simp only [Number.Signed64.read?, Number.splitSign, numeral, digitsValue_toDigits, if_true,
      opposite, fits]
  · next positive =>
    have same : (value.natAbs : Int) = value := by omega
    simp only [Number.Signed64.read?, unsigned, numeral, digitsValue_toDigits, if_true, same, fits,
      Bool.false_eq_true, if_false]

/-- Digits are read with the sign before them, whatever blanks stand between. -/
theorem signed_reads_digits {digits : String} {value : Int} {rest : List Word}
    (read : Number.Signed64.read? ('-' :: digits.toList) = some value)
    (words : state.words = mark (.operator .minus) :: rest)
    (ahead : skip rest = ⟨.int, digits⟩ :: tail) :
    Reads Passes (signed operand) state fun expr after =>
      expr.bare = .literal (.int value) default ∧ after.words = skip tail := by
  apply (take_reads words (by simp [mark])).bind
  intro sign mid _ taken
  obtain ⟨minus, behind⟩ := taken
  rw [ahead] at behind
  have kind : sign.kind = .operator .minus := congrArg Word.kind minus
  rw [kind]
  apply Reads.kind_bind
  rw [behind]
  apply (take_reads behind (by simp)).bind
  intro token after _ taken
  obtain ⟨named, behind⟩ := taken
  have spelling : token.value = digits := congrArg Word.value named
  rw [spelling, read]
  exact .pure ⟨rfl, behind⟩

theorem signed_reads_int {value : Int} (fits : Number.Signed64.fits value = true)
    (negative : value < 0)
    (words : state.words = mark (.operator .minus) :: natural value.natAbs :: tail) :
    Reads Passes (signed operand) state fun expr after =>
      expr.bare = .literal (.int value) default ∧ after.words = skip tail := by
  have read := read?_natural fits
  rw [if_pos negative] at read
  exact signed_reads_digits read words (skip_of_not_blank rfl)

/-- An operator is read with the operand behind it, if that is not an integer. -/
theorem signed_reads_operand {operator : Operator} (unary : operator.isUnary = true)
    {value : Expr} {span : Span} {behind : List Word}
    (words : state.words = mark (.operator operator) :: behind)
    (ahead : skip behind = word :: tail) (other : word.kind ≠ int) {rest : List Word}
    (hoperand : ∀ mid, mid.words = word :: tail →
      Reads Passes operand mid fun value' after => value'.bare = value.bare ∧ after.words = rest) :
    Reads Passes (signed operand) state fun expr after =>
      expr.bare = (Expr.ofSigned operator value span).bare ∧ after.words = rest := by
  apply (take_reads words (by simp [mark])).bind
  intro sign mid _ taken
  obtain ⟨same, passed⟩ := taken
  rw [ahead] at passed
  have kind : sign.kind = .operator operator := congrArg Word.kind same
  simp only [kind, unary, if_true]
  apply Reads.kind_bind
  rw [passed, headKind, if_neg (fun both => other both.2)]
  apply (hoperand mid passed).bind
  intro inner after _ read
  exact .pure ⟨by rw [Expr.bare_ofSigned, Expr.bare_ofSigned, read.1], read.2⟩

/-- A member that is asked of a receiver is read back. -/
theorem member_reads_property {receiver receiver' : Expr} {name : Name} {span : Span}
    (kept : receiver'.bare = receiver.bare)
    (words : state.words = mark dot :: Word.name name.text :: tail) (ends : Ends tail) :
    Reads Passes (member expr receiver') state fun next after =>
      ∃ value, next = some value ∧ value.bare = (Expr.property receiver name span).bare ∧
        after.words = tail := by
  apply Reads.kind_bind
  rw [words, headKind, if_pos (by rfl)]
  apply (take_reads words (by simp [mark])).discard.bind
  intro _ mid _ taken
  obtain ⟨_, _, ahead⟩ := taken
  rw [skip_of_not_blank rfl] at ahead
  apply (expectName_reads ahead).bind
  intro token after _ taken
  obtain ⟨named, ahead⟩ := taken
  rw [ends.skip_eq] at ahead
  apply Reads.kind_bind
  rw [ahead, if_neg (ends.ne rfl)]
  apply Runs.spanSince_bind
  intro span
  have same : token.value = name.text := congrArg Word.value named
  exact .pure ⟨_, rfl, by rw [Expr.bare, Expr.bare, kept, Name.bare, nameOf, same]; rfl, ahead⟩

theorem member_reads_method (hexpr : ReadsExprs decimal bound expr)
    (within : state.words.length ≤ bound) {receiver receiver' : Expr} {callee : Name}
    {args : List Arg} {span : Span} (kept : receiver'.bare = receiver.bare)
    (spelled : ∀ arg ∈ args, arg.value.Spelled Admits)
    (words : state.words = mark dot :: Word.name callee.text :: mark openParen ::
      (separated (Arg.listWords decimal args) ++ mark closeParen :: tail)) (ends : Ends tail) :
    Reads Passes (member expr receiver') state fun next after =>
      ∃ value, next = some value ∧ value.bare = (Expr.method receiver callee args span).bare ∧
        after.words = tail := by
  apply Reads.kind_bind
  rw [words, headKind, if_pos (by rfl)]
  apply (take_reads words (by simp [mark])).discard.bind
  intro _ mid passes taken
  obtain ⟨_, _, ahead⟩ := taken
  rw [skip_of_not_blank rfl] at ahead
  apply (expectName_reads ahead).bind
  intro token behind passes' taken
  obtain ⟨named, ahead⟩ := taken
  rw [skip_of_not_blank rfl] at ahead
  apply Reads.kind_bind
  rw [ahead, headKind, if_pos (by rfl)]
  have shorter := (passes.trans passes').rest.length_le
  rw [← length_words, ← length_words] at shorter
  apply (arguments_reads hexpr (Nat.le_trans shorter within) spelled ahead).bind
  intro args' after _ read
  apply Runs.spanSince_bind
  intro span
  have same : token.value = callee.text := congrArg Word.value named
  rw [ends.skip_eq] at read
  refine .pure ⟨_, rfl, ?_, read.2⟩
  rw [Expr.bare, Expr.bare, kept, Name.bare, nameOf, same, read.1]
  rfl

/-- Where no point follows, no member is asked of a receiver. -/
theorem members_reads_none {receiver : Expr} (h : headKind state.words ≠ dot) :
    Reads Passes (iterate (member expr) receiver) state fun value after =>
      value = receiver ∧ after.words = state.words := by
  apply Runs.iterate (fun value inner => value = receiver ∧ inner.words = state.words)
  · intro value inner _ kept
    apply Reads.kind_bind
    rw [kept.2, if_neg h]
    exact .pure kept
  · exact ⟨rfl, rfl⟩

/-- One member is asked of a receiver, and no other. -/
theorem members_reads_one {receiver value : Expr} {rest : List Word}
    (words : state.words = mark dot :: rest) (fewer : tail.length ≤ rest.length)
    (ends : Ends tail)
    (hmember : ∀ inner, inner.rest.length ≤ state.rest.length → inner.words = mark dot :: rest →
      Reads Passes (member expr receiver) inner fun next after =>
        ∃ value', next = some value' ∧ value'.bare = value.bare ∧ after.words = tail) :
    Reads Passes (iterate (member expr) receiver) state fun value' after =>
      value'.bare = value.bare ∧ after.words = tail := by
  apply Runs.iterate (fun value' inner => value' = receiver ∧ inner.words = mark dot :: rest ∨
    value'.bare = value.bare ∧ inner.words = tail)
  · intro value' inner within kept
    rcases kept with ⟨rfl, same⟩ | kept
    · apply (hmember inner within same).mono
      intro next after _ read
      obtain ⟨value', rfl, read⟩ := read
      refine ⟨?_, .inr read⟩
      rw [← length_words, ← length_words, same, read.2]
      exact Nat.lt_succ_of_le fewer
    · apply Reads.kind_bind
      rw [kept.2, if_neg (ends.ne rfl)]
      exact .pure kept
  · exact .inl ⟨rfl, words⟩

/-- An operand is read in the form that its first token starts, and then its members are. -/
theorem operandWith_reads {form : OperandForm} {returns mids : Expr → ParseState → Prop}
    (starts : Grammar.full.operandForm? (headKind state.words) = some form)
    (hform : Reads Passes (operandForm expr operand form) state mids)
    (hmembers : ∀ value after, state.Passes after → mids value after →
      Reads Passes (iterate (member expr) value) after returns) :
    Reads Passes (operandWith expr operand) state returns := by
  intro ready
  refine Runs.get_bind ?_ ready
  rw [ready.grammar, ready.kind_eq, starts]
  exact hform.bind hmembers

/-- An operand without members is read in the form that its first token starts. -/
theorem operandWith_reads_alone {form : OperandForm} {value : Expr}
    (starts : Grammar.full.operandForm? (headKind state.words) = some form)
    (hform : Reads Passes (operandForm expr operand form) state fun value' after =>
      value'.bare = value.bare ∧ after.words = tail) (other : headKind tail ≠ dot) :
    Reads Passes (operandWith expr operand) state fun value' after =>
      value'.bare = value.bare ∧ after.words = tail := by
  apply operandWith_reads starts hform
  intro value' mid _ read
  apply (members_reads_none (by rw [read.2]; exact other)).mono
  intro value'' after _ same
  exact ⟨by rw [same.1, read.1], same.2.trans read.2⟩

/-- Printed constants are read back. -/
theorem operandWith_reads_literal (hoperand : ReadsOperands decimal state.words.length operand)
    (faithful : Faithful decimal) {value : Literal} {span : Span}
    (spelled : value.Spelled Admits) (words : state.words = value.words decimal ++ tail)
    (ends : Ends tail) :
    Reads Passes (operandWith expr operand) state fun expr' after =>
      expr'.bare = (Expr.literal value span).bare ∧ after.words = tail := by
  have token : ∀ {word : Word}, state.words = word :: tail → word.literal? = some value →
      Grammar.full.operandForm? word.kind = some .primary →
      Reads Passes (operandWith expr operand) state fun expr' after =>
        expr'.bare = (Expr.literal value span).bare ∧ after.words = tail := by
    intro word words denotes starts
    apply operandWith_reads_alone (by rw [words]; exact starts) _ (ends.ne rfl)
    rw [← ends.skip_eq]
    exact primary_reads words denotes
  cases value with
  | null => exact token words rfl rfl
  | bool value => cases value <;> exact token words rfl rfl
  | string value => exact token words rfl rfl
  | int value =>
      have read := read?_natural spelled
      rw [Literal.words] at words
      split at words
      · next negative =>
        apply operandWith_reads_alone (by rw [words]; rfl) _ (ends.ne rfl)
        rw [← ends.skip_eq]
        exact signed_reads_int spelled negative words
      · next positive =>
        rw [if_neg positive] at read
        exact token words (by rw [Word.literal?, read]; rfl) rfl
  | float value =>
      obtain ⟨digits, read⟩ := read?_magnitude faithful spelled
      rw [Literal.words] at words
      split at words
      · next negative =>
        have unsigned : value.magnitude = value.negate := if_pos negative
        have positive : value.magnitude.isNegative = false := isNegative_of_read? digits read
        have same : value.magnitude.magnitude = value.magnitude := by
          rw [Number.Binary64.magnitude, positive, if_neg (by simp)]
        have folded : (Expr.ofSigned .minus (.literal (.float value.magnitude) span) span) =
            .literal (.float value) span := by
          rw [Expr.ofSigned, unsigned, negate_negate]
        apply operandWith_reads_alone (by rw [words]; rfl) _ (ends.ne rfl)
        rw [← folded]
        apply signed_reads_operand rfl words (skip_of_not_blank rfl) (by simp)
        intro mid ahead
        apply hoperand.plain
        · rw [words, ahead]
          exact Nat.lt_succ_self _
        · exact .literal ⟨_, digits, .inl read⟩
        · intro _ _ _ _ same
          cases same
        · rw [ahead, Expr.words, Literal.words, positive, if_neg (by simp), same]
          rfl
        · exact ends
      · next positive =>
        have same : value.magnitude = value := if_neg positive
        rw [same] at read words
        exact token words (by rw [Word.literal?, read]; rfl) rfl

/-- An operand in parentheses is read back, and then the one member that is asked of it. -/
theorem operandWith_reads_member (hexpr : ReadsExprs decimal state.words.length expr)
    {receiver value : Expr} {rest : List Word} (spelled : receiver.Spelled Admits)
    (words : state.words =
      mark openParen :: (receiver.words decimal ++ mark closeParen :: mark dot :: rest))
    (fewer : tail.length ≤ rest.length) (ends : Ends tail)
    (hmember : ∀ receiver' inner, receiver'.bare = receiver.bare →
      inner.words = mark dot :: rest → inner.words.length ≤ state.words.length →
      Reads Passes (member expr receiver') inner fun next after =>
        ∃ value', next = some value' ∧ value'.bare = value.bare ∧ after.words = tail) :
    Reads Passes (operandWith expr operand) state fun value' after =>
      value'.bare = value.bare ∧ after.words = tail := by
  have starts : Grammar.full.operandForm? (headKind state.words) = some .grouping := by
    rw [words]
    rfl
  apply operandWith_reads starts (grouping_reads hexpr spelled words)
  intro receiver' mid passes read
  have ahead : mid.words = mark dot :: rest := read.2.trans (skip_of_not_blank rfl)
  have shorter := passes.rest.length_le
  apply members_reads_one ahead fewer ends
  intro inner fewer same
  apply hmember receiver' inner read.1 same
  rw [length_words, length_words]
  exact Nat.le_trans fewer shorter

/-- Printed operands are read back, given readers for what is inside them. -/
theorem operandWith_reads_plain (hexpr : ReadsExprs decimal state.words.length expr)
    (hoperand : ReadsOperands decimal state.words.length operand) (faithful : Faithful decimal)
    {value : Expr} (spelled : value.Spelled Admits)
    (simple : ∀ operator left right span, value ≠ .binary operator left right span)
    (words : state.words = value.words decimal ++ tail) (ends : Ends tail) :
    Reads Passes (operandWith expr operand) state fun value' after =>
      value'.bare = value.bare ∧ after.words = tail := by
  cases spelled with
  | literal spelled => exact operandWith_reads_literal hoperand faithful spelled words ends
  | array spelled =>
      apply operandWith_reads_alone (by rw [words]; rfl) _ (ends.ne rfl)
      exact array_reads hexpr spelled words ends
  | reference _ =>
      apply operandWith_reads_alone (by rw [words]; rfl) _ (ends.ne rfl)
      exact symbol_reads_reference words ends
  | binary _ _ _ => exact absurd rfl (simple _ _ _ _)
  | @unary operator operand' span unary spelled stays =>
      simp only [Expr.words, List.cons_append, List.append_assoc, List.nil_append] at words
      have starts : Grammar.full.operandForm? (headKind state.words) = some .signed := by
        rw [words]
        simp [Grammar.full, mark, unary]
      apply operandWith_reads_alone starts _ (ends.ne rfl)
      rw [← stays span]
      apply signed_reads_operand unary words (skip_of_not_blank rfl) (by simp [mark])
      intro mid ahead
      rw [← ends.skip_eq]
      apply hoperand.enclosed operand' mid tail _ spelled ahead
      · rw [ends.skip_eq]
        exact ends.ne rfl
      · rw [words, ahead]
        exact Nat.lt_succ_self _
  | call _ _ spelled =>
      apply operandWith_reads_alone (by rw [words]; rfl) _ (ends.ne rfl)
      exact symbol_reads_call hexpr spelled words ends
  | @method receiver callee args span spelledReceiver _ _ spelled =>
      simp only [Expr.words, List.cons_append, List.append_assoc, List.nil_append] at words
      apply operandWith_reads_member hexpr spelledReceiver words _ ends
      · intro receiver' inner kept words within
        exact member_reads_method hexpr within kept spelled words ends
      · simp
        omega
  | @property receiver member span spelled _ =>
      simp only [Expr.words, List.cons_append, List.append_assoc, List.nil_append] at words
      apply operandWith_reads_member hexpr spelled words (Nat.le_succ _) ends
      intro receiver' inner kept words _
      exact member_reads_property kept words ends

theorem operandWith_reads_enclosed (hexpr : ReadsExprs decimal state.words.length expr)
    {value : Expr} (spelled : value.Spelled Admits)
    (words : state.words = mark openParen :: (value.words decimal ++ mark closeParen :: tail))
    (other : headKind (skip tail) ≠ dot) :
    Reads Passes (operandWith expr operand) state fun value' after =>
      value'.bare = value.bare ∧ after.words = skip tail := by
  apply operandWith_reads_alone (by rw [words]; rfl) _ other
  exact grouping_reads hexpr spelled words

end Operands

section Operators

variable {decimal : Number.Binary64 → String} {bound : Nat} {operand : ParseM Expr}
  {state : ParseState} {tail : List Word}

/-- An operator is read with the printed operand behind it. -/
theorem binaryWith_reads (hoperand : ReadsOperands decimal state.words.length operand)
    {climb : Nat → Expr → ParseM Expr} {operator : Operator} {left left' right : Expr}
    {precedence : Precedence} {span : Span} (same : left'.bare = left.bare)
    (spelled : right.Spelled Admits)
    (words : state.words = mark (.operator operator) :: mark space :: mark openParen ::
      (right.words decimal ++ mark closeParen :: tail)) (ends : Ends tail) :
    Reads Passes (binaryWith operand climb left' precedence) state fun value after =>
      value.bare = (Expr.binary operator left right span).bare ∧ after.words = tail := by
  apply (take_reads words (by simp [mark])).bind
  intro token mid _ taken
  obtain ⟨read, ahead⟩ := taken
  rw [skip_cons_of_blank rfl, skip_of_not_blank rfl] at ahead
  have kind : token.kind = .operator operator := congrArg Word.kind read
  rw [kind]
  have below : mid.words.length < state.words.length := by
    rw [words, ahead]
    simp
  have other : headKind (skip tail) ≠ dot := by
    rw [ends.skip_eq]
    exact ends.ne rfl
  apply (hoperand.enclosed right mid tail below spelled ahead other).bind
  intro right' after _ read
  rw [ends.skip_eq] at read
  intro ready
  refine Runs.get_bind ?_ ready
  rw [ready.grammar, ready.kind_eq, read.2, ends.precedence?]
  exact .pure ⟨by rw [Expr.bare, Expr.bare, same, read.1], read.2⟩

/-- Where an expression ends, no operator is taken. -/
theorem climbWithin_reads_none {times least : Nat} {left : Expr} (enough : 0 < times)
    (ends : Grammar.full.precedence? (headKind state.words) = none) :
    Reads Passes (climbWithin operand times least left) state fun value after =>
      value = left ∧ after.words = state.words := by
  cases times with
  | zero => cases enough
  | succ times =>
      intro ready
      refine Runs.get_bind ?_ ready
      rw [ready.grammar, ready.kind_eq, ends]
      exact .pure ⟨rfl, rfl⟩

theorem exprWith_reads_binary (hoperand : ReadsOperands decimal bound operand)
    {operator : Operator} {left right : Expr} {span : Span} (below : state.words.length < bound)
    (binds : (Grammar.operatorPrecedence? operator).isSome)
    (spelledLeft : left.Spelled Admits) (spelledRight : right.Spelled Admits)
    (words : state.words = (Expr.binary operator left right span).words decimal ++ tail)
    (ends : Ends tail) :
    Reads Passes (exprWith operand Precedence.default.level) state fun value after =>
      value.bare = (Expr.binary operator left right span).bare ∧ after.words = tail := by
  simp only [Expr.words, List.cons_append, List.append_assoc, List.nil_append] at words
  apply (hoperand.enclosed left state _ below spelledLeft words (by simp [skip, mark, isBlank])).bind
  intro left' mid passes read
  rw [skip_cons_of_blank rfl, skip_of_not_blank rfl] at read
  obtain ⟨kept, ahead⟩ := read
  have within : mid.words.length ≤ bound := by
    have shorter := passes.rest.length_le
    rw [← length_words, ← length_words] at shorter
    exact Nat.le_trans shorter (Nat.le_of_lt below)
  have inside : 0 < mid.rest.length := by
    rw [← length_words, ahead]
    exact Nat.succ_pos _
  obtain ⟨precedence, found⟩ := Option.isSome_iff_exists.1 binds
  apply Runs.budget_bind
  intro ready
  refine Runs.get_bind ?_ ready
  have form : Grammar.full.precedence? mid.kind = some precedence := by
    rw [ready.kind_eq, ahead]
    exact found
  have loosest : ¬ precedence.level < Precedence.default.level := Nat.not_lt_zero _
  simp only [ready.grammar, form, if_neg loosest]
  apply (binaryWith_reads (hoperand.mono within) kept spelledRight ahead ends).bind
  intro value after _ read
  apply (climbWithin_reads_none inside (by rw [read.2]; exact ends.precedence?)).mono
  intro value' last _ same
  exact ⟨by rw [same.1, read.1], same.2.trans read.2⟩

/-- Printed expressions are read back. -/
theorem exprWith_reads (hoperand : ReadsOperands decimal bound operand) :
    ReadsExprs decimal bound (exprWith operand Precedence.default.level) := by
  intro expr state tail below spelled words ends
  by_cases simple : ∀ operator left right span, expr ≠ .binary operator left right span
  · apply (hoperand.plain expr state tail below spelled simple words ends).bind
    intro value mid _ read
    apply Runs.budget_bind
    apply (climbWithin_reads_none (Nat.succ_pos _) (by rw [read.2]; exact ends.precedence?)).mono
    intro value' after _ same
    exact ⟨by rw [same.1, read.1], same.2.trans read.2⟩
  · simp only [not_forall, not_not] at simple
    obtain ⟨operator, left, right, span, rfl⟩ := simple
    cases spelled with
    | binary binds spelledLeft spelledRight =>
        exact exprWith_reads_binary hoperand below binds spelledLeft spelledRight words ends

end Operators

/-- Readers of operands that nest at most some levels deep read printed operands back where fewer
words are left. -/
theorem operandWithin_reads {decimal : Number.Binary64 → String} (faithful : Faithful decimal)
    (levels : Nat) : ReadsOperands decimal levels (operandWithin levels) := by
  induction levels with
  | zero =>
      constructor
      · intro expr state tail below
        exact absurd below (Nat.not_lt_zero _)
      · intro expr state tail below
        exact absurd below (Nat.not_lt_zero _)
  | succ levels ih =>
      have inner : ∀ {state : ParseState}, state.words.length < levels + 1 →
          ReadsOperands decimal state.words.length (operandWithin levels) :=
        fun below => ih.mono (Nat.le_of_lt_succ below)
      constructor
      · intro expr state tail below spelled words other
        exact operandWith_reads_enclosed (exprWith_reads (inner below)) spelled words other
      · intro expr state tail below spelled simple words ends
        exact operandWith_reads_plain (exprWith_reads (inner below)) (inner below) faithful spelled
          simple words ends

/-- A printed expression is read back, up to a token that ends expressions. -/
theorem expr_reads {decimal : Number.Binary64 → String} (faithful : Faithful decimal)
    {state : ParseState} {value : Expr} {tail : List Word} (spelled : value.Spelled Admits)
    (words : state.words = value.words decimal ++ tail) (ends : Ends tail) :
    Reads Passes expr state fun value' after =>
      value'.bare = value.bare ∧ after.words = tail := by
  have operands : ReadsOperands decimal (state.words.length + 1) operand := by
    constructor
    · intro expr inner tail _ spelled words other
      apply Runs.budget_bind
      rw [← length_words]
      exact (operandWithin_reads faithful _).enclosed expr inner tail (Nat.lt_succ_self _) spelled
        words other
    · intro expr inner tail _ spelled simple words ends
      apply Runs.budget_bind
      rw [← length_words]
      exact (operandWithin_reads faithful _).plain expr inner tail (Nat.lt_succ_self _) spelled
        simple words ends
  exact exprWith_reads operands value state tail (Nat.lt_succ_self _) spelled words ends

end Offside
