import Offside.Token.Lexer
import Mathlib.Data.List.TakeWhile

/-! # Values of tokens

What the value of a token can be is decided by its kind. A text that is not split into tokens fails
for a reason of its own, and not for one that later stages give.
-/

namespace Offside

open Lexeme

/-- A text that a name may be, if no keyword is spelled so. -/
def IsWord (text : List Char) : Prop :=
  ∃ first rest, text = first :: rest ∧ isWordStart first = true ∧
    ∀ c ∈ rest, isWordPart c = true

/-- Digits, a point and perhaps more digits. -/
def IsDecimal (text : List Char) : Prop :=
  ∃ first whole fraction, text = first :: whole ++ '.' :: fraction ∧ first.isDigit = true ∧
    (∀ c ∈ whole, c.isDigit = true) ∧ ∀ c ∈ fraction, c.isDigit = true

/-- A token of a kind can have a value. -/
def TokenKind.Admits : TokenKind → String → Prop
  | identifier, value => IsWord value.toList ∧ ofKeyword? value = none
  | nullWord, value => value = "null"
  | float, value => IsDecimal value.toList
  | string, value => ∃ quote, isQuote quote = true ∧ quote ∉ value.toList
  | _, _ => True

/-- What a kind of token demands of a lexeme of that kind. A comment may be anything. -/
def Lexeme.Admitted (lexeme : Lexeme) : Prop :=
  ∀ kind, lexeme.kind? = some kind → kind.Admits (String.ofList lexeme.value)

/-- Reading gives a lexeme with a value that its kind admits, or fails as splitting does. -/
def Lexeme.Proper : Except ErrorCause Lexeme → Prop
  | .ok lexeme => lexeme.Admitted
  | .error cause => cause.category = .lex

section Words

theorem keyword_mem {word : String} {kind : TokenKind} (h : TokenKind.ofKeyword? word = some kind) :
    (word, kind) ∈ TokenKind.keywords := by
  obtain ⟨before, after, same, -⟩ := List.lookup_eq_some_iff.1 h
  simp [same]

theorem word_admitted {first : Char} (rest : List Char) (start : isWordStart first = true) :
    (word first rest).Admitted := by
  intro kind h
  simp only [word, spelled, Option.some.injEq] at h ⊢
  cases found : TokenKind.ofKeyword? (String.ofList (first :: rest.takeWhile isWordPart)) with
  | none =>
      rw [found] at h
      cases h
      refine ⟨⟨first, _, String.toList_ofList, start, fun c member => ?_⟩, found⟩
      exact List.mem_takeWhile_imp member
  | some other =>
      rw [found] at h
      cases h
      have listed := keyword_mem found
      simp only [TokenKind.keywords, List.mem_cons, List.not_mem_nil, or_false, Prod.mk.injEq]
        at listed
      rcases listed with h | h | h | h | h | h | h | h | h | h | h | h | h | h
      all_goals
        obtain ⟨spelling, rfl⟩ := h
        trivial

end Words

section Numbers

theorem decimal_of_numberKind? {first : Char} {rest : List Char} (start : first.isDigit = true)
    (h : numberKind? (first :: rest) = some .float) : IsDecimal (first :: rest) := by
  have plain : (first != '.') = true := by
    cases hfirst : first != '.' with
    | true => rfl
    | false =>
        rw [bne_eq_false_iff_eq] at hfirst
        rw [hfirst] at start
        exact absurd start (by decide)
  have split := List.takeWhile_append_dropWhile (p := fun c => c != '.') (l := rest)
  simp only [numberKind?, List.takeWhile_cons, List.dropWhile_cons, plain, if_true] at h
  split at h
  · next digits =>
    split at h
    · split at h <;> cases h
    · next mark fraction behind =>
      split at h
      · next digits' =>
        rw [behind] at split
        have point : mark = '.' := by
          have := List.head?_dropWhile_not (fun c => c != '.') rest
          simpa [behind] using this
        rw [List.all_cons, Bool.and_eq_true] at digits
        refine ⟨first, rest.takeWhile fun c => c != '.', fraction, ?_, start,
          List.all_eq_true.1 digits.2, List.all_eq_true.1 digits'⟩
        rw [point] at split
        rw [List.cons_append, split]
      · cases h
  · cases h

theorem numberKind?_cases {slice : List Char} {kind : TokenKind} (h : numberKind? slice = some kind) :
    kind = .int ∨ kind = .float := by
  unfold numberKind? at h
  grind

theorem number_proper {first : Char} (rest : List Char) (start : first.isDigit = true) :
    Proper (number first rest) := by
  unfold number
  simp only
  split
  · next kind h =>
    intro other same
    cases same
    rcases numberKind?_cases h with rfl | rfl
    · trivial
    · change IsDecimal (String.toList (String.ofList _))
      rw [String.toList_ofList]
      exact decimal_of_numberKind? start h
  · rfl

end Numbers

theorem string_proper {quote : Char} (rest : List Char) (opens : isQuote quote = true) :
    Proper (Lexeme.string quote rest) := by
  unfold Lexeme.string
  simp only
  split
  · rfl
  · intro kind same
    cases same
    refine ⟨quote, opens, fun member => ?_⟩
    simp only [String.toList_ofList] at member
    have := List.mem_takeWhile_imp member
    simp at this

theorem shortOperator_proper (first : Char) : Proper (shortOperator first) := by
  unfold shortOperator
  split
  · rintro kind ⟨⟩
    trivial
  · rfl

theorem operator_proper (first : Char) (rest : List Char) : Proper (operator first rest) := by
  unfold operator
  split
  · split
    · split
      · rintro kind ⟨⟩
        trivial
      · exact shortOperator_proper first
    · exact shortOperator_proper first
  · exact shortOperator_proper first

theorem mark?_admits {first : Char} {value : String} :
    TokenKind.Admits ((mark? first).getD .unknown) value := by
  unfold mark?
  split <;> trivial

theorem read_proper (first : Char) (rest : List Char) : Proper (Lexeme.read first rest) := by
  unfold Lexeme.read
  split
  · rintro kind ⟨⟩
  split
  · unfold lineBreak
    split <;> rintro kind ⟨⟩ <;> trivial
  split
  · next start => exact word_admitted rest start
  split
  · next start => exact number_proper rest start
  split
  · next opens => exact string_proper rest opens
  split
  · exact operator_proper first rest
  split
  · unfold dots
    split <;> rintro kind ⟨⟩ <;> trivial
  · rintro kind ⟨⟩
    exact mark?_admits

/-- The tokens of a text have values that their kinds admit. A text without tokens is at fault
itself. -/
theorem scanFrom_outcome (file : String) (byte inside : Nat) (text : List Char) :
    match Token.scanFrom file byte inside text with
    | .ok tokens => ∀ token ∈ tokens, token.kind.Admits token.value
    | .error error => error.cause.category = .lex := by
  induction text generalizing byte inside with
  | nil =>
      intro token member
      cases List.mem_singleton.1 member
      trivial
  | cons c rest ih =>
      cases inside with
      | succ inside => exact ih _ inside
      | zero =>
          have proper := read_proper c rest
          unfold Token.scanFrom
          cases read : Lexeme.read c rest with
          | error cause =>
              rw [read] at proper
              exact proper
          | ok lexeme =>
              rw [read] at proper
              have behind := ih (byte + c.utf8Size) (lexeme.slice.length - 1)
              simp only
              cases scanned : Token.scanFrom file (byte + c.utf8Size) (lexeme.slice.length - 1)
                  rest with
              | error error =>
                  rw [scanned] at behind
                  exact behind
              | ok tokens =>
                  rw [scanned] at behind
                  intro token member
                  rcases List.mem_append.1 member with member | member
                  · rw [Option.mem_toList, Lexeme.token?, Option.map_eq_some_iff] at member
                    obtain ⟨kind, same, rfl⟩ := member
                    exact proper kind same
                  · exact behind token member

theorem scan_outcome (source file : String) :
    match Token.scan source file with
    | .ok tokens => ∀ token ∈ tokens, token.kind.Admits token.value
    | .error error => error.cause.category = .lex :=
  scanFrom_outcome file 0 0 source.toList

end Offside
