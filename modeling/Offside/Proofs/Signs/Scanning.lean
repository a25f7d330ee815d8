import Mathlib.Data.List.TakeWhile
import Offside.Proofs.Lexing.Words

/-! # Signs and digits are scanned

Minus signs with blanks behind them are scanned sign by sign, and the digits behind the last of them
are a token of their own, or are refused where they stand if their value is beyond the greatest
magnitude of an integer.
-/

namespace Offside

open Lexeme Word

/-- Minus signs, each with the blanks behind it. -/
def signs (gaps : List (List Char)) : List Char :=
  gaps.flatMap fun gap => '-' :: gap

/-- Whether some characters are spaces and tabs. -/
def OnlyBlanks (gap : List Char) : Prop :=
  ∀ c ∈ gap, c = ' ' ∨ c = '\t'

/-- The word that a space or a tab is. -/
def Word.blank (c : Char) : Word :=
  ⟨if c = '\t' then .tab else .space, String.ofList [c]⟩

/-- The words of minus signs and the blanks behind them. -/
def signWords (gaps : List (List Char)) : List Word :=
  gaps.flatMap fun gap => mark (.operator .minus) :: gap.map blank

section Signs

variable {rest digits : List Char} {gap : List Char} {gaps : List (List Char)} {c : Char}

theorem listText_blanks (gap : List Char) : listText (gap.map blank) = gap := by
  induction gap with
  | nil => rfl
  | cons c gap ih =>
      have text : (blank c).text = [c] := by
        rw [Word.text, if_neg (by rw [blank]; split <;> simp)]
        simp [blank]
      rw [List.map_cons, listText_cons, text, ih]
      rfl

theorem listText_signWords (gaps : List (List Char)) : listText (signWords gaps) = signs gaps := by
  induction gaps with
  | nil => rfl
  | cons gap gaps ih =>
      have words : signWords (gap :: gaps) =
        mark (.operator .minus) :: (gap.map blank ++ signWords gaps) := rfl
      rw [words, listText_cons, listText_append, listText_blanks, ih]
      rfl

/-- Neither a second minus sign nor anything that is in no operator makes a minus sign longer. -/
theorem minus_readsBefore (stop : ∀ c ∈ rest.head?, c = '-' ∨ isOperatorPart c = false) :
    (mark (.operator .minus)).ReadsBefore rest := by
  cases rest with
  | nil => exact operator_readsBefore .minus (by simp)
  | cons c rest =>
      rcases stop c rfl with rfl | other
      · exact ⟨'-', [], rfl, rfl⟩
      · exact operator_readsBefore .minus (by simpa using other)

theorem blank_readsBefore (h : c = ' ' ∨ c = '\t') : (blank c).ReadsBefore rest := by
  rcases h with rfl | rfl <;> exact ⟨_, [], rfl, rfl⟩

theorem LegibleBefore.blanks {words : List Word} (h : OnlyBlanks gap)
    (legible : LegibleBefore rest words) : LegibleBefore rest (gap.map blank ++ words) := by
  induction gap with
  | nil => exact legible
  | cons c gap ih =>
      exact ⟨blank_readsBefore (h c (by simp)), ih fun c member => h c (by simp [member])⟩

/-- No operator is longer than a minus sign before signs, blanks and digits. -/
theorem head?_signs (h : ∀ gap ∈ gaps, OnlyBlanks gap) (decimal : ∀ c ∈ digits, c.isDigit = true) :
    ∀ c ∈ (signs gaps ++ digits).head?, c = '-' ∨ isOperatorPart c = false := by
  intro c member
  cases gaps with
  | nil => exact .inr (isOperatorPart_of_isDigit (decimal c (List.mem_of_mem_head? member)))
  | cons gap gaps =>
      cases member
      exact .inl rfl

theorem head?_blanks (h : OnlyBlanks gap)
    (stop : ∀ c ∈ rest.head?, c = '-' ∨ isOperatorPart c = false) :
    ∀ c ∈ (gap ++ rest).head?, c = '-' ∨ isOperatorPart c = false := by
  intro c member
  cases gap with
  | nil => exact stop c member
  | cons first gap =>
      cases member
      rcases h c (by simp) with rfl | rfl <;> exact .inr rfl

theorem legibleBefore_signWords (h : ∀ gap ∈ gaps, OnlyBlanks gap)
    (decimal : ∀ c ∈ digits, c.isDigit = true) : LegibleBefore digits (signWords gaps) := by
  induction gaps with
  | nil => trivial
  | cons gap gaps ih =>
      have here : OnlyBlanks gap := h gap (by simp)
      have behind : ∀ gap ∈ gaps, OnlyBlanks gap := fun gap member => h gap (by simp [member])
      refine ⟨minus_readsBefore ?_, (ih behind).blanks here⟩
      change ∀ c ∈ (listText (gap.map blank ++ signWords gaps) ++ digits).head?, _
      rw [listText_append, listText_blanks, listText_signWords, List.append_assoc]
      exact head?_blanks here (head?_signs behind decimal)

end Signs

section Digits

variable {digits : List Char}

/-- Digits alone are one token, or are refused if they are beyond the greatest magnitude. -/
theorem scanFrom_digits (file : String) (byte : Nat) (some : digits ≠ [])
    (decimal : ∀ c ∈ digits, c.isDigit = true) :
    Token.scanFrom file byte 0 digits =
      if Number.digitsValue digits ≤ greatestMagnitude then
        .ok [⟨.int, String.ofList digits, Span.ofBytes file byte (byteLength digits)⟩,
          .endOfInput (Position.ofByte file (byte + byteLength digits))]
      else .error ⟨.numberParseError (String.ofList digits), Position.ofByte file byte⟩ := by
  cases digits with
  | nil => exact absurd rfl some
  | cons first tail =>
      have parts : ∀ c ∈ tail, isNumberPart c = true := fun c member =>
        isNumberPart_of_isDigit (decimal c (by simp [member]))
      have whole : tail.takeWhile isNumberPart = tail :=
        List.takeWhile_eq_self_iff.2 parts
      rw [Token.scanFrom, read_eq_number (decimal first (by simp)), number, whole,
        numberKind?_of_isDigit decimal]
      by_cases fits : Number.digitsValue (first :: tail) ≤ greatestMagnitude
      · have behind := scanFrom_inside file (byte + first.utf8Size) tail []
        rw [List.append_nil] at behind
        simp only [fits, if_true, spelled, List.length_cons, Nat.add_sub_cancel, behind]
        simp [Token.scanFrom, Lexeme.token?, Nat.add_assoc]
      · simp only [fits, if_false]

/-- Signs and digits are scanned word by word, and refused where the digits stand if these are
beyond the greatest magnitude. -/
theorem scan_signs (file : String) {gaps : List (List Char)} (blank : ∀ gap ∈ gaps, OnlyBlanks gap)
    (some : digits ≠ []) (decimal : ∀ c ∈ digits, c.isDigit = true) :
    if Number.digitsValue digits ≤ greatestMagnitude then
      ∃ tokens last, Token.scan (String.ofList (signs gaps ++ digits)) file =
          .ok (tokens ++ [last]) ∧
        tokens.map Token.word = signWords gaps ++ [⟨.int, String.ofList digits⟩] ∧ last.kind = .eof
    else Token.scan (String.ofList (signs gaps ++ digits)) file =
      .error ⟨.numberParseError (String.ofList digits),
        Position.ofByte file (byteLength (signs gaps))⟩ := by
  obtain ⟨front, words, scanned⟩ :=
    (legibleBefore_signWords blank decimal).scanFrom file 0
  rw [Token.scan, String.toList_ofList, ← listText_signWords, scanned,
    scanFrom_digits file _ some decimal]
  split
  · refine ⟨_, _, (congrArg Except.ok (List.append_assoc front [_] [_]).symm), ?_, rfl⟩
    rw [List.map_append, words]
    rfl
  · rw [Nat.zero_add]
    rfl

end Digits

end Offside
