import Offside.Proofs.Comparing.Runs
import Offside.Proofs.Lexing.Appending
import Mathlib.Data.List.DropRight

/-! # Lines of tokens

Tokens before the end of the input fall into lines. A line with words starts behind its blanks, and
the lines without words in front of it are left out.
-/

namespace Offside

open ParseState

theorem startsLine_of_word {kind : TokenKind} (word : kind.isBlank = false)
    (inside : kind.endsLine = false) : kind.startsLine = true := by
  cases kind <;> first | rfl | exact absurd word (by decide) | exact absurd inside (by decide)

theorem newline_of_endsLine {kind : TokenKind} (ends : kind.endsLine = true)
    (inside : kind ≠ .eof) : kind = .newline := by
  cases kind <;> first | rfl | exact absurd rfl inside | cases ends

theorem endsLine_of_isBlank {kind : TokenKind} (h : kind.isBlank = true) :
    kind.endsLine = false := by
  cases kind <;> first | rfl | cases h

section Blanks

variable {token : Token} {line ends behind rest front back : List Token}

@[simp] theorem afterBlanks_afterBlanks : afterBlanks (afterBlanks rest) = afterBlanks rest :=
  List.dropWhile_idempotent _ _

theorem afterBlanks_cons_of_word (word : token.kind.isBlank = false) :
    afterBlanks (token :: rest) = token :: rest := by
  rw [afterBlanks, List.dropWhile_cons, word]
  rfl

theorem isBlank_of_afterBlanks_cons (h : afterBlanks (token :: rest) = token :: rest) :
    token.kind.isBlank = false := by
  cases blank : token.kind.isBlank with
  | false => rfl
  | true =>
      rw [afterBlanks, List.dropWhile_cons, if_pos blank] at h
      have suffix : token :: rest <:+ rest := h ▸ List.dropWhile_suffix _
      have shorter := suffix.length_le
      rw [List.length_cons] at shorter
      omega

theorem afterBlanks_append_of_word (word : ∃ token ∈ front, token.kind.isBlank = false) :
    afterBlanks (front ++ back) = afterBlanks front ++ back :=
  dropWhile_append_of_mem word

theorem afterBlanks_of_blanks (blank : ∀ token ∈ front, token.kind.isBlank = true) :
    afterBlanks (front ++ back) = afterBlanks back :=
  List.dropWhile_append_of_pos blank

/-- The end of a line is not blank. -/
theorem afterBlanks_append_of_lineEnd (h : LineEnd ends behind) :
    afterBlanks (line ++ ends) = afterBlanks line ++ ends := by
  by_cases word : ∃ token ∈ line, token.kind.isBlank = false
  · exact afterBlanks_append_of_word word
  · have blank : ∀ token ∈ line, token.kind.isBlank = true := by simpa using word
    have none : afterBlanks line = [] := List.dropWhile_eq_nil_iff.2 blank
    rw [afterBlanks_of_blanks blank, none, List.nil_append]
    cases h with
    | eof => rfl
    | newline newline => exact afterBlanks_cons_of_word (by rw [newline]; rfl)

end Blanks

/-- A line that some tokens start with, and what stands behind its end. -/
structure Splits (rest line behind : List Token) : Prop where
  plain : ∀ token ∈ line, token.kind.endsLine = false
  ends : ∃ ends, rest = line ++ ends ∧ LineEnd ends behind

section Splitting

variable {rest line behind front : List Token}

/-- A line goes on behind what is put in front of it. -/
theorem Splits.prepend (h : Splits rest line behind)
    (plain : ∀ token ∈ front, token.kind.endsLine = false) :
    Splits (front ++ rest) (front ++ line) behind := by
  obtain ⟨solid, ends, rfl, ending⟩ := h
  refine ⟨?_, ends, (List.append_assoc front line ends).symm, ending⟩
  rw [List.forall_mem_append]
  exact ⟨plain, solid⟩

theorem Splits.suffix (h : Splits rest line behind) : behind <:+ rest := by
  obtain ⟨-, ends, rfl, ending⟩ := h
  cases ending with
  | eof => exact List.nil_suffix
  | newline _ => exact (List.suffix_cons _ _).trans (List.suffix_append _ _)

/-- The blanks of a line are passed inside of it. -/
theorem Splits.afterBlanks (h : Splits rest line behind) :
    Splits (afterBlanks rest) (afterBlanks line) behind := by
  obtain ⟨plain, ends, rfl, ending⟩ := h
  refine ⟨?_, ends, afterBlanks_append_of_lineEnd ending, ending⟩
  exact fun token listed => plain token ((List.dropWhile_suffix _).subset listed)

/-- Tokens before the end of the input start with a line. -/
theorem exists_splits (inside : ∀ token ∈ rest, token.kind ≠ .eof) :
    ∃ line behind, Splits rest line behind := by
  induction rest with
  | nil => exact ⟨[], [], List.forall_mem_nil _, [], rfl, .eof⟩
  | cons token rest ih =>
      rw [List.forall_mem_cons] at inside
      cases ends : token.kind.endsLine with
      | true =>
          have newline := newline_of_endsLine ends inside.1
          exact ⟨[], rest, List.forall_mem_nil _, token :: rest, rfl, .newline newline⟩
      | false =>
          obtain ⟨line, behind, splits⟩ := ih inside.2
          exact ⟨token :: line, behind, splits.prepend (List.forall_mem_singleton.2 ends)⟩

end Splitting

/-- A line with words is what some tokens start with. -/
def StartsWithLine (rest : List Token) : Prop :=
  ∃ blanks token behind, rest = blanks ++ token :: behind ∧
    (∀ blank ∈ blanks, blank.kind.isBlank = true) ∧ token.kind.startsLine = true

section Leaving

variable {rest line blanks : List Token}

theorem StartsWithLine.afterBlanks_eq (h : StartsWithLine rest) :
    ∃ token behind, afterBlanks rest = token :: behind ∧ token.kind.startsLine = true ∧
      token ∈ rest := by
  obtain ⟨blanks, token, behind, rfl, blank, starts⟩ := h
  refine ⟨token, behind, ?_, starts, by simp⟩
  rw [afterBlanks_of_blanks blank, afterBlanks_cons_of_word (isBlank_of_startsLine starts)]

theorem StartsWithLine.exists_word (h : StartsWithLine rest) :
    ∃ token ∈ rest, token.kind.isBlank = false := by
  obtain ⟨token, behind, -, starts, listed⟩ := h.afterBlanks_eq
  exact ⟨token, listed, isBlank_of_startsLine starts⟩

/-- The first line of some tokens that start with words has them. -/
theorem StartsWithLine.splits (h : StartsWithLine rest)
    (inside : ∀ token ∈ rest, token.kind ≠ .eof) :
    ∃ line behind, Splits rest line behind ∧ ∃ token ∈ line, token.kind.isBlank = false := by
  obtain ⟨blanks, token, behind, rfl, blank, starts⟩ := h
  rw [List.forall_mem_append, List.forall_mem_cons] at inside
  obtain ⟨line, behind, splits⟩ := exists_splits inside.2.2
  refine ⟨blanks ++ token :: line, behind, ?_, token, by simp, isBlank_of_startsLine starts⟩
  apply (splits.prepend (List.forall_mem_singleton.2 (endsLine_of_startsLine starts))).prepend
  exact fun token listed => endsLine_of_isBlank (blank token listed)

theorem inside_dropBlankLines (inside : ∀ token ∈ rest, token.kind ≠ .eof) :
    ∀ token ∈ dropBlankLines rest rest, token.kind ≠ .eof :=
  fun token listed => inside token
    ((dropBlankLines_suffix rest rest rest List.suffix_rfl List.suffix_rfl).subset listed)

/-- Behind the lines without words, one with words follows, or nothing. -/
theorem startsWithLine_dropBlankLines (blank : ∀ token ∈ blanks, token.kind.isBlank = true)
    (inside : ∀ token ∈ rest, token.kind ≠ .eof) :
    dropBlankLines (blanks ++ rest) rest = [] ∨
      StartsWithLine (dropBlankLines (blanks ++ rest) rest) := by
  induction rest generalizing blanks with
  | nil => exact .inl rfl
  | cons token rest ih =>
      rw [List.forall_mem_cons] at inside
      unfold dropBlankLines
      split
      · next space =>
        rw [List.append_cons]
        apply ih _ inside.2
        simp only [List.forall_mem_append, List.forall_mem_singleton]
        exact ⟨blank, space⟩
      split
      · exact ih (List.forall_mem_nil _) inside.2
      · next word newline =>
        rw [if_neg inside.1]
        refine .inr ⟨blanks, token, rest, rfl, blank, startsLine_of_word (by simpa using word) ?_⟩
        cases ends : token.kind.endsLine with
        | false => rfl
        | true => exact absurd (newline_of_endsLine ends inside.1) newline

/-- No line is left out in front of a line with words. -/
theorem StartsWithLine.dropBlankLines_eq (h : StartsWithLine rest) :
    dropBlankLines line rest = line := by
  obtain ⟨blanks, token, behind, rfl, blank, starts⟩ := h
  induction blanks with
  | nil =>
      rw [List.nil_append, dropBlankLines, isBlank_of_startsLine starts, if_neg Bool.false_ne_true,
        if_neg, if_neg]
      · rintro eof
        rw [eof] at starts
        cases starts
      · rintro newline
        rw [newline] at starts
        cases starts
  | cons space blanks ih =>
      rw [List.forall_mem_cons] at blank
      rw [List.cons_append, dropBlankLines, if_pos blank.1]
      exact ih blank.2

/-- Where lines without words have been left out, none are left. -/
theorem dropBlankLines_idempotent (inside : ∀ token ∈ rest, token.kind ≠ .eof) :
    dropBlankLines (dropBlankLines rest rest) (dropBlankLines rest rest) =
      dropBlankLines rest rest := by
  obtain none | line := startsWithLine_dropBlankLines (List.forall_mem_nil _) inside
  · rw [List.nil_append] at none
    rw [none]
    rfl
  · exact line.dropBlankLines_eq

/-- Which lines are left out depends on the kinds of tokens alone. -/
theorem dropBlankLines_map (change : Token → Token)
    (same : ∀ token, (change token).kind = token.kind) (line rest : List Token) :
    dropBlankLines (line.map change) (rest.map change) =
      (dropBlankLines line rest).map change := by
  induction rest generalizing line with
  | nil => rfl
  | cons token rest ih =>
      rw [List.map_cons, dropBlankLines, dropBlankLines, same, ih, ih, ← List.map_cons]
      split
      · rfl
      split
      · rfl
      split <;> rfl

/-- A line at the outermost column has no blanks in front of it. -/
theorem afterBlanks_eq_self (h : width (rest.takeWhile fun token => token.kind.isBlank) = 0) :
    afterBlanks rest = rest := by
  cases rest with
  | nil => rfl
  | cons token rest =>
      cases blank : token.kind.isBlank with
      | false => exact afterBlanks_cons_of_word blank
      | true =>
          rw [List.takeWhile_cons, blank, if_pos rfl, width, Nat.add_eq_zero_iff] at h
          revert blank h
          cases token.kind <;> simp [TokenKind.isBlank, blankWidth, stepWidth]

end Leaving

/-- Some tokens are whole lines: the last of them is a line break, if there is any. -/
def WholeLines (rest : List Token) : Prop :=
  ∀ last ∈ rest.getLast?, last.kind = .newline

section Whole

variable {token : Token} {rest behind line back : List Token}

theorem WholeLines.of_suffix (h : WholeLines rest) (suffix : behind <:+ rest) :
    WholeLines behind := by
  obtain ⟨front, rfl⟩ := suffix
  intro last found
  apply h
  rw [List.getLast?_append, Option.mem_def.1 found]
  rfl

theorem WholeLines.tail (h : WholeLines (token :: rest)) : WholeLines rest :=
  h.of_suffix (List.suffix_cons token rest)

/-- Whole lines that start inside of one go on to its end. -/
theorem WholeLines.exists_newline (h : WholeLines (token :: rest)) (goesOn : token.kind ≠ .newline) :
    ∃ token ∈ rest, token.kind = .newline := by
  cases found : rest.getLast? with
  | none =>
      rw [List.getLast?_eq_none_iff.1 found] at h
      exact absurd (h token rfl) goesOn
  | some last => exact ⟨last, List.mem_of_getLast? found, h.tail last found⟩

/-- Behind whole lines without words, those that follow are left out as well. -/
theorem dropBlankLines_append (whole : WholeLines rest) (nil : line = [] ↔ rest = []) :
    dropBlankLines (line ++ back) (rest ++ back) =
      if dropBlankLines line rest = [] then dropBlankLines back back
      else dropBlankLines line rest ++ back := by
  induction rest generalizing line with
  | nil =>
      rw [nil.2 rfl, dropBlankLines, if_pos rfl]
      rfl
  | cons token rest ih =>
      rw [List.cons_append, dropBlankLines, dropBlankLines]
      split
      · next blank =>
        have goesOn : rest ≠ [] := by
          rintro rfl
          rw [whole token rfl] at blank
          cases blank
        exact ih whole.tail (iff_of_false (mt nil.1 (List.cons_ne_nil _ _)) goesOn)
      split
      · exact ih whole.tail Iff.rfl
      split
      · rw [if_neg (List.cons_ne_nil _ _), List.cons_append]
      · rw [if_neg (mt nil.1 (List.cons_ne_nil _ _))]

end Whole

/-- The lines of some tokens that have words. -/
def linesWithWords (tokens : List Token) : List (List Token) :=
  (tokens.splitOnP fun token => token.kind.endsLine).filter fun line =>
    line.any fun token => !token.kind.isBlank

section LinesWithWords

variable {token : Token} {line rest front back blanks behind : List Token}

@[simp] theorem linesWithWords_nil : linesWithWords [] = [] := rfl

/-- Lines are found one after the other. -/
theorem linesWithWords_append (ends : token.kind.endsLine = true) :
    linesWithWords (front ++ token :: back) = linesWithWords front ++ linesWithWords back := by
  unfold linesWithWords
  rw [List.splitOnP_append_cons front back ends, List.filter_append]

theorem linesWithWords_cons (ends : token.kind.endsLine = true) :
    linesWithWords (token :: back) = linesWithWords back := by
  rw [← List.nil_append (token :: back), linesWithWords_append ends]
  rfl

theorem linesWithWords_of_blanks (blank : ∀ token ∈ blanks, token.kind.isBlank = true) :
    linesWithWords blanks = [] := by
  have plain : ∀ token ∈ blanks, token.kind.endsLine = false := by
    intro token listed
    exact endsLine_of_isBlank (blank token listed)
  unfold linesWithWords
  rw [List.splitOnP_eq_singleton plain, List.filter_cons_of_neg]
  · rfl
  · simpa using blank

theorem linesWithWords_of_line (plain : ∀ token ∈ line, token.kind.endsLine = false)
    (word : ∃ token ∈ line, token.kind.isBlank = false) : linesWithWords line = [line] := by
  unfold linesWithWords
  rw [List.splitOnP_eq_singleton plain, List.filter_cons_of_pos]
  · rfl
  · simpa using word

/-- A line with words is the first that is found. -/
theorem Splits.linesWithWords (h : Splits rest line behind)
    (word : ∃ token ∈ line, token.kind.isBlank = false) :
    linesWithWords rest = line :: Offside.linesWithWords behind := by
  obtain ⟨plain, ends, rfl, ending⟩ := h
  cases ending with
  | eof => rw [List.append_nil, linesWithWords_of_line plain word, linesWithWords_nil]
  | newline newline =>
      rw [linesWithWords_append (by rw [newline]; rfl), linesWithWords_of_line plain word,
        List.singleton_append]

/-- The lines that are left out have no words. -/
theorem linesWithWords_dropBlankLines (blank : ∀ token ∈ blanks, token.kind.isBlank = true) :
    linesWithWords (dropBlankLines (blanks ++ rest) rest) = linesWithWords (blanks ++ rest) := by
  induction rest generalizing blanks with
  | nil => rw [List.append_nil, linesWithWords_of_blanks blank, dropBlankLines, linesWithWords_nil]
  | cons token rest ih =>
      have passed : token.kind.endsLine = true →
          linesWithWords (blanks ++ token :: rest) = linesWithWords rest := by
        intro ends
        rw [linesWithWords_append ends, linesWithWords_of_blanks blank, List.nil_append]
      unfold dropBlankLines
      split
      · next space =>
        rw [List.append_cons]
        apply ih
        simp only [List.forall_mem_append, List.forall_mem_singleton]
        exact ⟨blank, space⟩
      split
      · next newline =>
        rw [passed (by rw [newline]; rfl)]
        exact ih (List.forall_mem_nil _)
      split
      · next eof => rw [passed (by rw [eof]; rfl), linesWithWords_cons (by rw [eof]; rfl)]
      · rfl

end LinesWithWords

end Offside
