import Offside.Proofs.Comparing.Lines
import Offside.Proofs.Comparing.Programs

/-! # The layout of a program

What tokens spell depends on their layout alone: on the words of each line that has any, and on the
column at which the first of them stands. How a line is indented, what is blank between its words and
behind them, the lines without words and the places of it all make no difference.
-/

namespace Offside

open Parse ParseState

/-- A line with words: the columns before the first of them, and the words. -/
structure Row where
  column : Nat
  words : List Word
  deriving DecidableEq, Repr

/-- The words among some tokens of a line. -/
def wordsOf (line : List Token) : List Word :=
  (line.filter fun token => !token.kind.isBlank).map Token.word

/-- A line as a row. -/
def Row.ofLine (line : List Token) : Row :=
  ⟨width (line.takeWhile fun token => token.kind.isBlank), wordsOf line⟩

/-- The layout of some tokens: the rows of those of their lines that have words. -/
def layout (tokens : List Token) : List Row :=
  ((tokens.splitOnP fun token => token.kind.endsLine).filter fun line =>
    line.any fun token => !token.kind.isBlank).map Row.ofLine

/-- Some tokens end with the end of the input, which stands nowhere else among them. -/
def Closed (tokens : List Token) : Prop :=
  ∃ front last, tokens = front ++ [last] ∧ last.kind = .eof ∧ ∀ token ∈ front, token.kind ≠ .eof

section Blanks

variable {token : Token} {line rest : List Token}

theorem wordsOf_cons_of_word (word : token.kind.isBlank = false) :
    wordsOf (token :: rest) = token.word :: wordsOf rest := by
  simp [wordsOf, word]

@[simp] theorem wordsOf_afterBlanks : wordsOf (afterBlanks line) = wordsOf line := by
  induction line with
  | nil => rfl
  | cons token rest ih =>
      cases blank : token.kind.isBlank with
      | false => rw [afterBlanks_cons_of_word blank]
      | true =>
          have passed : afterBlanks (token :: rest) = afterBlanks rest := by
            rw [afterBlanks, List.dropWhile_cons, if_pos blank, afterBlanks]
          rw [passed, ih]
          simp [wordsOf, blank]

end Blanks

section Layout

variable {token : Token} {line front back blanks : List Token}

@[simp] theorem layout_nil : layout [] = [] := rfl

/-- The layout is made up line by line. -/
theorem layout_append (ends : token.kind.endsLine = true) :
    layout (front ++ token :: back) = layout front ++ layout back :=
  (congrArg (List.map Row.ofLine) (linesWithWords_append ends)).trans List.map_append

/-- The end of the input adds nothing to the layout. -/
theorem layout_append_last (ends : token.kind.endsLine = true) :
    layout (front ++ [token]) = layout front := by
  rw [layout_append ends, layout_nil, List.append_nil]

/-- Blanks behind a word are not seen in its row. -/
theorem Row.ofLine_blanks (word : token.kind.isBlank = false)
    (blank : ∀ token ∈ blanks, token.kind.isBlank = true) :
    ofLine (front ++ token :: (blanks ++ back)) = ofLine (front ++ token :: back) := by
  have none : blanks.filter (fun token => !token.kind.isBlank) = [] := by simpa using blank
  have margin : ∀ behind : List Token,
      (front ++ token :: behind).takeWhile (fun token => token.kind.isBlank) =
        (front ++ [token]).takeWhile fun token => token.kind.isBlank := by
    intro behind
    rw [List.append_cons]
    exact takeWhile_append_of_mem ⟨token, by simp, word⟩
  rw [ofLine, ofLine, margin (blanks ++ back), margin back]
  simp [wordsOf, none, List.filter_cons]

/-- A tab in front of a line is as wide as so many spaces. -/
theorem Row.ofLine_tab {spaces : List Token} (tab : token.kind = .tab)
    (space : ∀ token ∈ spaces, token.kind = .space) (count : spaces.length = stepWidth) :
    ofLine (token :: line) = ofLine (spaces ++ line) := by
  obtain ⟨first, second, third, fourth, rfl⟩ := List.length_eq_four.1 count
  simp only [List.mem_cons, List.not_mem_nil, or_false, forall_eq_or_imp, forall_eq] at space
  obtain ⟨one, two, three, four⟩ := space
  simp [ofLine, wordsOf, width, tab, one, two, three, four, TokenKind.isBlank, blankWidth, stepWidth]
  omega

end Layout

/-- The tokens of a source text are closed. -/
theorem closed_of_scan {source file : String} {tokens : List Token}
    (h : Token.scan source file = .ok tokens) : Closed tokens := by
  obtain ⟨front, rfl, inside⟩ := scanFrom_closed h
  exact ⟨front, _, rfl, rfl, inside⟩

/-- Two lists of tokens before the end of the input have the same layout. -/
structure SameLayout (rest rest' : List Token) : Prop where
  layout : layout rest = layout rest'
  inside : ∀ token ∈ rest, token.kind ≠ .eof
  inside' : ∀ token ∈ rest', token.kind ≠ .eof

/-- Two lists of tokens start inside of lines that go on with the same words, and the same layout
follows. -/
structure SameLine (rest rest' : List Token) : Prop where
  starts : afterBlanks rest = rest
  starts' : afterBlanks rest' = rest'
  splits : ∃ line line' behind behind', Splits rest line behind ∧ Splits rest' line' behind' ∧
    wordsOf line = wordsOf line' ∧ SameLayout behind behind'

/-- Readings are compared by the layout of what they read, and all places are forgotten. -/
def byLayout : Comparison where
  left := .spanless
  right := .spanless
  inLine := SameLine
  atLine := SameLayout
  programs program program' := program.moved .spanless = program'.moved .spanless
  numbers number number' := number = number'
  beyond := False
  late _ := False

section Lines

variable {rest rest' line behind front : List Token}

theorem SameLine.wordAhead (h : SameLine rest rest') : byLayout.WordAhead rest rest' := by
  obtain ⟨starts, starts', line, line', behind, behind', ⟨plain, ends, rfl, ending⟩,
    ⟨plain', ends', rfl, ending'⟩, words, next⟩ := h
  cases line with
  | nil =>
      cases line' with
      | nil => exact .lineEnd ending ending' next
      | cons token' more' =>
          rw [wordsOf_cons_of_word (isBlank_of_afterBlanks_cons starts')] at words
          cases words
  | cons token more =>
      have word := isBlank_of_afterBlanks_cons starts
      cases line' with
      | nil =>
          rw [wordsOf_cons_of_word word] at words
          cases words
      | cons token' more' =>
          have word' := isBlank_of_afterBlanks_cons starts'
          rw [wordsOf_cons_of_word word, wordsOf_cons_of_word word', List.cons.injEq] at words
          rw [List.forall_mem_cons] at plain plain'
          refine .word words.1 (startsLine_of_word word plain.1) rfl
            ⟨afterBlanks_afterBlanks, afterBlanks_afterBlanks, afterBlanks more, afterBlanks more',
              behind, behind', ?_, ?_, ?_, next⟩
          · exact Splits.afterBlanks ⟨plain.2, ends, rfl, ending⟩
          · exact Splits.afterBlanks ⟨plain'.2, ends', rfl, ending'⟩
          · rw [wordsOf_afterBlanks, wordsOf_afterBlanks, words.2]

/-- A line with words is the first row of the layout. -/
theorem Splits.layout (h : Splits rest line behind)
    (word : ∃ token ∈ line, token.kind.isBlank = false) :
    layout rest = Row.ofLine line :: Offside.layout behind :=
  congrArg (List.map Row.ofLine) (h.linesWithWords word)

/-- The lines that are left out have no place in the layout. -/
theorem layout_dropBlankLines {blanks : List Token}
    (blank : ∀ token ∈ blanks, token.kind.isBlank = true) :
    layout (dropBlankLines (blanks ++ rest) rest) = layout (blanks ++ rest) :=
  congrArg (List.map Row.ofLine) (linesWithWords_dropBlankLines blank)

theorem SameLayout.nextLine (h : SameLayout rest rest') :
    byLayout.atNextLine (dropBlankLines rest rest) (dropBlankLines rest' rest') := by
  have layouts : SameLayout (dropBlankLines rest rest) (dropBlankLines rest' rest') := by
    refine ⟨?_, inside_dropBlankLines h.inside, inside_dropBlankLines h.inside'⟩
    have same := @layout_dropBlankLines rest [] (List.forall_mem_nil _)
    have same' := @layout_dropBlankLines rest' [] (List.forall_mem_nil _)
    rw [List.nil_append] at same same'
    rw [same, same', h.layout]
  refine ⟨?_, layouts⟩
  have found := startsWithLine_dropBlankLines (List.forall_mem_nil _) h.inside
  have found' := startsWithLine_dropBlankLines (List.forall_mem_nil _) h.inside'
  rw [List.nil_append] at found found'
  generalize dropBlankLines rest rest = line at found layouts ⊢
  generalize dropBlankLines rest' rest' = line' at found' layouts ⊢
  obtain ⟨same, inside, inside'⟩ := layouts
  obtain rfl | starts := found
  · obtain rfl | starts' := found'
    · exact .none
    · obtain ⟨row, behind, splits, word⟩ := starts'.splits inside'
      rw [splits.layout word] at same
      cases same
  obtain ⟨row, behind, splits, word⟩ := starts.splits inside
  rw [splits.layout word] at same
  obtain rfl | starts' := found'
  · cases same
  obtain ⟨row', behind', splits', word'⟩ := starts'.splits inside'
  rw [splits'.layout word', List.cons.injEq] at same
  obtain ⟨rows, behinds⟩ := same
  obtain ⟨token, more, first, solid, -⟩ := starts.afterBlanks_eq
  have columns := congrArg Row.column rows
  refine .line ?_ first solid ⟨afterBlanks_afterBlanks, afterBlanks_afterBlanks, afterBlanks row,
    afterBlanks row', behind, behind', splits.afterBlanks, splits'.afterBlanks, ?_, behinds, ?_, ?_⟩
  · obtain ⟨-, ends, rfl, -⟩ := splits
    obtain ⟨-, ends', rfl, -⟩ := splits'
    rw [takeWhile_append_of_mem word, takeWhile_append_of_mem word']
    exact columns
  · rw [wordsOf_afterBlanks, wordsOf_afterBlanks]
    exact congrArg Row.words rows
  · exact fun token listed => inside token (splits.suffix.subset listed)
  · exact fun token listed => inside' token (splits'.suffix.subset listed)

end Lines

theorem byLayout_lawful : byLayout.Lawful where
  word := SameLine.wordAhead
  line := SameLayout.nextLine
  nextDecl := Program.nextDecl_eq_of_moved
  insertDecl h inits spans := Program.insertDecl_congr h inits spans
  number := id
  nextNumber := congrArg (· + 1)

/-- What comes of two readings is the same but for the places: programs that differ in their spans
alone, or errors of the same kind. -/
def SameOutcome : Except Error Program → Except Error Program → Prop
  | .ok read, .ok read' => read.moved .spanless = read'.moved .spanless
  | .error error, .error error' => error.cause.name = error'.cause.name
  | _, _ => False

/-- Tokens with the same layout are read alike. -/
theorem Program.ofTokens_layout {tokens tokens' : List Token} {file file' : String}
    (closed : Closed tokens) (closed' : Closed tokens') (same : layout tokens = layout tokens') :
    SameOutcome (Program.ofTokens tokens file) (Program.ofTokens tokens' file') := by
  obtain ⟨front, last, rfl, ends, inside⟩ := closed
  obtain ⟨front', last', rfl, ends', inside'⟩ := closed'
  rw [layout_append_last (by rw [ends]; rfl), layout_append_last (by rw [ends']; rfl)] at same
  have start : byLayout.Abreast True byLayout.atLine (ParseState.ofTokens (front ++ [last]) file)
      (ParseState.ofTokens (front' ++ [last']) file') := by
    rw [ofTokens_append_eof ends, ofTokens_append_eof ends']
    exact ⟨⟨same, inside, inside'⟩, ends, ends', rfl, rfl, rfl, rfl, rfl, fun _ => rfl⟩
  have enters : byLayout.Enters := Comparison.enters_of_moved rfl rfl rfl fun _ _ => Iff.rfl
  have follows := Comparison.program_follows byLayout_lawful enters id start
  unfold Comparison.Follows at follows
  unfold Program.ofTokens
  change SameOutcome (Parse.program.run.run _).1 (Parse.program.run.run _).1
  generalize (Parse.program.run.run (ParseState.ofTokens (front ++ [last]) file)).1 = result
    at follows ⊢
  generalize (Parse.program.run.run (ParseState.ofTokens (front' ++ [last']) file')).1 = result'
    at follows ⊢
  cases result with
  | ok program =>
      cases result' with
      | ok program' => exact follows.2.2
      | error error' => exact follows
  | error error =>
      cases result' with
      | ok program' => exact follows
      | error error' => exact follows.resolve_right id

/-- A text with spaces before and between its words. -/
def spacedText : String :=
  "if a == 1:\n    b: int\nelse:\n    c\n"

/-- The same text with tabs, comments, blank lines, other line breaks and no last one. -/
def crampedText : String :=
  "# start\n\nif  a ==1 :  # test\r\n\tb:int \n   \nelse:\n\tc"

/-- The layout of both texts. -/
def textRows : List Row :=
  [⟨0, [⟨.ifWord, "if"⟩, ⟨.identifier, "a"⟩, ⟨.operator .equal, "=="⟩, ⟨.int, "1"⟩,
      ⟨.colon, ":"⟩]⟩,
    ⟨4, [⟨.identifier, "b"⟩, ⟨.colon, ":"⟩, ⟨.identifier, "int"⟩]⟩,
    ⟨0, [⟨.elseWord, "else"⟩, ⟨.colon, ":"⟩]⟩,
    ⟨4, [⟨.identifier, "c"⟩]⟩]

/-- Two texts with the same layout are read alike. -/
theorem Program.ofTokens_layout_cramped : ∃ tokens tokens',
    Token.scan spacedText "spaced" = .ok tokens ∧ Token.scan crampedText "cramped" = .ok tokens' ∧
    Closed tokens ∧ Closed tokens' ∧ layout tokens = layout tokens' ∧
    SameOutcome (Program.ofTokens tokens "spaced") (Program.ofTokens tokens' "cramped") := by
  have rows : (Token.scan spacedText "spaced").toOption.map layout = some textRows := by
    decide +kernel
  have rows' : (Token.scan crampedText "cramped").toOption.map layout = some textRows := by
    decide +kernel
  obtain ⟨tokens, scanned, seen⟩ := exists_ok_of_map_toOption rows
  obtain ⟨tokens', scanned', seen'⟩ := exists_ok_of_map_toOption rows'
  have closed : Closed tokens := closed_of_scan scanned
  have closed' : Closed tokens' := closed_of_scan scanned'
  have same : layout tokens = layout tokens' := seen.trans seen'.symm
  exact ⟨tokens, tokens', scanned, scanned', closed, closed', same,
    Program.ofTokens_layout closed closed' same⟩

end Offside
