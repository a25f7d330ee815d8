import Offside.Proofs.Lexing.Words
import Offside.Proofs.Reading.Loops

/-! # Reading words

Where the words ahead are known, reading takes one after the other and does not fail. Blanks behind a
word that is taken are passed with it.
-/

namespace Offside

open Parse ParseState Word

/-- The words ahead of a state. -/
def ParseState.words (state : ParseState) : List Word :=
  state.rest.map Token.word

/-- The kind of the first of some words, before the end of the input. -/
@[simp] def headKind : List Word → TokenKind
  | [] => .eof
  | word :: _ => word.kind

/-- Some words from the first one on that is not blank. -/
def skip (words : List Word) : List Word :=
  words.dropWhile fun word => word.kind.isBlank

section Ahead

variable {good : TokenKind → String → Prop} {state : ParseState} {word : Word}
  {words rest : List Word}

theorem length_words (state : ParseState) : state.words.length = state.rest.length :=
  List.length_map _

theorem skip_cons_of_blank (h : word.kind.isBlank = true) : skip (word :: rest) = skip rest := by
  simp [skip, h]

theorem skip_of_not_blank (h : (headKind words).isBlank = false) : skip words = words := by
  cases words with
  | nil => rfl
  | cons word rest =>
      rw [headKind] at h
      simp [skip, h]

theorem length_skip_le (words : List Word) : (skip words).length ≤ words.length :=
  (List.dropWhile_suffix _).length_le

theorem ParseState.Ready.kind_eq (ready : state.Ready good) : state.kind = headKind state.words := by
  unfold ParseState.kind ParseState.current words
  cases state.rest with
  | nil => exact ready.closing
  | cons token rest => rfl

theorem current_word (h : state.words = word :: rest) : state.current.word = word := by
  unfold ParseState.words at h
  unfold ParseState.current
  cases ahead : state.rest with
  | nil => simp [ahead] at h
  | cons token behind =>
      rw [ahead, List.map_cons, List.cons.injEq] at h
      exact h.1

theorem kind_of_words (h : state.words = word :: rest) : state.kind = word.kind :=
  congrArg Word.kind (current_word h)

theorem words_pass (h : state.words = word :: rest) (inside : word.kind ≠ .eof) :
    state.pass.words = rest := by
  have kind := kind_of_words h
  unfold ParseState.words at h
  cases ahead : state.rest with
  | nil => simp [ahead] at h
  | cons token behind =>
      rw [ahead, List.map_cons, List.cons.injEq] at h
      simp [ParseState.words, ParseState.pass, kind, inside, ahead, h.2]

theorem words_passBlanks (state : ParseState) : state.passBlanks.words = skip state.words := by
  unfold ParseState.words ParseState.passBlanks skip
  rw [List.dropWhile_map]
  rfl

/-- Whether a declaration starts is seen from the words ahead. -/
theorem startsDeclaration_eq (ready : state.Ready good) :
    state.startsDeclaration = match state.words with
      | [] => false
      | word :: rest => word.kind == .identifier && headKind (skip rest) == .colon := by
  unfold startsDeclaration ParseState.words
  cases ahead : state.rest with
  | nil => rfl
  | cons token rest =>
      have behind : Ready good { state with rest } :=
        ⟨ready.closing, ready.grammar, fun token member =>
          ready.tokens token (by simp [ahead, member])⟩
      have passed : Ready good { state with rest }.passBlanks :=
        (passes_passBlanks _).leads.ready behind
      simp only [List.map_cons]
      rw [passed.kind_eq, words_passBlanks]
      rfl

end Ahead

section Actions

variable {R : ParseState → ParseState → Prop} [Frame R] {α β : Type} {state : ParseState}
  {word : Word} {rest : List Word} {ends : β → ParseState → Prop}

omit [Frame R] in
/-- A look at the kind of the current token is a look at the words ahead. -/
theorem Reads.kind_bind {next : TokenKind → ParseM β}
    (h : Reads R (next (headKind state.words)) state ends) :
    Reads R (Parse.kind >>= next) state ends := by
  intro ready
  have run := h ready
  rw [← ready.kind_eq] at run
  exact run

theorem take_reads (h : state.words = word :: rest) (inside : word.kind ≠ .eof) :
    Reads R take state fun token after => token.word = word ∧ after.words = skip rest := by
  intro ready
  have passed := passes_passBlanks state.pass
  refine ⟨Frame.of_passes ((passes_pass state).trans passed), current_word h, ?_⟩
  rw [words_passBlanks, words_pass h inside]

theorem expect_reads {expected : TokenKind} (h : state.words = word :: rest)
    (kind : word.kind = expected) (inside : expected ≠ .eof) :
    Reads R (expect expected) state fun token after =>
      token.word = word ∧ after.words = skip rest := by
  apply Reads.kind_bind
  rw [h, headKind, if_pos kind]
  exact take_reads h (kind ▸ inside)

/-- Taking the only word of a kind. -/
theorem mark_reads {kind : TokenKind} (h : state.words = mark kind :: rest)
    (inside : kind ≠ .eof) :
    Reads R (discard (expect kind)) state fun _ after => after.words = skip rest := by
  apply (expect_reads h rfl inside).discard.mono
  intro _ after _ taken
  obtain ⟨token, _, words⟩ := taken
  exact words

theorem expectName_reads {complaint value : String} (h : state.words = name value :: rest) :
    Reads R (expectName complaint) state fun token after =>
      token.word = name value ∧ after.words = skip rest := by
  apply Reads.kind_bind
  rw [h, headKind, if_pos (by rfl)]
  exact take_reads h (by simp [name])

theorem lineEnd_reads (h : state.words = mark .newline :: rest) :
    Reads R lineEnd state fun _ after => after.words = rest := by
  apply (Runs.modify (passes_passBlanks state)).bind
  intro _ mid _ same
  have words : mid.words = mark .newline :: rest := by
    rw [same, words_passBlanks, h, skip_of_not_blank]
    rfl
  apply Reads.kind_bind
  rw [words]
  have passing : Reads R pass mid fun _ after => after.words = rest := fun _ =>
    ⟨Frame.of_passes (passes_pass mid), words_pass words (by simp [mark])⟩
  apply passing.discard.mono
  intro _ after _ passed
  obtain ⟨_, words⟩ := passed
  exact words

theorem blockStart_reads (h : state.words = mark .colon :: mark .newline :: rest) :
    Reads R blockStart state fun _ after => after.words = rest := by
  apply (mark_reads h (by simp)).bind
  intro _ mid _ words
  exact lineEnd_reads words

end Actions

section Lines

/-- Whether a line may start with a token of a kind, behind its margin. -/
@[simp] def TokenKind.startsLine : TokenKind → Bool
  | eof | space | tab | newline => false
  | _ => true

/-- The blanks before a line at a level of nesting. -/
def margin (level : Nat) : List Word :=
  List.replicate (stepWidth * level) (mark .space)

/-- Either no words are left, or a line starts, at a level and with a kind of word that may be. -/
inductive NextLine (may : Nat → TokenKind → Prop) : List Word → Prop where
  | none : NextLine may []
  | line {level word rest} : may level word.kind → word.kind.startsLine = true →
    NextLine may (margin level ++ word :: rest)

/-- The next line is outside of a statement at a level of nesting, and does not go on with it. -/
abbrev After (level : Nat) : List Word → Prop :=
  NextLine fun level' kind => level' < level ∨
    level' = level ∧ kind ≠ .elifWord ∧ kind ≠ .elseWord

variable {state : ParseState} {word : Word} {rest : List Word} {level : Nat}
  {may may' : Nat → TokenKind → Prop}

theorem NextLine.mono {words : List Word} (h : NextLine may words)
    (le : ∀ level kind, may level kind → may' level kind) : NextLine may' words := by
  cases h with
  | none => exact .none
  | line here visible => exact .line (le _ _ here) visible

theorem isBlank_of_startsLine {kind : TokenKind} (h : kind.startsLine = true) :
    kind.isBlank = false := by
  cases kind <;> first | rfl | cases h

theorem skip_margin (visible : word.kind.startsLine = true) :
    skip (margin level ++ word :: rest) = word :: rest := by
  unfold margin
  induction stepWidth * level with
  | zero => exact skip_of_not_blank (isBlank_of_startsLine visible)
  | succ columns ih =>
      rw [List.replicate_succ, List.cons_append, skip_cons_of_blank rfl]
      exact ih

theorem dropBlankLines_of_line {columns : Nat} {tokens line : List Token}
    (h : tokens.map Token.word = List.replicate columns (mark .space) ++ word :: rest)
    (visible : word.kind.startsLine = true) : dropBlankLines line tokens = line := by
  induction columns generalizing tokens with
  | zero =>
      cases tokens with
      | nil => cases h
      | cons token tokens =>
          rw [List.map_cons, List.replicate_zero, List.nil_append, List.cons.injEq] at h
          have kind : token.kind = word.kind := congrArg Word.kind h.1
          rw [dropBlankLines, kind, if_neg (by simp [isBlank_of_startsLine visible]),
            if_neg, if_neg]
          · intro eof
            rw [eof] at visible
            cases visible
          · intro newline
            rw [newline] at visible
            cases visible
  | succ columns ih =>
      cases tokens with
      | nil => cases h
      | cons token tokens =>
          rw [List.map_cons, List.replicate_succ, List.cons_append, List.cons.injEq] at h
          have kind : token.kind = .space := congrArg Word.kind h.1
          rw [dropBlankLines, kind, if_pos (by rfl)]
          exact ih h.2

theorem passBlankLines_of_nextLine (h : NextLine may state.words) :
    state.passBlankLines = state := by
  have same : dropBlankLines state.rest state.rest = state.rest := by
    generalize ahead : state.words = words at h
    cases h with
    | none =>
        have empty : state.rest = [] := List.map_eq_nil_iff.1 ahead
        rw [empty]
        rfl
    | line _ visible => exact dropBlankLines_of_line ahead visible
  unfold passBlankLines
  rw [same]

theorem width_of_line {columns : Nat} {tokens : List Token}
    (h : tokens.map Token.word = List.replicate columns (mark .space) ++ word :: rest)
    (visible : word.kind.startsLine = true) :
    width (tokens.takeWhile fun token => token.kind.isBlank) = columns := by
  induction columns generalizing tokens with
  | zero =>
      cases tokens with
      | nil => cases h
      | cons token tokens =>
          rw [List.map_cons, List.replicate_zero, List.nil_append, List.cons.injEq] at h
          have kind : token.kind = word.kind := congrArg Word.kind h.1
          rw [List.takeWhile_cons, kind, isBlank_of_startsLine visible]
          rfl
  | succ columns ih =>
      cases tokens with
      | nil => cases h
      | cons token tokens =>
          rw [List.map_cons, List.replicate_succ, List.cons_append, List.cons.injEq] at h
          have kind : token.kind = .space := congrArg Word.kind h.1
          rw [List.takeWhile_cons, kind, if_pos (by rfl), width, kind, ih h.2, Nat.add_comm]
          rfl

theorem column_of_line (h : state.words = margin level ++ word :: rest)
    (visible : word.kind.startsLine = true) : state.column = stepWidth * level :=
  width_of_line h visible

variable {R : ParseState → ParseState → Prop} [Frame R]

/-- A line of the current block follows. -/
theorem moreLines_reads (h : state.words = margin level ++ word :: rest)
    (visible : word.kind.startsLine = true) (indent : state.indent = stepWidth * level) :
    Reads R moreLines state fun more after => more = true ∧ after.words = word :: rest := by
  apply (Runs.modify (passes_passBlankLines state)).bind
  intro _ mid _ same
  have next : NextLine (fun _ _ => True) state.words := h ▸ .line trivial visible
  rw [passBlankLines_of_nextLine next] at same
  intro ready
  refine Runs.get_bind ?_ ready
  have inside : mid.kind ≠ .eof := by
    rw [ready.kind_eq, same, h]
    intro eof
    cases columns : stepWidth * level with
    | zero =>
        rw [margin, columns, List.replicate_zero, List.nil_append, headKind] at eof
        rw [eof] at visible
        cases visible
    | succ columns' =>
        rw [margin, columns, List.replicate_succ, List.cons_append, headKind] at eof
        cases eof
  rw [if_neg inside, same, column_of_line h visible, if_pos indent.symm]
  apply (Runs.modify (passes_passBlanks state)).bind
  intro _ after _ passed
  exact .pure ⟨rfl, by rw [passed, words_passBlanks, h, skip_margin visible]⟩

/-- No line of the current block follows. -/
theorem moreLines_reads_last (h : NextLine (fun level' _ => level' < level) state.words)
    (indent : state.indent = stepWidth * level) :
    Reads R moreLines state fun more after => more = false ∧ after.words = state.words := by
  apply (Runs.modify (passes_passBlankLines state)).bind
  intro _ mid _ same
  rw [passBlankLines_of_nextLine h] at same
  intro ready
  refine Runs.get_bind ?_ ready
  subst same
  split
  · exact .pure ⟨rfl, rfl⟩
  · next inside =>
    generalize ahead : mid.words = words at h
    cases h with
    | none => exact absurd (by rw [ready.kind_eq, ahead, headKind]) inside
    | @line level' _ _ less visible =>
        have shorter : stepWidth * level' < stepWidth * level :=
          Nat.mul_lt_mul_of_pos_left less (by decide)
        rw [column_of_line ahead visible, if_neg (by omega), indent,
          if_pos ⟨shorter, Nat.mul_mod_right _ _⟩]
        exact .pure ⟨rfl, ahead⟩

theorem atWord_reads {kind : TokenKind} (h : state.words = margin level ++ word :: rest)
    (same : word.kind = kind) (visible : kind.startsLine = true) :
    Reads R (atWord (stepWidth * level) kind) state fun found after =>
      found = true ∧ after.words = word :: rest := by
  subst same
  intro ready
  refine Runs.get_bind ?_ ready
  have passed := (passes_passBlanks state).leads.ready ready
  have words : state.passBlanks.words = word :: rest := by
    rw [words_passBlanks, h, skip_margin visible]
  rw [if_pos ⟨column_of_line h visible, by rw [passed.kind_eq, words, headKind]⟩]
  apply (Runs.modify (passes_passBlanks state)).bind
  intro _ after _ same
  exact .pure ⟨rfl, by rw [same, words]⟩

theorem atWord_reads_other {kind : TokenKind} (inside : kind ≠ .eof)
    (h : NextLine (fun level' kind' => ¬ (level' = level ∧ kind' = kind)) state.words) :
    Reads R (atWord (stepWidth * level) kind) state fun found after =>
      found = false ∧ after.words = state.words := by
  intro ready
  refine Runs.get_bind ?_ ready
  have passed := (passes_passBlanks state).leads.ready ready
  have other : ¬ (state.column = stepWidth * level ∧ state.passBlanks.kind = kind) := by
    rintro ⟨column, found⟩
    rw [passed.kind_eq, words_passBlanks] at found
    generalize ahead : state.words = words at h
    cases h with
    | none =>
        rw [ahead] at found
        exact inside found.symm
    | @line level' word _ differs visible =>
        rw [ahead, skip_margin visible, headKind] at found
        rw [column_of_line ahead visible] at column
        exact differs ⟨Nat.eq_of_mul_eq_mul_left (by decide) column, found⟩
  rw [if_neg other]
  exact .pure ⟨rfl, rfl⟩

end Lines

end Offside
