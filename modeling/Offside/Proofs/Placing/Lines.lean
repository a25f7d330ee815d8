import Offside.Proofs.Placing.Headers
import Offside.Proofs.Reading.Entries

/-! # Tracking lines

A line that is read from its first word on is laid out from there, and with it the lines of the
blocks in it. Reading the lines of a block passes blank lines and margins between them, which have no
words, and ends in front of a line that is set back.
-/

namespace Offside

open Parse ParseState Outline

variable {all : List Token} {state mid after : ParseState} {α : Type}

section Moving

variable {passed used line behind : List Token}

/-- Words that have been taken are what a line starts with that goes on behind them. -/
theorem ParseState.Takes.splits (h : state.Takes used mid) (splits : Splits mid.rest line behind) :
    ∃ line', Splits state.rest line' behind ∧ solid line' = used ++ solid line := by
  obtain ⟨passed, moves, plain, rfl⟩ := h
  refine ⟨passed ++ line, ?_, solid_append⟩
  rw [moves.rest]
  exact splits.prepend plain

theorem ParseState.Takes.moves (h : state.Takes used after) :
    ∃ passed, state.Moves passed after ∧ solid passed = used := by
  obtain ⟨passed, moves, -, same⟩ := h
  exact ⟨passed, moves, same⟩

/-- What is read inside of a line is read between lines as well. -/
theorem Tracks.lift {action : ParseM α} {returns : α → List Token → ParseState → Prop}
    (h : Tracks Takes all action state returns) :
    Tracks Moves all action state fun value passed after =>
      state.Takes (solid passed) after ∧ returns value (solid passed) after :=
  fun ahead => (h ahead).mono (fun value after ⟨used, takes, held⟩ => by
    obtain ⟨passed, moves, same⟩ := takes.moves
    exact ⟨passed, moves, same ▸ takes, same ▸ held⟩) fun _ _ => id

end Moving

section LineEnds

theorem pass_tracks_newline (newline : state.kind = .newline) :
    Tracks Moves all pass state fun _ passed after =>
      solid passed = [] ∧ LineEnd state.rest after.rest := by
  intro ahead
  obtain ⟨behind, rest⟩ := ahead.exists_rest (by simp [newline])
  have passed : state.pass.rest = behind := by
    simp [ParseState.pass, newline, rest]
  have spacing : solid [state.current] = [] := by
    change [state.current].filter _ = []
    simp [isSpacing, show state.current.kind = .newline from newline]
  refine ⟨[state.current], ⟨?_, rfl, rfl, rfl, List.prefix_rfl, ?_⟩, spacing, ?_⟩
  · rw [passed, rest]
    rfl
  · rw [endOf_of_spacing spacing]
    simp [ParseState.pass, newline, isSpacing]
  · rw [passed, rest]
    exact .newline newline

/-- The end of a line is passed with the blanks in front of it. -/
theorem lineEnd_tracks :
    Tracks Moves all lineEnd state fun _ passed after =>
      solid passed = [] ∧ ∃ blanks, Splits state.rest blanks after.rest ∧ solid blanks = [] := by
  have blank := margin_blank state
  have plain : ∀ token ∈ state.margin, token.kind.endsLine = false :=
    fun token listed => endsLine_of_isBlank (blank token listed)
  have margin : Tracks Moves all passBlanks state fun _ passed after =>
      passed = state.margin ∧ after = state.passBlanks :=
    fun _ => ⟨state.margin, moves_passBlanks state, rfl, rfl⟩
  refine margin.bind fun _ passed mid moves here => ?_
  obtain ⟨rfl, rfl⟩ := here
  refine .of_ahead fun ahead => .kind_bind ?_
  split
  · next newline =>
    refine (pass_tracks_newline newline).discard.mono fun _ more after _ ends => ?_
    obtain ⟨-, spacing, ending⟩ := ends
    refine ⟨by simp [solid_of_blanks blank, spacing], state.margin, ⟨plain, _, moves.rest, ending⟩,
      solid_of_blanks blank⟩
  · next eof =>
    have none := rest_eq_nil_of_kind eof ahead.inside
    refine .pure ⟨by simp [solid_of_blanks blank], state.margin, ⟨plain, [], ?_, ?_⟩,
      solid_of_blanks blank⟩
    · rw [moves.rest, none]
    · rw [none]
      exact .eof
  · exact .failHere

/-- A colon and the end of the line stand in front of an indented block. -/
theorem blockStart_tracks :
    Tracks Moves all blockStart state fun _ passed after =>
      ∃ colon line, colon.kind = .colon ∧ solid passed = [colon] ∧
        Splits state.rest line after.rest ∧ solid line = [colon] := by
  refine (expect_tracks rfl).lift.discard.bind fun _ passed mid _ taken => ?_
  obtain ⟨colon, takes, used, kind, -⟩ := taken
  refine lineEnd_tracks.mono fun _ more after _ ends => ?_
  obtain ⟨spacing, blanks, splits, none⟩ := ends
  obtain ⟨line, splits', words⟩ := takes.splits splits
  refine ⟨colon, line, kind, by simp [used, spacing], splits', by rw [words, used, none]; rfl⟩

end LineEnds

section BlankLines

theorem solid_dropBlankLines (line rest : List Token)
    (within : ∃ front, line = front ++ rest ∧ solid front = [])
    (inside : ∀ token ∈ rest, token.kind ≠ .eof) :
    ∃ passed, line = passed ++ dropBlankLines line rest ∧ solid passed = [] := by
  induction rest generalizing line with
  | nil =>
      obtain ⟨front, rfl, none⟩ := within
      exact ⟨front, by simp [dropBlankLines], none⟩
  | cons token rest ih =>
      rw [List.forall_mem_cons] at inside
      obtain ⟨front, rfl, none⟩ := within
      unfold dropBlankLines
      split
      · next blank =>
        refine ih _ ⟨front ++ [token], by simp, ?_⟩ inside.2
        rw [solid_append, none, List.nil_append]
        exact solid_of_blanks (List.forall_mem_singleton.2 blank)
      split
      · next newline =>
        obtain ⟨passed, same, none'⟩ := ih rest ⟨[], rfl, rfl⟩ inside.2
        refine ⟨front ++ token :: passed, ?_, ?_⟩
        · rw [List.append_assoc, List.cons_append, ← same]
        · have newline : solid [token] = [] := by simp [solid, isSpacing, newline]
          rw [List.append_cons, solid_append, solid_append, none, newline, none']
          rfl
      split
      · next eof => exact absurd eof inside.1
      · exact ⟨[], rfl, rfl⟩

/-- Lines without words are passed. -/
theorem passBlankLines_tracks :
    Tracks Moves all (modify ParseState.passBlankLines) state fun _ passed after =>
      solid passed = [] ∧ after = state.passBlankLines ∧
        wordLines after.rest = wordLines state.rest := by
  intro ahead
  obtain ⟨passed, rest, none⟩ :=
    solid_dropBlankLines state.rest state.rest ⟨[], rfl, rfl⟩ ahead.inside
  refine ⟨passed, ⟨rest, rfl, rfl, rfl, List.prefix_rfl, (endOf_of_spacing none).symm⟩, none, rfl,
    ?_⟩
  exact congrArg (List.map WordLine.ofLine)
    (linesWithWords_dropBlankLines (List.forall_mem_nil _))

/-- The lines of a block go on with a line whose blanks are passed. -/
theorem laysOut_passBlanks {decls : Array VarDecl} {rest behind : List Token} {headers : List Header}
    (ahead : state.Ahead all) (word : state.passBlanks.kind.startsLine = true)
    (same : wordLines rest = wordLines state.rest)
    (h : LaysOutFrom decls state.column state.passBlanks.rest behind headers) :
    LaysOut decls rest behind headers := by
  have goesOn : state.passBlanks.kind ≠ .eof := by
    intro eof
    rw [eof] at word
    cases word
  obtain ⟨more, stands⟩ := ((moves_passBlanks state).ahead ahead).exists_rest goesOn
  rw [stands] at h
  refine h.laysOut (margin_blank state) word ?_
  rw [same, ← stands, ← (moves_passBlanks state).rest]

theorem passBlanks_tracks :
    Tracks Moves all passBlanks state fun _ passed after =>
      solid passed = [] ∧ after = state.passBlanks :=
  fun _ => ⟨state.margin, moves_passBlanks state, solid_of_blanks (margin_blank state), rfl⟩

/-- Where the next line belongs to the block, its blanks are passed. Otherwise nothing with words
is. -/
theorem moreLines_tracks :
    Tracks Moves all moreLines state fun more passed after => solid passed = [] ∧
      if more then after.kind.startsLine = true ∧ ∀ {decls behind headers},
        LaysOutFrom decls state.indent after.rest behind headers →
          LaysOut decls state.rest behind headers
      else wordLines after.rest = wordLines state.rest := by
  refine .of_ahead fun start => passBlankLines_tracks.bind fun _ passed mid moves here => ?_
  obtain ⟨spacing, whole, same⟩ := here
  refine .of_ahead fun ahead => .get_bind ?_
  split
  · exact .pure ⟨by simpa using spacing, by simpa using same⟩
  split
  · next goesOn column =>
    have word : mid.passBlanks.kind.startsLine = true := by
      obtain none | line := startsWithLine_dropBlankLines (List.forall_mem_nil _) start.inside
      · obtain ⟨behind, rest⟩ := ahead.exists_rest goesOn
        have empty : mid.rest = [] := by
          rw [whole]
          exact none
        rw [rest] at empty
        cases empty
      · obtain ⟨token, more, rest, word, -⟩ := line.afterBlanks_eq
        have stands : mid.passBlanks.rest = token :: more := by
          rw [whole]
          exact rest
        rw [ParseState.kind, ParseState.current, stands]
        exact word
    refine passBlanks_tracks.bind fun _ blanks after _ stands => .pure ?_
    obtain ⟨none, rfl⟩ := stands
    refine ⟨by simp [spacing, none], ?_⟩
    rw [if_pos rfl]
    refine ⟨word, fun lays => laysOut_passBlanks ahead word same.symm ?_⟩
    rwa [column, moves.indent]
  split
  · exact .pure ⟨by simpa using spacing, by simpa using same⟩
  · refine .fail ?_
    exact ⟨mid.passBlanks.current, ((moves_passBlanks mid).ahead ahead).current_mem, rfl⟩

/-- A line at a column that goes on with a certain word is the next one, or nothing is passed. -/
theorem atWord_tracks {column : Nat} {word : TokenKind} (starts : word.startsLine = true) :
    Tracks Moves all (atWord column word) state fun found passed after => solid passed = [] ∧
      if found then after.kind = word ∧ ∀ {decls behind headers},
        LaysOutFrom decls column after.rest behind headers → LaysOut decls state.rest behind headers
      else after.rest = state.rest := by
  refine .of_ahead fun ahead => .get_bind ?_
  split
  · next found =>
    refine passBlanks_tracks.bind fun _ blanks after _ stands => .pure ?_
    obtain ⟨none, rfl⟩ := stands
    refine ⟨by simp [none], ?_⟩
    rw [if_pos rfl]
    refine ⟨found.2, fun lays => laysOut_passBlanks ahead (found.2 ▸ starts) rfl ?_⟩
    rwa [found.1]
  · exact .pure ⟨rfl, by rw [if_neg Bool.false_ne_true]⟩

end BlankLines

/-- Some things are read from words, each from its own, one after the other. -/
def InTurn (covers : α → List Token → Prop) : List α → List Token → Prop
  | [], words => words = []
  | item :: rest, words =>
    ∃ own back, words = own ++ back ∧ covers item own ∧ InTurn covers rest back

theorem InTurn.append {covers : α → List Token → Prop} {items others : List α}
    {words more : List Token} (h : InTurn covers items words) (h' : InTurn covers others more) :
    InTurn covers (items ++ others) (words ++ more) := by
  induction items generalizing words with
  | nil =>
      cases h
      exact h'
  | cons first rest ih =>
      obtain ⟨front, back, rfl, covers, others⟩ := h
      exact ⟨front, back ++ more, by simp, covers, ih others⟩

theorem InTurn.single {covers : α → List Token → Prop} {item : α} {words : List Token}
    (h : covers item words) : InTurn covers [item] words :=
  ⟨words, [], by simp, h, rfl⟩

/-- Trees that are read one after the other lie in the words. -/
theorem InTurn.lieIn {outlines : List Outline} {words : List Token}
    (h : InTurn Outline.Over outlines words) : LieIn outlines words := by
  induction outlines generalizing words with
  | nil => exact .nil
  | cons outline rest ih =>
      obtain ⟨own, back, rfl, goes, others⟩ := h
      exact (LieIn.of_over goes).append (ih others)

/-- A node that goes on to the end of the last of some trees behind it. -/
theorem InTurn.toOver {outlines parts : List Outline} {span : Span} {words more : List Token}
    (h : InTurn Outline.Over outlines more) (front : (Outline.node span parts).Over words) :
    (Outline.node ⟨span.start, (outlines.getLast?.map fun last => last.span.stop).getD span.stop⟩
      (parts ++ outlines)).Over (words ++ more) := by
  induction outlines generalizing span parts words more with
  | nil =>
      cases h
      simpa using front
  | cons outline rest ih =>
      obtain ⟨own, back, rfl, goes, others⟩ := h
      have next := ih others (front.snoc goes)
      rw [List.append_assoc, List.append_assoc] at next
      cases ends : rest.getLast? with
      | none => simpa [List.getLast?_cons, ends] using next
      | some last => simpa [List.getLast?_cons, ends] using next

theorem InTurn.map {β : Type} (view : α → β) {covers : β → List Token → Prop} {items : List α}
    {words : List Token} (h : InTurn (fun item => covers (view item)) items words) :
    InTurn covers (items.map view) words := by
  induction items generalizing words with
  | nil => exact h
  | cons item rest ih =>
      obtain ⟨own, back, rfl, covered, others⟩ := h
      exact ⟨own, back, rfl, covered, ih others⟩

section Blocks

variable (covers : Array VarDecl → α → List Token → Prop) (headers : Nat → α → List Header)

/-- Something is read from words that it covers, and its headers are laid out from its first word
on, whatever is declared later. -/
def ReadFrom (state : ParseState) (item : α) (passed : List Token) (after : ParseState) : Prop :=
  ∀ decls : Array VarDecl, after.program.decls.toList <+: decls.toList →
    covers decls item (solid passed) ∧ ∀ depth, state.indent = stepWidth * depth →
      LaysOutFrom decls state.indent state.rest after.rest (headers depth item)

/-- Some things are read from words that they cover one after the other, and their headers are laid
out, whatever is declared later. -/
def ReadLines (state : ParseState) (items : List α) (passed : List Token) (after : ParseState) :
    Prop :=
  ∀ decls : Array VarDecl, after.program.decls.toList <+: decls.toList →
    InTurn (covers decls) items (solid passed) ∧ ∀ depth, state.indent = stepWidth * depth →
      LaysOut decls state.rest after.rest (items.flatMap (headers depth))

variable {covers headers}

theorem ReadLines.append {items others : List α} {passed more : List Token}
    (h : ReadLines covers headers state items passed mid) (indent : mid.indent = state.indent)
    (moves : mid.Moves more after) (h' : ReadLines covers headers mid others more after) :
    ReadLines covers headers state (items ++ others) (passed ++ more) after := by
  intro decls grown
  obtain ⟨turns, lays⟩ := h decls (moves.decls.trans grown)
  obtain ⟨turns', lays'⟩ := h' decls grown
  refine ⟨by rw [solid_append]; exact turns.append turns', fun depth column => ?_⟩
  rw [List.flatMap_append]
  exact (lays depth column).append (lays' depth (indent.trans column))

/-- The next line of a block is laid out with the blank lines in front of it. -/
theorem nextLine_tracks {line : ParseM α} (hline : ∀ inner, inner.kind.startsLine = true →
      Tracks Moves all line inner (ReadFrom covers headers inner)) :
    Tracks Moves all (do if ← moreLines then return some (← line) else return none) state
      (Continues (ReadLines covers headers state []) fun item =>
        ReadLines covers headers state [item]) := by
  refine moreLines_tracks.bind fun more blanks mid moves seen => ?_
  obtain ⟨spacing, seen⟩ := seen
  cases more with
  | false =>
      rw [if_neg Bool.false_ne_true] at seen ⊢
      exact .pure fun decls _ => ⟨by simp [spacing, InTurn], fun _ _ => .nil seen.symm⟩
  | true =>
      rw [if_pos rfl] at seen ⊢
      obtain ⟨word, margin⟩ := seen
      refine (hline mid word).bind fun item own after moves' read => .pure fun decls grown => ?_
      obtain ⟨covered, lays⟩ := read decls grown
      rw [List.append_nil, solid_append, spacing]
      refine ⟨.single covered, fun depth column => ?_⟩
      have first := lays depth (moves.indent.trans column)
      rw [moves.indent] at first
      simpa using margin first

/-- The lines of a block are laid out if each of them is. -/
theorem lines_tracks {line : ParseM α} (hline : ∀ inner, inner.kind.startsLine = true →
      Tracks Moves all line inner (ReadFrom covers headers inner)) :
    Tracks Moves all (lines line) state (ReadLines covers headers state) := by
  refine Tracks.collect
    (fun items passed inner => inner.indent = state.indent ∧
      ReadLines covers headers state items passed inner) _
    (fun items passed inner kept => ?_) ⟨rfl, fun _ _ => ⟨rfl, fun _ _ => .nil rfl⟩⟩
  obtain ⟨indent, read⟩ := kept
  refine (nextLine_tracks hline).mono fun next? more after moves next => ?_
  cases next? with
  | none => simpa using read.append indent moves next
  | some item => exact ⟨moves.indent.trans indent, read.append indent moves next⟩

/-- What is read one step deeper is read outside of the block as well. -/
theorem indented_tracks {action : ParseM α} {returns : α → List Token → ParseState → Prop}
    (h : Tracks Moves all action state.deeper returns) :
    Tracks Moves all (Parse.indented action) state fun value passed after =>
      ∃ inner, returns value passed inner ∧ after = inner.shallower := by
  intro ahead
  have inside := h ⟨ahead.closing, ahead.grammar, ahead.inside, ahead.listed⟩
  unfold Action.Ensures at inside ⊢
  rw [run_indented]
  generalize action.run.run state.deeper = outcome at inside ⊢
  match outcome, inside with
  | (.ok value, inner), ⟨passed, moves, held⟩ =>
      refine ⟨passed, ⟨moves.rest, moves.closing, moves.grammar, ?_, moves.decls, moves.lastEnd⟩,
        inner, held, rfl⟩
      simp [shallower, moves.indent, deeper]
  | (.error error, inner), located => exact located

end Blocks

end Offside
