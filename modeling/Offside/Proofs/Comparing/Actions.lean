import Offside.Proofs.Comparing.Runs

/-! # Comparing the parts of a reading

What takes words, ends lines, counts and repeats does the same on both sides, and leaves tokens that
look alike again.
-/

namespace Offside

open Parse ParseState

theorem plain_of_startsLine {kind : TokenKind} (h : kind.startsLine = true) :
    kind ≠ .eof ∧ isSpacing kind = false := by
  constructor
  · rintro rfl
    cases h
  · cases kind <;> first | rfl | cases h

/-- Where no tokens are left, the input ends. -/
theorem kind_of_rest_eq_nil {state : ParseState} (none : state.rest = [])
    (closing : state.closing.kind = .eof) : state.kind = .eof := by
  unfold ParseState.kind ParseState.current
  rw [none]
  exact closing

/-- What the end of a line is, it is passed up to the start of the next one. -/
theorem LineEnd.passed {state : ParseState} {behind : List Token} (h : LineEnd state.rest behind)
    (closing : state.closing.kind = .eof) :
    (state.kind = .newline ∧ state.pass = { state with rest := behind }) ∨
      (state.kind = .eof ∧ state = { state with rest := behind }) := by
  generalize before : state.rest = rest at h
  cases h with
  | eof =>
      right
      unfold ParseState.kind ParseState.current
      rw [before]
      exact ⟨closing, by rw [← before]⟩
  | newline newline =>
      left
      have kind : state.kind = .newline := by
        unfold ParseState.kind ParseState.current
        rw [before]
        exact newline
      refine ⟨kind, ?_⟩
      unfold ParseState.pass
      rw [kind, before]
      rfl

namespace Comparison

variable (c : Comparison)

/-- Both readings have taken the same word. -/
structure Taken (state state' : ParseState) (token token' : Token) (after after' : ParseState) :
    Prop where
  word : token.word = token'.word
  kind : token.kind = state.kind
  span : token.span.moved c.left = token'.span.moved c.right
  abreast : c.Abreast True c.inLine after after'
  shorter : after.rest.length < state.rest.length
  shorter' : after'.rest.length < state'.rest.length

variable {c} (lawful : c.Lawful) {started : Prop} {state state' : ParseState}

theorem Taken.value {token token' : Token} {after after' : ParseState}
    (h : c.Taken state state' token token' after after') : token.value = token'.value :=
  congrArg Word.value h.word

theorem Taken.kind_eq {token token' : Token} {after after' : ParseState}
    (h : c.Taken state state' token token' after after') : token.kind = token'.kind :=
  congrArg Word.kind h.word

section Words

include lawful

variable (h : c.Abreast started c.inLine state state')

include h

theorem take_follows (visible : state.kind.startsLine = true) :
    c.Follows take take state state' (c.Taken state state') := by
  obtain ⟨token, token', rest, rest', before, before', same, spans, behind⟩ := h.word lawful visible
  have kind : state.kind = token.kind := by
    unfold ParseState.kind ParseState.current
    rw [before, List.headD_cons]
  have kind' : state'.kind = token.kind := by
    unfold ParseState.kind ParseState.current
    rw [before', List.headD_cons]
    exact (congrArg Word.kind same).symm
  have inside : ∀ {state : ParseState}, state.kind = token.kind →
      state.kind ≠ .eof ∧ isSpacing state.kind = false := by
    intro state found
    rw [found]
    exact plain_of_startsLine (kind ▸ visible)
  have passed : ∀ {state : ParseState} {first : Token} {rest : List Token},
      state.rest = first :: rest → state.kind = token.kind →
      state.pass = { state with rest, lastEnd := first.span.stop } := by
    intro state first rest before kind
    obtain ⟨inside, solid⟩ := inside kind
    unfold ParseState.pass ParseState.current
    rw [if_neg inside, solid, before]
    rfl
  have current : state.current = token := by
    unfold ParseState.current
    rw [before, List.headD_cons]
  have current' : state'.current = token' := by
    unfold ParseState.current
    rw [before', List.headD_cons]
  have stays : state.Stays state.pass.passBlanks :=
    ((passes_pass state).trans (passes_passBlanks _)).stays
  have stays' : state'.Stays state'.pass.passBlanks :=
    ((passes_pass state').trans (passes_passBlanks _)).stays
  refine ⟨stays, stays', ?_⟩
  change c.Taken state state' state.current state'.current state.pass.passBlanks
    state'.pass.passBlanks
  rw [current, current', passed before kind, passed before' kind']
  have shrinks : ∀ {tokens : List Token}, (afterBlanks tokens).length ≤ tokens.length :=
    (List.dropWhile_suffix _).length_le
  refine ⟨same, kind.symm, spans, ?_, ?_, ?_⟩
  · exact ⟨behind, h.closing, h.closing', h.grammar, h.grammar', h.indent, h.program, h.nextId,
      fun _ => congrArg Span.stop spans⟩
  · rw [before]
    exact Nat.lt_succ_of_le shrinks
  · rw [before']
    exact Nat.lt_succ_of_le shrinks

theorem expect_follows {expected : TokenKind} (visible : expected.startsLine = true) :
    c.Follows (expect expected) (expect expected) state state' (c.Taken state state') := by
  apply Follows.kind_bind
  apply Follows.ite (h.kind_iff lawful visible)
  · intro found
    exact take_follows lawful h (found ▸ visible)
  · intro _
    exact .failHere fun _ _ => rfl

theorem expectName_follows {complaint : String} :
    c.Follows (expectName complaint) (expectName complaint) state state' (c.Taken state state') := by
  apply Follows.kind_bind
  apply Follows.ite (h.kind_iff lawful rfl)
  · intro found
    exact take_follows lawful h (found ▸ rfl)
  · intro _
    exact .failHere fun _ _ => rfl

/-- A line ends on both sides or on neither. -/
theorem lineEnd_follows :
    c.Follows lineEnd lineEnd state state' fun _ _ after after' =>
      c.Abreast started c.atLine after after' := by
  have ahead := lawful.word h.rest
  have blanks := ahead.afterBlanks_eq
  have still : state.passBlanks = state := by
    unfold ParseState.passBlanks
    rw [show state.rest.dropWhile _ = _ from blanks.1]
  have still' : state'.passBlanks = state' := by
    unfold ParseState.passBlanks
    rw [show state'.rest.dropWhile _ = _ from blanks.2]
  apply (Follows.modify (passes_passBlanks state).stays (passes_passBlanks state').stays).bind
  rintro _ _ _ _ _ _ ⟨rfl, rfl⟩
  rw [still, still']
  apply Follows.kind_bind
  have ends := h.kind_congr lawful TokenKind.endsLine rfl
  by_cases ending : state.kind.endsLine = true
  · obtain ⟨behind, behind', line, line', next⟩ := h.lineEnd lawful ending
    have after := h.move next
    obtain ⟨kind, passed⟩ | ⟨kind, passed⟩ := line.passed h.closing <;>
      obtain ⟨kind', passed'⟩ | ⟨kind', passed'⟩ := line'.passed h.closing' <;>
      rw [kind, kind']
    · refine ⟨(passes_pass state).stays, (passes_pass state').stays, ?_⟩
      change c.Abreast started c.atLine state.pass state'.pass
      rw [passed, passed']
      exact after
    · refine ⟨(passes_pass state).stays, .refl state', ?_⟩
      change c.Abreast started c.atLine state.pass state'
      rw [passed, passed']
      exact after
    · refine ⟨.refl state, (passes_pass state').stays, ?_⟩
      change c.Abreast started c.atLine state state'.pass
      rw [passed, passed']
      exact after
    · refine ⟨.refl state, .refl state', ?_⟩
      change c.Abreast started c.atLine state state'
      rw [passed, passed']
      exact after
  · have going : ¬ state'.kind.endsLine = true := ends ▸ ending
    split
    · next kind => exact absurd (by rw [kind]; rfl) ending
    · next kind => exact absurd (by rw [kind]; rfl) ending
    split
    · next kind => exact absurd (by rw [kind]; rfl) going
    · next kind => exact absurd (by rw [kind]; rfl) going
    exact .failHere fun _ _ => rfl

theorem blockStart_follows :
    c.Follows blockStart blockStart state state' fun _ _ after after' =>
      c.Abreast True c.atLine after after' ∧ after.rest.length < state.rest.length ∧
        after'.rest.length < state'.rest.length := by
  apply (expect_follows lawful h rfl).discard.bind
  rintro _ _ mid mid' _ _ ⟨_, _, taken⟩
  apply (lineEnd_follows lawful taken.abreast).mono
  intro _ _ after after' stays stays' next
  exact ⟨next, Nat.lt_of_le_of_lt stays.rest taken.shorter,
    Nat.lt_of_le_of_lt stays'.rest taken.shorter'⟩

end Words

section Lines

/-- Behind any blank lines, tokens still look alike. -/
theorem Abreast.passBlankLines (lawful : c.Lawful) (h : c.Abreast started c.atLine state state') :
    c.Abreast started c.atNextLine state.passBlankLines state'.passBlankLines :=
  h.move (lawful.line h.rest)

/-- Where a line starts, the input does not end. -/
theorem kind_ne_eof_of_line {state : ParseState} {token : Token} {rest : List Token}
    (h : afterBlanks state.rest = token :: rest) (starts : token.kind.startsLine = true) :
    state.kind ≠ .eof := by
  unfold ParseState.kind ParseState.current
  cases before : state.rest with
  | nil =>
      rw [before] at h
      cases h
  | cons first behind =>
      rw [List.headD_cons]
      intro eof
      rw [before, afterBlanks, List.dropWhile_cons, eof] at h
      cases h
      rw [eof] at starts
      cases starts

/-- What a line starts with on one side it starts with on the other. -/
theorem Lawful.starts (lawful : c.Lawful) {token : Token} {rest rest' : List Token}
    (h : c.inLine (token :: rest) rest') (starts : token.kind.startsLine = true) :
    ∃ token' behind', rest' = token' :: behind' ∧ token'.kind = token.kind := by
  cases lawful.word h with
  | word same _ _ _ => exact ⟨_, _, rfl, (congrArg Word.kind same).symm⟩
  | lineEnd ends _ _ =>
      cases ends with
      | newline newline =>
          rw [newline] at starts
          cases starts

/-- The current block goes on with a line on both sides or on neither. A line of the outermost block
on the right alone belongs to no other block. -/
theorem moreLines_follows (lawful : c.Lawful) (h : c.Abreast started c.atLine state state')
    (inside : c.beyond → state.passBlankLines.rest = [] → 0 < state.indent) :
    c.Follows moreLines moreLines state state' fun more more' after after' => more = more' ∧
      if more then c.Abreast started c.inLine after after'
      else c.Abreast started c.atNextLine after after' := by
  have here := h.passBlankLines lawful
  have indent : state.passBlankLines.indent = state.indent := rfl
  apply (Follows.modify (passes_passBlankLines state).stays
    (passes_passBlankLines state').stays).bind
  rintro _ _ _ _ _ _ ⟨rfl, rfl⟩
  apply Follows.get_bind
  rw [← indent] at inside
  generalize state.passBlankLines = line at here inside ⊢
  generalize state'.passBlankLines = line' at here ⊢
  have ahead := here.rest.1
  generalize before : line.rest = rest at ahead
  generalize before' : line'.rest = rest' at ahead
  cases ahead with
  | none =>
      rw [if_pos (kind_of_rest_eq_nil before here.closing),
        if_pos (kind_of_rest_eq_nil before' here.closing')]
      exact .pure ⟨rfl, here⟩
  | line columns behind starts words =>
      have going := kind_ne_eof_of_line (before ▸ behind) starts
      obtain ⟨token', rest', behind', kind⟩ := lawful.starts (behind ▸ words) starts
      have going' := kind_ne_eof_of_line (before' ▸ behind') (kind ▸ starts)
      have columns : line.column = line'.column := by
        unfold ParseState.column ParseState.margin
        rw [before, before']
        exact columns
      rw [if_neg going, if_neg going', ← columns, ← here.indent]
      split
      · apply (Follows.modify (passes_passBlanks line).stays (passes_passBlanks line').stays).bind
        rintro _ _ _ _ _ _ ⟨rfl, rfl⟩
        refine .pure ⟨rfl, ?_⟩
        rw [if_pos rfl]
        apply here.move
        rw [before, before']
        exact words
      split
      · exact .pure ⟨rfl, here⟩
      · exact .fail rfl
  | @beyond token rest more starts _ _ =>
      have ended := kind_of_rest_eq_nil before here.closing
      have visible := isBlank_of_startsLine starts
      have going' : line'.kind ≠ .eof := by
        apply kind_ne_eof_of_line _ starts
        · exact rest
        · rw [before', afterBlanks, List.dropWhile_cons, visible]
          rfl
      have outermost : line'.column = 0 := by
        unfold ParseState.column ParseState.margin
        rw [before', List.takeWhile_cons, visible]
        rfl
      have deeper := inside more before
      rw [here.indent] at deeper
      rw [if_pos ended, if_neg going', outermost, if_neg (Nat.ne_of_lt deeper), if_pos ⟨deeper, rfl⟩]
      exact .pure ⟨rfl, here⟩

/-- A word that a statement goes on with at the start of a line is found on both sides or on
neither. -/
theorem atWord_follows (lawful : c.Lawful) (h : c.Abreast started c.atNextLine state state')
    {column : Nat} {word : TokenKind} (goesOn : word = .elifWord ∨ word = .elseWord) :
    c.Follows (atWord column word) (atWord column word) state state'
      fun found found' after after' => found = found' ∧
        if found then c.Abreast started c.inLine after after' ∧ after.kind = word
        else c.Abreast started c.atNextLine after after' := by
  apply Follows.get_bind
  have inside : word ≠ .eof := by rcases goesOn with rfl | rfl <;> simp
  have visible : word.startsLine = true := by rcases goesOn with rfl | rfl <;> rfl
  have ended : ∀ {state : ParseState}, state.rest = [] → state.closing.kind = .eof →
      ¬ (state.column = column ∧ state.passBlanks.kind = word) := by
    intro state before closing found
    have none : state.passBlanks.rest = [] := by
      unfold ParseState.passBlanks
      rw [before]
      rfl
    exact inside (found.2.symm.trans (kind_of_rest_eq_nil none closing))
  have either : (¬ (state.column = column ∧ state.passBlanks.kind = word) ∧
        ¬ (state'.column = column ∧ state'.passBlanks.kind = word)) ∨
      (state.column = state'.column ∧
        c.Abreast started c.inLine state.passBlanks state'.passBlanks) := by
    have ahead := h.rest.1
    generalize before : state.rest = rest at ahead
    generalize before' : state'.rest = rest' at ahead
    cases ahead with
    | none => exact .inl ⟨ended before h.closing, ended before' h.closing'⟩
    | line columns _ _ words =>
        right
        subst before before'
        exact ⟨columns, h.move words⟩
    | beyond _ starts elif otherwise =>
        refine .inl ⟨ended before h.closing, ?_⟩
        rintro ⟨-, found⟩
        unfold ParseState.passBlanks ParseState.kind ParseState.current at found
        rw [before', List.dropWhile_cons, isBlank_of_startsLine starts] at found
        rcases goesOn with rfl | rfl
        · exact elif found
        · exact otherwise found
  obtain ⟨no, no'⟩ | ⟨columns, words⟩ := either
  · rw [if_neg no, if_neg no']
    exact .pure ⟨rfl, h⟩
  · rw [← columns]
    apply Follows.ite (and_congr_right fun _ => words.kind_iff lawful visible)
    · intro found
      apply (Follows.modify (passes_passBlanks state).stays (passes_passBlanks state').stays).bind
      rintro _ _ _ _ _ _ ⟨rfl, rfl⟩
      refine .pure ⟨rfl, ?_⟩
      rw [if_pos rfl]
      exact ⟨words, found.2⟩
    · intro _
      exact .pure ⟨rfl, h⟩

end Lines

section Counting

theorem freshId_follows (lawful : c.Lawful) {cursor : List Token → List Token → Prop}
    (h : c.Abreast started cursor state state') :
    c.Follows freshId freshId state state' fun number number' after after' =>
      c.left.number number = c.right.number number' ∧ c.Abreast started cursor after after' :=
  ⟨⟨Nat.le_refl _, rfl⟩, ⟨Nat.le_refl _, rfl⟩, lawful.number h.nextId,
    { h with nextId := lawful.nextNumber h.nextId }⟩

theorem declareVar_follows (lawful : c.Lawful) {cursor : List Token → List Token → Prop}
    (h : c.Abreast started cursor state state') {name : String} {type : DataType}
    {init init' : Option Expr} {span span' : Span}
    (inits : init.map (Expr.moved c.left) = init'.map (Expr.moved c.right))
    (spans : span.moved c.left = span'.moved c.right) :
    c.Follows (declareVar name type init span) (declareVar name type init' span') state state'
      fun id id' after after' =>
        c.left.decl id = c.right.decl id' ∧ c.Abreast started cursor after after' :=
  ⟨⟨Nat.le_refl _, rfl⟩, ⟨Nat.le_refl _, rfl⟩, lawful.nextDecl h.program,
    { h with program := lawful.insertDecl h.program inits spans }⟩

/-- The stretch from a place to the end of what has been read. -/
theorem Abreast.spanSince {cursor : List Token → List Token → Prop}
    (h : c.Abreast True cursor state state') {start start' : Position}
    (starts : c.left.position start = c.right.position start') :
    (state.spanSince start).moved c.left = (state'.spanSince start').moved c.right := by
  unfold ParseState.spanSince Span.moved
  rw [starts, h.lastEnd trivial]

/-- An action inside a block runs the same outside of it. -/
theorem Follows.indented {α : Type} {action action' : ParseM α}
    {returns : α → α → ParseState → ParseState → Prop}
    (returns' : α → α → ParseState → ParseState → Prop)
    (h : c.Follows action action' state.deeper state'.deeper returns)
    (leave : ∀ value value' after after', returns value value' after after' →
      returns' value value' after.shallower after'.shallower) :
    c.Follows (Parse.indented action) (Parse.indented action') state state' returns' := by
  have back : ∀ {state after : ParseState}, state.deeper.Stays after →
      state.Stays after.shallower := fun stays =>
    ⟨stays.rest, by simp [shallower, stays.indent, deeper]⟩
  unfold Follows at h ⊢
  rw [run_indented, run_indented]
  apply Alike.mono h
  intro value value' held
  exact ⟨back held.1, back held.2.1, leave _ _ _ _ held.2.2⟩

theorem Abreast.deeper {cursor : List Token → List Token → Prop}
    (h : c.Abreast started cursor state state') :
    c.Abreast started cursor state.deeper state'.deeper :=
  { h with indent := congrArg (· + stepWidth) h.indent }

theorem Abreast.shallower {cursor : List Token → List Token → Prop}
    (h : c.Abreast started cursor state state') :
    c.Abreast started cursor state.shallower state'.shallower :=
  { h with indent := congrArg (· - stepWidth) h.indent }

end Counting

end Comparison

end Offside
