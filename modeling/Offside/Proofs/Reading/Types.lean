import Offside.Proofs.Comparing.Layout
import Offside.Proofs.Printing.Declarations
import Offside.Proofs.Reading.Operands

/-! # What a written type consists of

A type is written as a name behind some opening brackets and in front of as many closing ones, with
any blanks between them. Reading a type returns just what is written so, and its text is read as the
same type again.
-/

namespace Offside

open Parse ParseState Word TokenKind

/-- The tokens of a written type, without the blanks between them. -/
structure TypeTokens where
  opens : List Token
  name : Token
  closes : List Token
  opening : ∀ token ∈ opens, token.kind = openBracket
  named : name.kind = identifier ∨ name.kind = nullWord
  closing : ∀ token ∈ closes, token.kind = closeBracket
  balanced : closes.length = opens.length

namespace TypeTokens

/-- The tokens of a written type from left to right. -/
def tokens (written : TypeTokens) : List Token :=
  written.opens ++ written.name :: written.closes

/-- The type that is written: each pair of brackets stands for an array. -/
def type (written : TypeTokens) : DataType :=
  (DataType.ofName written.name.value).nested written.opens.length

end TypeTokens

/-- The tokens that are no blanks. -/
def visible (tokens : List Token) : List Token :=
  tokens.filter fun token => !token.kind.isBlank

/-- From one state to another stand some tokens, with any blanks among and behind them. -/
structure ParseState.Crosses (state : ParseState) (tokens : List Token) (after : ParseState) :
    Prop where
  rest : ∃ passed, state.rest = passed ++ after.rest ∧ visible passed = tokens
  ahead : after.kind.isBlank = false
  same : after = { state with
    rest := after.rest
    lastEnd := (tokens.map fun token => token.span.stop).getLastD state.lastEnd }

section Blanks

variable {first token : Token} {rest passed behind tokens : List Token}

theorem visible_cons_of_word (word : token.kind.isBlank = false) :
    visible (token :: rest) = token :: visible rest := by
  simp [visible, word]

theorem visible_afterBlanks : visible (afterBlanks rest) = visible rest := by
  induction rest with
  | nil => rfl
  | cons token rest ih =>
      cases blank : token.kind.isBlank with
      | true =>
          have passed : afterBlanks (token :: rest) = afterBlanks rest :=
            List.dropWhile_cons_of_pos blank
          rw [passed, ih]
          simp [visible, blank]
      | false => rw [afterBlanks_cons_of_word blank]

theorem afterBlanks_append (starts : afterBlanks behind = behind) :
    afterBlanks (passed ++ behind) = afterBlanks passed ++ behind := by
  by_cases word : ∃ token ∈ passed, token.kind.isBlank = false
  · exact afterBlanks_append_of_word word
  · have blank : ∀ token ∈ passed, token.kind.isBlank = true := by simpa using word
    rw [afterBlanks_of_blanks blank, starts, afterBlanks, List.dropWhile_eq_nil_iff.2 blank]
    rfl

/-- The first word of some tokens is passed together with the blanks behind it. -/
theorem exists_visible_cons_iff (word : first.kind.isBlank = false)
    (starts : afterBlanks behind = behind) :
    (∃ passed, first :: rest = passed ++ behind ∧ visible passed = token :: tokens) ↔
      first = token ∧ ∃ passed, afterBlanks rest = passed ++ behind ∧ visible passed = tokens := by
  constructor
  · rintro ⟨passed, same, shown⟩
    cases passed with
    | nil => cases shown
    | cons head passed =>
        obtain ⟨rfl, rfl⟩ := List.cons.inj same
        rw [visible_cons_of_word word] at shown
        obtain ⟨rfl, rfl⟩ := List.cons.inj shown
        exact ⟨rfl, afterBlanks passed, afterBlanks_append starts, visible_afterBlanks⟩
  · rintro ⟨rfl, passed, same, rfl⟩
    have blank : ∀ token ∈ rest.takeWhile fun token => token.kind.isBlank,
        token.kind.isBlank = true := fun _ listed =>
      List.mem_takeWhile_imp (p := fun token : Token => token.kind.isBlank) listed
    refine ⟨first :: (rest.takeWhile (fun token => token.kind.isBlank) ++ passed), ?_, ?_⟩
    · rw [List.cons_append, List.append_assoc, ← same, afterBlanks,
        List.takeWhile_append_dropWhile]
    · rw [visible_cons_of_word word, visible, List.filter_append, List.filter_eq_nil_iff.2]
      · rfl
      · simpa using blank

end Blanks

section Crossing

variable {state after : ParseState} {token : Token} {tokens : List Token}

namespace ParseState

theorem rest_eq_cons (word : state.kind.startsLine = true) (closed : state.closing.kind = eof) :
    state.rest = state.current :: state.rest.tail := by
  unfold ParseState.kind ParseState.current at *
  cases ahead : state.rest with
  | nil =>
      rw [ahead, List.headD_nil, closed] at word
      cases word
  | cons token rest => rfl

/-- A word is passed together with the blanks behind it. -/
theorem next_eq (word : state.kind.startsLine = true) :
    state.next = { state with
      rest := afterBlanks state.rest.tail, lastEnd := state.current.span.stop } := by
  obtain ⟨inside, plain⟩ := plain_of_startsLine word
  have passed : state.pass = { state with
      rest := state.rest.tail, lastEnd := state.current.span.stop } := by
    rw [ParseState.pass, if_neg inside, plain]
    rfl
  rw [next, passed]
  rfl

/-- A state stands before no blank if and only if what it has ahead starts with none. -/
theorem afterBlanks_rest_iff (closed : state.closing.kind = eof) :
    afterBlanks state.rest = state.rest ↔ state.kind.isBlank = false := by
  unfold ParseState.kind ParseState.current
  cases state.rest with
  | nil => simp [afterBlanks, closed, TokenKind.isBlank]
  | cons token rest => exact ⟨isBlank_of_afterBlanks_cons, afterBlanks_cons_of_word⟩

theorem isBlank_next (word : state.kind.startsLine = true) (closed : state.closing.kind = eof) :
    state.next.kind.isBlank = false := by
  have blankless : afterBlanks state.next.rest = state.next.rest := by
    rw [next_eq word, afterBlanks_afterBlanks]
  exact (@afterBlanks_rest_iff state.next closed).1 blankless

/-- Where no blank stands, some tokens are passed only if the first of them stands there. -/
theorem Crosses.eq_or_current_eq (h : state.Crosses tokens after)
    (shown : state.kind.isBlank = false) :
    tokens = [] ∧ after = state ∨ ∃ others, tokens = state.current :: others := by
  obtain ⟨⟨passed, rest, rfl⟩, -, same⟩ := h
  cases passed with
  | nil =>
      refine .inl ⟨rfl, ?_⟩
      rw [same, ← List.nil_append after.rest, ← rest]
      rfl
  | cons first passed =>
      have current : state.current = first := by rw [ParseState.current, rest]; rfl
      rw [ParseState.kind, current] at shown
      exact .inr ⟨visible passed, by rw [visible_cons_of_word shown, current]⟩

theorem crosses_nil_iff (shown : state.kind.isBlank = false) :
    state.Crosses [] after ↔ after = state := by
  constructor
  · intro h
    rcases h.eq_or_current_eq shown with ⟨-, same⟩ | ⟨others, same⟩
    · exact same
    · cases same
  · rintro rfl
    exact ⟨⟨[], rfl, rfl⟩, shown, rfl⟩

/-- To stand before some words is to stand before the first, and before the others behind it. -/
theorem crosses_cons_iff (shown : state.kind.isBlank = false) (closed : state.closing.kind = eof)
    (word : token.kind.startsLine = true) :
    state.Crosses (token :: tokens) after ↔
      state.current = token ∧ state.next.Crosses tokens after := by
  have behind (word : state.kind.startsLine = true) (ahead : after.kind.isBlank = false)
      (same : after.closing = state.closing) :
      (∃ passed, state.rest = passed ++ after.rest ∧ visible passed = token :: tokens) ↔
        state.current = token ∧
          ∃ passed, state.next.rest = passed ++ after.rest ∧ visible passed = tokens := by
    rw [rest_eq_cons word closed, next_eq word]
    exact exists_visible_cons_iff shown ((afterBlanks_rest_iff (same ▸ closed)).2 ahead)
  constructor
  · intro h
    have current : state.current = token := by
      rcases h.eq_or_current_eq shown with ⟨none, -⟩ | ⟨others, same⟩
      · cases none
      · exact (List.cons.inj same).1.symm
    have word : state.kind.startsLine = true := by rwa [ParseState.kind, current]
    obtain ⟨rest, ahead, same⟩ := h
    obtain ⟨-, inside⟩ := (behind word ahead (by rw [same])).1 rest
    refine ⟨current, inside, ahead, ?_⟩
    rw [same, next_eq word, List.map_cons, List.getLastD_cons, current]
  · rintro ⟨rfl, rest, ahead, same⟩
    refine ⟨(behind word ahead (by rw [same]; rfl)).2 ⟨rfl, rest⟩, ahead, ?_⟩
    rw [same, next_eq word, List.map_cons, List.getLastD_cons]

theorem crosses_append_iff {front back : List Token} (shown : state.kind.isBlank = false)
    (closed : state.closing.kind = eof) (words : ∀ token ∈ front, token.kind.startsLine = true) :
    state.Crosses (front ++ back) after ↔
      ∃ mid, state.Crosses front mid ∧ mid.Crosses back after := by
  induction front generalizing state with
  | nil => simp [crosses_nil_iff shown]
  | cons token front ih =>
      obtain ⟨word, words⟩ := List.forall_mem_cons.1 words
      simp only [List.cons_append, crosses_cons_iff shown closed word, and_assoc,
        exists_and_left]
      refine and_congr_right fun current => ih (isBlank_next ?_ closed) closed words
      rwa [ParseState.kind, current]

theorem Crosses.closed (h : state.Crosses tokens after) (closed : state.closing.kind = eof) :
    after.closing.kind = eof := by
  rw [h.same, closed]

theorem Crosses.length_le (h : state.Crosses tokens after) : tokens.length ≤ state.rest.length := by
  obtain ⟨⟨passed, rest, rfl⟩, -, -⟩ := h
  rw [rest, List.length_append]
  exact Nat.le_add_right_of_le (List.length_filter_le _ _)

end ParseState

end Crossing

section Reading

variable {state after : ParseState} {type : DataType} {repeated : TokenKind} {tokens : List Token}

/-- One round takes a token of the kind that is counted, or finds that there is none. -/
theorem round_eq_ok_iff {token? : Option Token} :
    (do if (← kind) = repeated then return some (← take) else return none : ParseM _).run.run
        state = (.ok token?, after) ↔
      state.kind = repeated ∧ token? = some state.current ∧ after = state.next ∨
        state.kind ≠ repeated ∧ token? = none ∧ after = state := by
  simp only [run_bind_eq_ok_iff, kind_eq_ok_iff, run_ite_eq_ok_iff, run_pure_eq_ok_iff,
    take_eq_ok_iff, and_assoc, exists_eq_left, exists_and_left]

theorem crosses_of_collectWithin (times : Nat) (word : repeated.startsLine = true)
    (shown : state.kind.isBlank = false) (closed : state.closing.kind = eof)
    (run : (collectWithin (do if (← kind) = repeated then return some (← take) else return none)
      times).run.run state = (.ok tokens, after)) :
    state.Crosses tokens after ∧ (∀ token ∈ tokens, token.kind = repeated) ∧
      after.kind ≠ repeated := by
  induction times generalizing state tokens with
  | zero => cases run
  | succ times ih =>
      obtain ⟨token?, mid, read, goesOn⟩ := run_bind_eq_ok_iff.1 run
      rcases round_eq_ok_iff.1 read with ⟨found, rfl, rfl⟩ | ⟨other, rfl, rfl⟩
      · obtain ⟨others, mid, read, ends⟩ := run_bind_eq_ok_iff.1 goesOn
        obtain ⟨rfl, rfl⟩ := run_pure_eq_ok_iff.1 ends
        have word : state.kind.startsLine = true := found ▸ word
        obtain ⟨crosses, row, stops⟩ := ih (isBlank_next word closed) closed read
        exact ⟨(crosses_cons_iff shown closed word).2 ⟨rfl, crosses⟩,
          List.forall_mem_cons.2 ⟨found, row⟩, stops⟩
      · obtain ⟨rfl, rfl⟩ := run_pure_eq_ok_iff.1 goesOn
        exact ⟨(crosses_nil_iff shown).2 rfl, List.forall_mem_nil _, other⟩

theorem collectWithin_of_crosses (times : Nat) (word : repeated.startsLine = true)
    (shown : state.kind.isBlank = false) (closed : state.closing.kind = eof)
    (crosses : state.Crosses tokens after) (row : ∀ token ∈ tokens, token.kind = repeated)
    (stops : after.kind ≠ repeated) (enough : tokens.length < times) :
    (collectWithin (do if (← kind) = repeated then return some (← take) else return none)
      times).run.run state = (.ok tokens, after) := by
  induction tokens generalizing state times with
  | nil =>
      obtain _ | times := times
      · exact absurd enough (Nat.not_lt_zero _)
      obtain rfl := (crosses_nil_iff shown).1 crosses
      exact run_bind_eq_ok_iff.2 ⟨_, _, round_eq_ok_iff.2 (.inr ⟨stops, rfl, rfl⟩), rfl⟩
  | cons token tokens ih =>
      obtain _ | times := times
      · exact absurd enough (Nat.not_lt_zero _)
      obtain ⟨found, others⟩ := List.forall_mem_cons.1 row
      obtain ⟨rfl, behind⟩ := (crosses_cons_iff shown closed (found ▸ word)).1 crosses
      have found : state.kind = repeated := found
      have collected := ih times (isBlank_next (found ▸ word) closed) closed behind others
        (Nat.lt_of_succ_lt_succ enough)
      exact run_bind_eq_ok_iff.2 ⟨_, _, round_eq_ok_iff.2 (.inl ⟨found, rfl, rfl⟩),
        run_bind_eq_ok_iff.2 ⟨_, _, collected, rfl⟩⟩

/-- All tokens of a kind are counted that stand one behind the other. -/
theorem countOf_eq_ok_iff {count : Nat} (word : repeated.startsLine = true)
    (shown : state.kind.isBlank = false) (closed : state.closing.kind = eof) :
    (countOf repeated).run.run state = (.ok count, after) ↔
      ∃ row, state.Crosses row after ∧ (∀ token ∈ row, token.kind = repeated) ∧
        after.kind ≠ repeated ∧ row.length = count := by
  rw [countOf, run_bind_eq_ok_iff]
  constructor
  · rintro ⟨row, mid, run, ends⟩
    obtain ⟨rfl, rfl⟩ := run_pure_eq_ok_iff.1 ends
    obtain ⟨crosses, same, stops⟩ := crosses_of_collectWithin _ word shown closed run
    exact ⟨row, crosses, same, stops, rfl⟩
  · rintro ⟨row, crosses, same, stops, rfl⟩
    exact ⟨row, after, collectWithin_of_crosses _ word shown closed crosses same stops
      (Nat.lt_succ_of_le crosses.length_le), rfl⟩

/-- Where another kind of token stands, none is counted. -/
theorem eq_of_countOf {count : Nat} (other : state.kind ≠ repeated)
    (run : (countOf repeated).run.run state = (.ok count, after)) : after = state := by
  obtain ⟨row, mid, collected, ends⟩ := run_bind_eq_ok_iff.1 run
  obtain ⟨-, rfl⟩ := run_pure_eq_ok_iff.1 ends
  have first : (collectWithin
      (do if (← kind) = repeated then return some (← take) else return none)
      (state.rest.length + 1)).run.run state = (.ok row, after) := collected
  obtain ⟨token?, mid, read, goesOn⟩ := run_bind_eq_ok_iff.1 first
  rcases round_eq_ok_iff.1 read with ⟨found, -⟩ | ⟨-, rfl, rfl⟩
  · exact absurd found other
  · exact (run_pure_eq_ok_iff.1 goesOn).2

theorem typeName_eq_ok_iff :
    typeName.run.run state = (.ok type, after) ↔
      (state.kind = identifier ∨ state.kind = nullWord) ∧
        type = .ofName state.current.value ∧ after = state.next := by
  have taken : (do return DataType.ofName (← take).value : ParseM DataType).run.run state =
      (.ok type, after) ↔ type = .ofName state.current.value ∧ after = state.next := by
    simp only [run_bind_eq_ok_iff, take_eq_ok_iff, run_pure_eq_ok_iff, and_assoc, exists_eq_left,
      exists_and_left]
  simp only [typeName, run_bind_eq_ok_iff, kind_eq_ok_iff, and_assoc, exists_eq_left,
    exists_and_left]
  split
  · next found => simp only [found, taken, true_or, true_and]
  · next found => simp only [found, taken, or_true, true_and]
  · next name null =>
    refine iff_of_false failHere_ne_ok fun named => ?_
    exact named.1.elim name null

/-- Reading a type returns just what is written. -/
theorem typeSpec_eq_ok_iff (shown : state.kind.isBlank = false)
    (closed : state.closing.kind = eof) :
    typeSpec.run.run state = (.ok type, after) ↔
      ∃ written : TypeTokens, written.type = type ∧ state.Crosses written.tokens after ∧
        after.kind ≠ closeBracket := by
  have balance {opened count : Nat} {element : DataType} {mid : ParseState} {start : Position} :
      (if count = opened then pure (element.nested opened) else do
        fail (.unexpectedTokenDetailed (← get).current.designation "unbalanced brackets in type")
          start : ParseM DataType).run.run mid = (.ok type, after) ↔
        count = opened ∧ type = element.nested opened ∧ after = mid := by
    have unbalanced : (do
        fail (.unexpectedTokenDetailed (← get).current.designation "unbalanced brackets in type")
          start : ParseM DataType).run.run mid ≠ (.ok type, after) := nofun
    simp only [run_ite_eq_ok_iff, run_pure_eq_ok_iff, unbalanced, and_false, or_false]
  rw [typeSpec, Action.run_bind, Action.run_get]
  simp only [run_bind_eq_ok_iff, typeName_eq_ok_iff, balance]
  have word {token : Token} (named : token.kind = identifier ∨ token.kind = nullWord) :
      token.kind.startsLine = true := by
    rcases named with found | found <;> rw [found] <;> rfl
  constructor
  · rintro ⟨opened, before, opens, element, behind, ⟨named, rfl, rfl⟩, count, after, closes, rfl,
      rfl, rfl⟩
    obtain ⟨front, crosses, opening, -, rfl⟩ := (countOf_eq_ok_iff rfl shown closed).1 opens
    have closed' := crosses.closed closed
    obtain ⟨back, crosses', closing, stops, balanced⟩ :=
      (countOf_eq_ok_iff rfl (isBlank_next (word named) closed') closed').1 closes
    refine ⟨⟨front, before.current, back, opening, named, closing, balanced⟩, rfl, ?_, stops⟩
    refine (crosses_append_iff shown closed fun token listed => ?_).2 ⟨before, crosses, ?_⟩
    · rw [opening token listed]; rfl
    · exact (crosses_cons_iff crosses.ahead closed' (word named)).2 ⟨rfl, crosses'⟩
  · rintro ⟨⟨front, name, back, opening, named, closing, balanced⟩, rfl, crosses, stops⟩
    obtain ⟨before, crosses, behind⟩ :=
      (crosses_append_iff shown closed fun token listed => by rw [opening token listed]; rfl).1
        crosses
    have closed' := crosses.closed closed
    obtain ⟨rfl, behind⟩ := (crosses_cons_iff crosses.ahead closed' (word named)).1 behind
    refine ⟨front.length, before, ?_, _, _, ⟨named, rfl, rfl⟩, back.length, after, ?_, balanced,
      rfl, rfl⟩
    · refine (countOf_eq_ok_iff rfl shown closed).2 ⟨front, crosses, opening, ?_, rfl⟩
      intro opens
      change before.current.kind = openBracket at opens
      rcases named with found | found <;> rw [opens] at found <;> cases found
    · exact (countOf_eq_ok_iff rfl (isBlank_next (word named) closed') closed').2
        ⟨back, behind, closing, stops, rfl⟩

/-- Where a type is read, no blank stands. -/
theorem isBlank_of_typeSpec (run : typeSpec.run.run state = (.ok type, after)) :
    state.kind.isBlank = false := by
  rw [typeSpec, Action.run_bind, Action.run_get] at run
  obtain ⟨opened, before, opens, behind⟩ := run_bind_eq_ok_iff.1 run
  obtain ⟨element, mid, named, -⟩ := run_bind_eq_ok_iff.1 behind
  by_cases bracket : state.kind = openBracket
  · rw [bracket]
    rfl
  · rw [eq_of_countOf bracket opens] at named
    rcases (typeName_eq_ok_iff.1 named).1 with found | found <;> rw [found] <;> rfl

/-- The text of a type that can be written is read as the type. -/
theorem DataType.Spelled.exists_scan {type : DataType} (spelled : type.Spelled Admits)
    (file : String) : ∃ tokens after, Token.scan type.text file = .ok tokens ∧
      typeSpec.run.run (.ofTokens tokens file) = (.ok type, after) ∧ after.kind = eof := by
  have legible : Legible (type.words ++ []) := spelled.legible ⟨nofun, trivial⟩
  rw [List.append_nil] at legible
  obtain ⟨tokens, last, scanned, words, ends⟩ := legible.scanFrom file 0
  rw [DataType.listText_words] at scanned
  have start := @ofTokens_append_eof tokens last file ends
  generalize same : ParseState.ofTokens (tokens ++ [last]) file = state at start
  have ahead : state.words = type.words ++ [] := by
    rw [start, List.append_nil]
    exact words
  have reads := typeSpec_reads spelled ahead (by simp [skip])
  have ready : state.Ready fun _ _ => True := by
    rw [start]
    exact ⟨ends, rfl, fun _ _ => trivial⟩
  have held := reads ready
  unfold Action.Ensures at held
  split at held
  · next again after run =>
    obtain ⟨passes, rfl, none⟩ := held
    refine ⟨_, after, scanned, by rw [same]; exact run, ?_⟩
    rw [(passes.leads.ready ready).kind_eq, none]
    rfl
  · exact absurd held.2 id

/-- A type that is read from tokens whose values their kinds admit can be written. -/
theorem spelled_of_typeSpec (admitted : ∀ token ∈ state.rest, token.kind.Admits token.value)
    (closed : state.closing.kind = eof) (run : typeSpec.run.run state = (.ok type, after)) :
    type.Spelled Admits := by
  obtain ⟨written, rfl, crosses, -⟩ :=
    (typeSpec_eq_ok_iff (isBlank_of_typeSpec run) closed).1 run
  obtain ⟨passed, rest, taken⟩ := crosses.rest
  have listed : written.name ∈ state.rest := by
    have shown : written.name ∈ visible passed := by simp [taken, TypeTokens.tokens]
    rw [rest]
    exact List.mem_append_left _ (List.mem_of_mem_filter shown)
  exact ⟨_, _, _, written.named, admitted _ listed, rfl⟩

/-- From a state before no blank, a type is read if and only if it is written there, up to a token
that is no closing bracket. The text of a type that is read from a text is read as the type. -/
theorem typeSpec_written_and_scanned :
    (∀ state type after, state.closing.kind = eof → state.kind.isBlank = false →
      (typeSpec.run.run state = (.ok type, after) ↔
        ∃ written : TypeTokens, written.type = type ∧ state.Crosses written.tokens after ∧
          after.kind ≠ closeBracket)) ∧
    ∀ source file tokens state type after, Token.scan source file = .ok tokens →
      state.closing.kind = eof → state.rest ⊆ tokens →
      typeSpec.run.run state = (.ok type, after) →
        ∀ file', ∃ tokens' after', Token.scan type.text file' = .ok tokens' ∧
          typeSpec.run.run (.ofTokens tokens' file') = (.ok type, after') ∧
          after'.kind = eof := by
  refine ⟨fun state type after closed shown => typeSpec_eq_ok_iff shown closed, ?_⟩
  intro source file tokens state type after scanned closed inside run file'
  have admitted : ∀ token ∈ tokens, token.kind.Admits token.value := by
    have outcome := scan_outcome source file
    rw [scanned] at outcome
    exact outcome
  have spelled : type.Spelled Admits :=
    spelled_of_typeSpec (fun token listed => admitted token (inside listed)) closed run
  exact spelled.exists_scan file'

/-- An array of arrays is read over blanks, and again from its text. -/
theorem typeSpec_written_and_scanned_nested : ∃ front last type after,
    Token.scan "[ [double\t]] = a" "pots" = .ok (front ++ [last]) ∧ last.kind = eof ∧
    typeSpec.run.run (.ofTokens (front ++ [last]) "pots") = (.ok type, after) ∧
    type.text = "[[double]]" ∧
    (∃ written : TypeTokens, written.type = type ∧
      (ParseState.ofTokens (front ++ [last]) "pots").Crosses written.tokens after ∧
      after.kind ≠ closeBracket) ∧
    ∃ tokens' after', Token.scan type.text "again" = .ok tokens' ∧
      typeSpec.run.run (.ofTokens tokens' "again") = (.ok type, after') ∧ after'.kind = eof := by
  have reads : ((Token.scan "[ [double\t]] = a" "pots").toOption.map fun tokens =>
      (typeSpec.run.run (.ofTokens tokens "pots")).1.toOption.map DataType.text) =
        some (some "[[double]]") := by
    decide +kernel
  obtain ⟨tokens, scanned, read⟩ := exists_ok_of_map_toOption reads
  obtain ⟨front, last, rfl, ends, -⟩ := closed_of_scan scanned
  have start := @ofTokens_append_eof front last "pots" ends
  refine ⟨front, last, ?_⟩
  generalize ParseState.ofTokens (front ++ [last]) "pots" = state at read start ⊢
  have closed : state.closing.kind = eof := by rw [start]; exact ends
  have inside : state.rest ⊆ front ++ [last] := by rw [start]; exact List.subset_append_left _ _
  cases run : typeSpec.run.run state with
  | mk result after =>
      rw [run] at read
      obtain ⟨type, rfl, text⟩ := exists_ok_of_map_toOption read
      have shown := isBlank_of_typeSpec run
      obtain ⟨written, again⟩ := typeSpec_written_and_scanned
      exact ⟨type, after, scanned, ends, rfl, text,
        (written state type after closed shown).1 run,
        again _ _ _ state type after scanned closed inside run "again"⟩

end Reading

end Offside
