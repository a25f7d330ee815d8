import Offside.Proofs.Comparing.Relocation
import Offside.Proofs.Reading.Words

/-! # Comparing two readings

Two readings of tokens that look alike go on side by side: what is read from the one is what is read
from the other, at another place, or both fail with the same kind of error. A comparison says when
tokens look alike, inside of a line and between two lines, and where the places, handles and numbers
of the two readings are moved to so that they are the same.
-/

namespace Offside

open Parse ParseState

/-- Some tokens from the first one on that is not blank. -/
def afterBlanks (tokens : List Token) : List Token :=
  tokens.dropWhile fun token => token.kind.isBlank

/-- Whether a line ends with a token of a kind. -/
def TokenKind.endsLine : TokenKind → Bool
  | newline | eof => true
  | _ => false

theorem endsLine_of_startsLine {kind : TokenKind} (h : kind.startsLine = true) :
    kind.endsLine = false := by
  cases kind <;> first | rfl | cases h

/-- What two readings are compared by. -/
structure Comparison where
  /-- Where what is read on the left is moved. -/
  left : Relocation
  /-- Where what is read on the right is moved. -/
  right : Relocation
  /-- The tokens ahead look alike, inside of a line. -/
  inLine : List Token → List Token → Prop
  /-- The tokens ahead look alike, at the start of a line. -/
  atLine : List Token → List Token → Prop
  /-- The programs read so far correspond. -/
  programs : Program → Program → Prop
  /-- The next numbers correspond. -/
  numbers : Nat → Nat → Prop
  /-- The tokens on the right may go on where those on the left end. -/
  beyond : Prop
  /-- The reading on the right may fail on its own with this error. -/
  late : Error → Prop

/-- Some tokens start with the end of a line, and others stand behind it. -/
inductive LineEnd : List Token → List Token → Prop where
  | eof : LineEnd [] []
  | newline {token rest} : token.kind = .newline → LineEnd (token :: rest) rest

namespace Comparison

variable (c : Comparison)

/-- What is seen ahead inside of a line: a word, or the end of the line. -/
inductive WordAhead : List Token → List Token → Prop where
  | word {token token' rest rest'} : token.word = token'.word → token.kind.startsLine = true →
    token.span.moved c.left = token'.span.moved c.right →
    c.inLine (afterBlanks rest) (afterBlanks rest') → WordAhead (token :: rest) (token' :: rest')
  | lineEnd {rest rest' behind behind'} : LineEnd rest behind → LineEnd rest' behind' →
    c.atLine behind behind' → WordAhead rest rest'

/-- What is seen ahead behind any blank lines: nothing, a line on both sides, or a line of the
outermost block on the right alone. -/
inductive LineAhead : List Token → List Token → Prop where
  | none : LineAhead [] []
  | line {line line' token rest} :
    width (line.takeWhile fun token => token.kind.isBlank) =
      width (line'.takeWhile fun token => token.kind.isBlank) →
    afterBlanks line = token :: rest → token.kind.startsLine = true →
    c.inLine (afterBlanks line) (afterBlanks line') → LineAhead line line'
  | beyond {token rest} : c.beyond → token.kind.startsLine = true → token.kind ≠ .elifWord →
    token.kind ≠ .elseWord → LineAhead [] (token :: rest)

/-- Behind any blank lines, the tokens ahead look alike. -/
def atNextLine (rest rest' : List Token) : Prop :=
  c.LineAhead rest rest' ∧ c.atLine rest rest'

/-- A comparison is kept up by reading: where tokens look alike, those behind the next word or line
do so too, and programs and numbers that correspond go on to do so. -/
structure Lawful : Prop where
  word : ∀ {rest rest'}, c.inLine rest rest' → c.WordAhead rest rest'
  line : ∀ {rest rest'}, c.atLine rest rest' →
    c.atNextLine (dropBlankLines rest rest) (dropBlankLines rest' rest')
  nextDecl : ∀ {program program'}, c.programs program program' →
    c.left.decl program.nextDecl = c.right.decl program'.nextDecl
  insertDecl : ∀ {program program' name type init init' span span'}, c.programs program program' →
    init.map (Expr.moved c.left) = init'.map (Expr.moved c.right) →
    span.moved c.left = span'.moved c.right →
    c.programs (program.insertDecl name type init span) (program'.insertDecl name type init' span')
  number : ∀ {number number'}, c.numbers number number' →
    c.left.number number = c.right.number number'
  nextNumber : ∀ {number number'}, c.numbers number number' → c.numbers (number + 1) (number' + 1)

/-- Two states of reading stand before tokens that look alike, with programs that correspond. Where
the tokens read so far ended is compared as soon as one has been read on each side. -/
structure Abreast (started : Prop) (cursor : List Token → List Token → Prop)
    (state state' : ParseState) : Prop where
  rest : cursor state.rest state'.rest
  closing : state.closing.kind = .eof
  closing' : state'.closing.kind = .eof
  grammar : state.grammar = .full
  grammar' : state'.grammar = .full
  indent : state.indent = state'.indent
  program : c.programs state.program state'.program
  nextId : c.numbers state.nextId state'.nextId
  lastEnd : started → c.left.position state.lastEnd = c.right.position state'.lastEnd

end Comparison

/-- An action leaves a block that it enters, and does not go back. -/
structure ParseState.Stays (state after : ParseState) : Prop where
  rest : after.rest.length ≤ state.rest.length
  indent : after.indent = state.indent

theorem ParseState.Stays.refl (state : ParseState) : state.Stays state :=
  ⟨Nat.le_refl _, rfl⟩

theorem ParseState.Stays.trans {state mid after : ParseState} (h : state.Stays mid)
    (h' : mid.Stays after) : state.Stays after :=
  ⟨Nat.le_trans h'.rest h.rest, h'.indent.trans h.indent⟩

theorem ParseState.Passes.stays {state after : ParseState} (h : state.Passes after) :
    state.Stays after :=
  ⟨h.rest.length_le, h.indent⟩

/-- Two outcomes are as described, or errors of the same kind. The outcome on the right may also be
a late error. -/
def Comparison.Alike (c : Comparison) {α : Type} (returns : α → α → Prop) :
    Except Error α → Except Error α → Prop
  | .ok value, .ok value' => returns value value'
  | .error error, .error error' => error.cause.name = error'.cause.name ∨ c.late error'
  | .ok _, .error error' => c.late error'
  | .error _, .ok _ => False

/-- From two states, what two actions return is as described, or they fail with the same kind of
error. The action on the right may also fail late. -/
def Comparison.Follows (c : Comparison) {α : Type} (action action' : ParseM α)
    (state state' : ParseState) (returns : α → α → ParseState → ParseState → Prop) : Prop :=
  c.Alike (fun value value' =>
      state.Stays (action.run.run state).2 ∧ state'.Stays (action'.run.run state').2 ∧
        returns value value' (action.run.run state).2 (action'.run.run state').2)
    (action.run.run state).1 (action'.run.run state').1

section Following

variable {c : Comparison} {α β : Type} {action action' : ParseM α} {state state' : ParseState}
  {returns returns' : α → α → ParseState → ParseState → Prop}
  {ends : β → β → ParseState → ParseState → Prop}

theorem Comparison.Alike.mono {results results' : α → α → Prop} {result result' : Except Error α}
    (h : c.Alike results result result')
    (weaker : ∀ value value', results value value' → results' value value') :
    c.Alike results' result result' := by
  cases result with
  | ok value =>
      cases result' with
      | ok value' => exact weaker value value' h
      | error error' => exact h
  | error error =>
      cases result' with
      | ok value' => exact h
      | error error' => exact h

/-- A late error on the right is allowed whatever comes of the left. -/
theorem Comparison.Alike.of_late {results : α → α → Prop} {result : Except Error α} {error : Error}
    (h : c.late error) : c.Alike results result (.error error) := by
  cases result with
  | ok value => exact h
  | error error => exact .inr h

namespace Comparison.Follows

theorem mono (h : c.Follows action action' state state' returns)
    (hreturns : ∀ value value' after after', state.Stays after → state'.Stays after' →
      returns value value' after after' → returns' value value' after after') :
    c.Follows action action' state state' returns' := by
  apply Alike.mono h
  intro value value' held
  exact ⟨held.1, held.2.1, hreturns _ _ _ _ held.1 held.2.1 held.2.2⟩

theorem bind {next next' : α → ParseM β} (h : c.Follows action action' state state' returns)
    (hnext : ∀ value value' after after', state.Stays after → state'.Stays after' →
      returns value value' after after' → c.Follows (next value) (next' value') after after' ends) :
    c.Follows (action >>= next) (action' >>= next') state state' ends := by
  unfold Follows at h ⊢
  rw [Action.run_bind, Action.run_bind]
  generalize action.run.run state = outcome at h ⊢
  generalize action'.run.run state' = outcome' at h ⊢
  obtain ⟨result, mid⟩ := outcome
  obtain ⟨result', mid'⟩ := outcome'
  cases result with
  | ok value =>
      cases result' with
      | ok value' =>
          obtain ⟨stays, stays', held⟩ := h
          have rest := hnext value value' mid mid' stays stays' held
          apply Alike.mono rest
          intro _ _ rest
          exact ⟨stays.trans rest.1, stays'.trans rest.2.1, rest.2.2⟩
      | error error' => exact .of_late h
  | error error =>
      cases result' with
      | ok value' => exact h.elim
      | error error' => exact h

theorem pure {value value' : α} (h : returns value value' state state') :
    c.Follows (Pure.pure value) (Pure.pure value') state state' returns :=
  ⟨.refl state, .refl state', h⟩

theorem fail {cause cause' : ErrorCause} {position position' : Position}
    (h : cause.name = cause'.name) :
    c.Follows (Parse.fail cause position) (Parse.fail cause' position') state state' returns :=
  .inl h

theorem failHere {cause : String → ErrorCause}
    (h : ∀ text text', (cause text).name = (cause text').name) :
    c.Follows (Parse.failHere cause) (Parse.failHere cause) state state' returns :=
  .inl (h _ _)

theorem get_bind {next next' : ParseState → ParseM β}
    (h : c.Follows (next state) (next' state') state state' ends) :
    c.Follows (get >>= next) (get >>= next') state state' ends := h

theorem kind_bind {next next' : TokenKind → ParseM β}
    (h : c.Follows (next state.kind) (next' state'.kind) state state' ends) :
    c.Follows (kind >>= next) (kind >>= next') state state' ends := h

theorem spanSince_bind {start start' : Position} {next next' : Span → ParseM β}
    (h : c.Follows (next (state.spanSince start)) (next' (state'.spanSince start')) state state'
      ends) :
    c.Follows (spanSince start >>= next) (spanSince start' >>= next') state state' ends := h

/-- A test has the same outcome on both sides. -/
theorem ite {test test' : Prop} [Decidable test] [Decidable test'] {other other' : ParseM α}
    (same : test ↔ test') (hyes : test → c.Follows action action' state state' returns)
    (hno : ¬ test → c.Follows other other' state state' returns) :
    c.Follows (if test then action else other) (if test' then action' else other') state state'
      returns := by
  by_cases found : test
  · rw [if_pos found, if_pos (same.1 found)]
    exact hyes found
  · rw [if_neg found, if_neg (mt same.2 found)]
    exact hno found

theorem discard (h : c.Follows action action' state state' returns) :
    c.Follows (Functor.discard action) (Functor.discard action') state state'
      fun _ _ after after' => ∃ value value', returns value value' after after' := by
  change c.Follows (action >>= fun _ => Pure.pure ()) (action' >>= fun _ => Pure.pure ()) _ _ _
  exact h.bind fun value value' _ _ _ _ held => .pure ⟨value, value', held⟩

/-- Going forward without a look at anything else. -/
theorem modify {change change' : ParseState → ParseState} (stays : state.Stays (change state))
    (stays' : state'.Stays (change' state')) :
    c.Follows (modify change) (modify change') state state'
      fun _ _ after after' => after = change state ∧ after' = change' state' :=
  ⟨stays, stays', rfl, rfl⟩

/-- What each of the two actions returns by itself is known as well. -/
theorem both {R : ParseState → ParseState → Prop} {fails : Error → Prop}
    {alone alone' : α → ParseState → Prop} {good : TokenKind → String → Prop}
    (h : c.Follows action action' state state' returns)
    (ready : state.Ready good) (ready' : state'.Ready good)
    (left : Runs good R fails action state alone) (right : Runs good R fails action' state' alone') :
    c.Follows action action' state state' fun value value' after after' =>
      returns value value' after after' ∧ alone value after ∧ alone' value' after' := by
  have left := left ready
  have right := right ready'
  unfold Follows at h ⊢
  unfold Action.Ensures at left right
  generalize action.run.run state = outcome at h left ⊢
  generalize action'.run.run state' = outcome' at h right ⊢
  obtain ⟨result, after⟩ := outcome
  obtain ⟨result', after'⟩ := outcome'
  cases result with
  | ok value =>
      cases result' with
      | ok value' => exact ⟨h.1, h.2.1, h.2.2, left.2, right.2⟩
      | error error' => exact h
  | error error =>
      cases result' with
      | ok value' => exact h
      | error error' => exact h

/-- Where the left returns and the right has no errors of its own, the right returns as well. -/
theorem exists_of_ok {value : α} {after : ParseState}
    (h : c.Follows action action' state state' returns)
    (run : action.run.run state = (.ok value, after)) (never : ∀ error, ¬ c.late error) :
    ∃ value' after', action'.run.run state' = (.ok value', after') ∧ state.Stays after ∧
      state'.Stays after' ∧ returns value value' after after' := by
  unfold Follows at h
  rw [run] at h
  generalize action'.run.run state' = outcome at h ⊢
  obtain ⟨result, after'⟩ := outcome
  cases result with
  | ok value' => exact ⟨value', after', rfl, h.1, h.2.1, h.2.2⟩
  | error error => exact absurd h (never error)

end Comparison.Follows

end Following

/-- A declaration starts with a name. -/
theorem kind_of_startsDeclaration {state : ParseState} (h : state.startsDeclaration = true) :
    state.kind = .identifier := by
  unfold startsDeclaration at h
  unfold ParseState.kind ParseState.current
  cases before : state.rest with
  | nil =>
      rw [before] at h
      cases h
  | cons token rest =>
      rw [before] at h
      dsimp only at h
      rw [Bool.and_eq_true, beq_iff_eq] at h
      exact h.1

section Cursors

variable {c : Comparison} {started : Prop} {state state' : ParseState} {rest rest' : List Token}

namespace Comparison

theorem WordAhead.afterBlanks_eq (h : c.WordAhead rest rest') :
    afterBlanks rest = rest ∧ afterBlanks rest' = rest' := by
  have visible : ∀ {token : Token} {rest : List Token}, token.kind.isBlank = false →
      afterBlanks (token :: rest) = token :: rest := by
    intro token rest blank
    rw [afterBlanks, List.dropWhile_cons, blank]
    rfl
  have ending : ∀ {rest behind : List Token}, LineEnd rest behind → afterBlanks rest = rest := by
    intro rest behind ends
    cases ends with
    | eof => rfl
    | newline newline => exact visible (by rw [newline]; rfl)
  cases h with
  | @word token token' _ _ same starts _ _ =>
      have kind : token.kind = token'.kind := congrArg Word.kind same
      exact ⟨visible (isBlank_of_startsLine starts),
        visible (isBlank_of_startsLine (kind ▸ starts))⟩
  | lineEnd ends ends' _ => exact ⟨ending ends, ending ends'⟩

namespace Abreast

variable {cursor cursor' : List Token → List Token → Prop}

theorem move (h : c.Abreast started cursor state state')
    (moved : cursor' rest rest') :
    c.Abreast started cursor' { state with rest } { state' with rest := rest' } :=
  ⟨moved, h.closing, h.closing', h.grammar, h.grammar', h.indent, h.program, h.nextId, h.lastEnd⟩

theorem imp (h : c.Abreast started cursor state state')
    (weaker : cursor state.rest state'.rest → cursor' state.rest state'.rest) :
    c.Abreast started cursor' state state' :=
  h.move (weaker h.rest)

theorem weaken {started' : Prop} (h : c.Abreast started cursor state state')
    (weaker : started' → started) : c.Abreast started' cursor state state' :=
  { h with lastEnd := fun holds => h.lastEnd (weaker holds) }

theorem withProgram (h : c.Abreast started cursor state state') {next next' : Program}
    (programs : c.programs next next') :
    c.Abreast started cursor { state with program := next } { state' with program := next' } :=
  { h with program := programs }

theorem ready (h : c.Abreast started cursor state state') :
    state.Ready (fun _ _ => True) ∧ state'.Ready fun _ _ => True :=
  ⟨⟨h.closing, h.grammar, fun _ _ => trivial⟩, h.closing', h.grammar', fun _ _ => trivial⟩

/-- What does not tell a line break from the end of the input does not tell the kinds ahead apart. -/
theorem kind_congr {γ : Sort*} (lawful : c.Lawful) (h : c.Abreast started c.inLine state state')
    (look : TokenKind → γ) (ends : look .newline = look .eof) :
    look state.kind = look state'.kind := by
  have ending : ∀ {state : ParseState} {behind : List Token}, state.closing.kind = .eof →
      LineEnd state.rest behind → look state.kind = look .eof := by
    intro state behind closing ending
    unfold ParseState.kind ParseState.current
    generalize state.rest = rest at ending
    cases ending with
    | eof => rw [List.headD_nil, closing]
    | newline newline => rw [List.headD_cons, newline, ends]
  have ahead := lawful.word h.rest
  generalize before : state.rest = rest at ahead
  generalize before' : state'.rest = rest' at ahead
  cases ahead with
  | word same _ _ _ =>
      unfold ParseState.kind ParseState.current
      rw [before, before', List.headD_cons, List.headD_cons]
      exact congrArg look (congrArg Word.kind same)
  | lineEnd ends ends' _ =>
      rw [ending h.closing (before ▸ ends), ending h.closing' (before' ▸ ends')]

/-- Where a line ends on one side it does so on the other. -/
theorem lineEnd (lawful : c.Lawful) (h : c.Abreast started c.inLine state state')
    (ends : state.kind.endsLine = true) :
    ∃ behind behind', LineEnd state.rest behind ∧ LineEnd state'.rest behind' ∧
      c.atLine behind behind' := by
  have ahead := lawful.word h.rest
  generalize before : state.rest = rest at ahead
  generalize before' : state'.rest = rest' at ahead
  cases ahead with
  | word _ starts _ _ =>
      unfold ParseState.kind ParseState.current at ends
      rw [before, List.headD_cons] at ends
      exact absurd (endsLine_of_startsLine starts) (by simp [ends])
  | lineEnd line line' next => exact ⟨_, _, line, line', next⟩

theorem kind_iff (lawful : c.Lawful) (h : c.Abreast started c.inLine state state')
    {kind : TokenKind} (visible : kind.startsLine = true) :
    state.kind = kind ↔ state'.kind = kind := by
  have same := h.kind_congr lawful (fun found => found = kind) <| by
    apply propext
    constructor <;> (rintro rfl; cases visible)
  exact same ▸ Iff.rfl

/-- Where there is a word ahead, it is the same on both sides. -/
theorem word (lawful : c.Lawful) (h : c.Abreast started c.inLine state state')
    (visible : state.kind.startsLine = true) :
    ∃ token token' rest rest', state.rest = token :: rest ∧ state'.rest = token' :: rest' ∧
      token.word = token'.word ∧ token.span.moved c.left = token'.span.moved c.right ∧
      c.inLine (afterBlanks rest) (afterBlanks rest') := by
  have ahead := lawful.word h.rest
  generalize before : state.rest = rest at ahead
  generalize before' : state'.rest = rest' at ahead
  cases ahead with
  | word same _ spans behind => exact ⟨_, _, _, _, rfl, rfl, same, spans, behind⟩
  | lineEnd ends _ _ =>
      unfold ParseState.kind ParseState.current at visible
      rw [before] at visible
      cases ends with
      | eof =>
          rw [List.headD_nil, h.closing] at visible
          cases visible
      | newline newline =>
          rw [List.headD_cons, newline] at visible
          cases visible

/-- Whether a declaration starts is seen in the words ahead. -/
theorem startsDeclaration_eq (lawful : c.Lawful) (h : c.Abreast started c.inLine state state') :
    state.startsDeclaration = state'.startsDeclaration := by
  have ahead := lawful.word h.rest
  have plain : ∀ {state : ParseState} {behind : List Token}, LineEnd state.rest behind →
      state.startsDeclaration = false := by
    intro state behind ending
    unfold startsDeclaration
    generalize state.rest = rest at ending
    cases ending with
    | eof => rfl
    | newline newline =>
        dsimp only
        rw [newline]
        rfl
  generalize before : state.rest = rest at ahead
  generalize before' : state'.rest = rest' at ahead
  cases ahead with
  | @word token token' rest rest' same _ _ behind =>
      have kind : token.kind = token'.kind := congrArg Word.kind same
      have colon := (h.move behind).kind_iff lawful (show TokenKind.colon.startsLine = true from rfl)
      unfold startsDeclaration
      rw [before, before']
      dsimp only
      rw [kind]
      congr 1
      exact Bool.eq_iff_iff.2 (beq_iff_eq.trans (colon.trans beq_iff_eq.symm))
  | lineEnd ends ends' _ => rw [plain (before ▸ ends), plain (before' ▸ ends')]

/-- The word ahead stands at the same place. -/
theorem position (lawful : c.Lawful) (h : c.Abreast started c.inLine state state')
    (visible : state.kind.startsLine = true) :
    c.left.position state.position = c.right.position state'.position := by
  obtain ⟨token, token', rest, rest', before, before', _, spans, _⟩ := h.word lawful visible
  unfold ParseState.position ParseState.current
  rw [before, before']
  exact congrArg Span.start spans

end Abreast

end Comparison

end Cursors

end Offside
