import Offside.Grammar.Action
import Offside.Proofs.Outcome

/-! # Safe reading

Reading goes forward over a closed list of tokens. Whether it returns or fails, it has not gone back,
has not forgotten a declaration or a number that was there before, and is in the block it was in.
`Runs` says so of an action, together with what holds of what it returns and of the error it fails
with. An action is safe if it fails with no internal error, and a reader if it does not fail at all.
An expression is read by going forward alone.
-/

namespace Offside

open Parse

/-- What reading relies on: the list is closed, the table is that of the language, and the tokens
ahead are good ones. -/
structure ParseState.Ready (good : TokenKind → String → Prop) (state : ParseState) : Prop where
  closing : state.closing.kind = .eof
  grammar : state.grammar = .full
  tokens : ∀ token ∈ state.rest, good token.kind token.value

namespace ParseState

/-- One state is reached from another by going forward alone. -/
structure Passes (state after : ParseState) : Prop where
  rest : after.rest <:+ state.rest
  closing : after.closing = state.closing
  grammar : after.grammar = state.grammar
  indent : after.indent = state.indent
  program : after.program = state.program
  nextId : after.nextId = state.nextId

/-- One state is reached from another by reading. -/
structure Leads (state after : ParseState) : Prop where
  rest : after.rest <:+ state.rest
  closing : after.closing = state.closing
  grammar : after.grammar = state.grammar
  indent : after.indent = state.indent
  decls : state.program.decls.toList <+: after.program.decls.toList
  nextId : state.nextId ≤ after.nextId

variable {state mid after : ParseState} {good : TokenKind → String → Prop}

namespace Passes

theorem refl (state : ParseState) : state.Passes state :=
  ⟨List.suffix_rfl, rfl, rfl, rfl, rfl, rfl⟩

theorem trans (h : state.Passes mid) (h' : mid.Passes after) : state.Passes after :=
  ⟨h'.rest.trans h.rest, h'.closing.trans h.closing, h'.grammar.trans h.grammar,
    h'.indent.trans h.indent, h'.program.trans h.program, h'.nextId.trans h.nextId⟩

theorem leads (h : state.Passes after) : state.Leads after :=
  ⟨h.rest, h.closing, h.grammar, h.indent, h.program ▸ List.prefix_rfl,
    Nat.le_of_eq h.nextId.symm⟩

end Passes

namespace Leads

theorem trans (h : state.Leads mid) (h' : mid.Leads after) : state.Leads after :=
  ⟨h'.rest.trans h.rest, h'.closing.trans h.closing, h'.grammar.trans h.grammar,
    h'.indent.trans h.indent, h.decls.trans h'.decls, Nat.le_trans h.nextId h'.nextId⟩

theorem ready (h : state.Leads after) (ready : state.Ready good) : after.Ready good :=
  ⟨h.closing ▸ ready.closing, h.grammar ▸ ready.grammar, fun token member =>
    ready.tokens token (h.rest.subset member)⟩

end Leads

end ParseState

open ParseState

/-- A relation between the states before and after an action. -/
class Frame (R : ParseState → ParseState → Prop) : Prop where
  of_passes : ∀ {state after}, state.Passes after → R state after
  trans : ∀ {state mid after}, R state mid → R mid after → R state after
  leads : ∀ {state after}, R state after → state.Leads after

instance : Frame Passes := ⟨id, Passes.trans, Passes.leads⟩

instance : Frame Leads := ⟨Passes.leads, Leads.trans, id⟩

section Safety

variable {good : TokenKind → String → Prop} {R : ParseState → ParseState → Prop}
  {fails : Error → Prop} {α β : Type} {action : ParseM α} {state after : ParseState}
  {returns returns' : α → ParseState → Prop} {ends : β → ParseState → Prop}

/-- From a state that reading may start from, what an action returns and the error that it fails
with are as described. -/
def Runs (good : TokenKind → String → Prop) (R : ParseState → ParseState → Prop)
    (fails : Error → Prop) (action : ParseM α) (state : ParseState)
    (returns : α → ParseState → Prop) : Prop :=
  state.Ready good →
    Action.Ensures action state (fun value after => R state after ∧ returns value after)
      fun error after => R state after ∧ fails error

/-- An action fails with no internal error, and what it returns is as described. -/
abbrev Safe (good : TokenKind → String → Prop) (R : ParseState → ParseState → Prop)
    (action : ParseM α) (state : ParseState) (returns : α → ParseState → Prop) : Prop :=
  Runs good R (fun error => error.cause.category ≠ .internal) action state returns

/-- An action does not fail, and what it returns is as described. -/
abbrev Reads (R : ParseState → ParseState → Prop) (action : ParseM α) (state : ParseState)
    (returns : α → ParseState → Prop) : Prop :=
  Runs (fun _ _ => True) R (fun _ => False) action state returns

namespace Runs

theorem mono (h : Runs good R fails action state returns)
    (hreturns : ∀ value after, R state after → returns value after → returns' value after) :
    Runs good R fails action state returns' := fun ready =>
  (h ready).mono (fun value after held => ⟨held.1, hreturns value after held.1 held.2⟩)
    fun _ _ => id

/-- What holds of what an action returns holds of what it has returned. -/
theorem of_ok {value : α} (h : Runs good R fails action state returns) (ready : state.Ready good)
    (run : action.run.run state = (.ok value, after)) : R state after ∧ returns value after := by
  have held := h ready
  unfold Action.Ensures at held
  rw [run] at held
  exact held

/-- Going forward is possible in any frame. -/
theorem lift [Frame R] (h : Runs good Passes fails action state returns) :
    Runs good R fails action state fun value after => state.Passes after ∧ returns value after :=
  fun ready => (h ready).mono (fun _ _ held => ⟨Frame.of_passes held.1, held⟩)
    fun _ _ held => ⟨Frame.of_passes held.1, held.2⟩

theorem bind [Frame R] {next : α → ParseM β} (h : Runs good R fails action state returns)
    (hnext : ∀ value after, R state after → returns value after →
      Runs good R fails (next value) after ends) :
    Runs good R fails (action >>= next) state ends := fun ready =>
  (h ready).bind fun value after held =>
    (hnext value after held.1 held.2 ((Frame.leads held.1).ready ready)).mono
      (fun _ _ held' => ⟨Frame.trans held.1 held'.1, held'.2⟩)
      fun _ _ held' => ⟨Frame.trans held.1 held'.1, held'.2⟩

theorem discard [Frame R] (h : Runs good R fails action state returns) :
    Runs good R fails (Functor.discard action) state (fun _ after => ∃ value, returns value after) := by
  change Runs good R fails (action >>= fun _ => Pure.pure ()) state _
  exact h.bind fun value after _ held _ => ⟨Frame.of_passes (.refl after), value, held⟩

theorem pure [Frame R] {value : α} (h : returns value state) :
    Runs good R fails (Pure.pure value) state returns :=
  fun _ => ⟨Frame.of_passes (.refl state), h⟩

theorem fail [Frame R] {cause : ErrorCause} {position : Position} (h : fails ⟨cause, position⟩) :
    Runs good R fails (Parse.fail cause position) state returns :=
  fun _ => ⟨Frame.of_passes (.refl state), h⟩

theorem get_bind {next : ParseState → ParseM β} (h : Runs good R fails (next state) state ends) :
    Runs good R fails (get >>= next) state ends := h

theorem kind_bind {next : TokenKind → ParseM β} (h : Runs good R fails (next state.kind) state ends) :
    Runs good R fails (Parse.kind >>= next) state ends := h

theorem spanSince_bind {start : Position} {next : Span → ParseM β}
    (h : ∀ span, Runs good R fails (next span) state ends) :
    Runs good R fails (Parse.spanSince start >>= next) state ends := h _

theorem failHere [Frame R] {cause : String → ErrorCause}
    (h : ∀ text, fails ⟨cause text, state.position⟩) :
    Runs good R fails (Parse.failHere cause) state returns :=
  fun _ => ⟨Frame.of_passes (.refl state), h _⟩

/-- Going forward without a look at anything else. -/
theorem modify [Frame R] {change : ParseState → ParseState} (passes : state.Passes (change state)) :
    Runs good R fails (modify change) state fun _ after => after = change state :=
  fun _ => ⟨Frame.of_passes passes, rfl⟩

end Runs

section Cursor

theorem passes_rest {rest : List Token} {lastEnd : Position} (h : rest <:+ state.rest) :
    state.Passes { state with rest, lastEnd } :=
  ⟨h, rfl, rfl, rfl, rfl, rfl⟩

theorem passes_pass (state : ParseState) : state.Passes state.pass := by
  refine passes_rest ?_
  split
  · exact List.suffix_rfl
  · exact List.tail_suffix _

theorem passes_passBlanks (state : ParseState) : state.Passes state.passBlanks :=
  passes_rest (List.dropWhile_suffix _)

theorem dropBlankLines_suffix (line rest all : List Token) (hline : line <:+ all)
    (hrest : rest <:+ all) : dropBlankLines line rest <:+ all := by
  induction rest generalizing line with
  | nil => exact List.nil_suffix
  | cons token rest ih =>
      have behind : rest <:+ all := (List.suffix_cons token rest).trans hrest
      unfold dropBlankLines
      split
      · exact ih line hline behind
      split
      · exact ih rest behind behind
      split
      · exact hrest
      · exact hline

theorem passes_passBlankLines (state : ParseState) : state.Passes state.passBlankLines :=
  passes_rest (dropBlankLines_suffix _ _ _ List.suffix_rfl List.suffix_rfl)

/-- Where there is a token, it is good, and it is passed. -/
theorem current_of_ne_eof (ready : state.Ready good) (h : state.kind ≠ .eof) :
    good state.kind state.current.value ∧ state.pass.rest.length < state.rest.length := by
  have closing := ready.closing
  unfold ParseState.kind ParseState.current ParseState.pass at *
  cases hrest : state.rest with
  | nil => simp [hrest, closing] at h
  | cons token rest =>
      simp only [hrest, List.headD_cons] at h ⊢
      refine ⟨ready.tokens token (by simp [hrest]), ?_⟩
      simp [ParseState.kind, ParseState.current, hrest, h]

end Cursor

/-- Taking a token. Only the end of the input is not passed. -/
theorem take_safe [Frame R] :
    Safe good R take state fun token after =>
      token.kind = state.kind ∧ (state.kind ≠ .eof → good token.kind token.value ∧
        after.rest.length < state.rest.length) := by
  intro ready
  have passed := passes_passBlanks state.pass
  refine ⟨Frame.of_passes ((passes_pass state).trans passed), rfl, fun h => ?_⟩
  obtain ⟨spelled, shorter⟩ := current_of_ne_eof ready h
  exact ⟨spelled, Nat.lt_of_le_of_lt passed.rest.length_le shorter⟩

/-- Taking a token of a certain kind. -/
theorem expect_safe [Frame R] {expected : TokenKind} (h : expected ≠ .eof) :
    Safe good R (expect expected) state fun token after =>
      token.kind = expected ∧ good expected token.value ∧
        after.rest.length < state.rest.length := by
  refine .kind_bind ?_
  split
  · next found =>
    refine take_safe.mono fun token after _ taken => ?_
    obtain ⟨spelled, shorter⟩ := taken.2 (found ▸ h)
    have same := taken.1.trans found
    exact ⟨same, same ▸ spelled, shorter⟩
  · exact .failHere fun _ => by simp [ErrorCause.category]

theorem expectName_safe [Frame R] {complaint : String} :
    Safe good R (expectName complaint) state fun token after =>
      good .identifier token.value ∧ after.rest.length < state.rest.length := by
  refine .kind_bind ?_
  split
  · next found =>
    refine take_safe.mono fun token after _ taken => ?_
    obtain ⟨spelled, shorter⟩ := taken.2 (by simp [found])
    exact ⟨taken.1.trans found ▸ spelled, shorter⟩
  · exact .failHere fun _ => by simp [ErrorCause.category]

theorem lineEnd_safe [Frame R] : Safe good R lineEnd state fun _ _ => True := by
  refine (Runs.modify (passes_passBlanks state)).bind fun _ after _ _ => .kind_bind ?_
  split
  · have passing : Safe good R pass after fun _ _ => True := fun _ =>
      ⟨Frame.of_passes (passes_pass after), trivial⟩
    exact passing.discard.mono fun _ _ _ _ => trivial
  · exact .pure trivial
  · exact .failHere fun _ => by simp [ErrorCause.category]

theorem blockStart_safe [Frame R] :
    Safe good R blockStart state fun _ after => after.rest.length < state.rest.length := by
  refine (expect_safe (by simp)).discard.bind fun _ mid _ ⟨_, _, _, shorter⟩ => ?_
  exact lineEnd_safe.mono fun _ after reads _ =>
    Nat.lt_of_le_of_lt (Frame.leads reads).rest.length_le shorter

theorem moreLines_safe [Frame R] : Safe good R moreLines state fun _ _ => True := by
  refine (Runs.modify (passes_passBlankLines state)).bind fun _ mid _ _ => .get_bind ?_
  split
  · exact .pure trivial
  split
  · exact (Runs.modify (passes_passBlanks mid)).bind fun _ _ _ _ => .pure trivial
  split
  · exact .pure trivial
  · exact .fail (by simp [ErrorCause.category])

theorem atWord_safe [Frame R] {column : Nat} {word : TokenKind} :
    Safe good R (atWord column word) state fun found after => found → after.kind = word := by
  refine .get_bind ?_
  split
  · next found =>
    exact (Runs.modify (passes_passBlanks state)).bind fun _ _ _ same => .pure fun _ =>
      same ▸ found.2
  · exact .pure (by simp)

/-- An action inside a block runs outside of it too, since the block is left again. -/
theorem Runs.indented (h : Runs good Leads fails action state.deeper returns)
    (leave : ∀ value after, returns value after → returns' value after.shallower) :
    Runs good Leads fails (Parse.indented action) state returns' := by
  intro ready
  have back : ∀ {after}, state.deeper.Leads after → state.Leads after.shallower := fun leads =>
    ⟨leads.rest, leads.closing, leads.grammar, by simp [shallower, leads.indent, deeper],
      leads.decls, leads.nextId⟩
  have inside := h ⟨ready.closing, ready.grammar, ready.tokens⟩
  unfold Action.Ensures at inside ⊢
  rw [run_indented]
  generalize action.run.run state.deeper = outcome at inside ⊢
  match outcome, inside with
  | (.ok value, after), ⟨leads, held⟩ => exact ⟨back leads, leave value after held⟩
  | (.error error, after), ⟨leads, ordinary⟩ => exact ⟨back leads, ordinary⟩

end Safety

end Offside
