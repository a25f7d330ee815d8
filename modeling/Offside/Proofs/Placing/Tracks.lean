import Offside.Proofs.Comparing.Lines
import Offside.Proofs.Placing.Outlines

/-! # Tracking what is read

Reading passes tokens from the front of a list. What an action has passed is tracked, together with
what it returns for it; where it fails, it is at a token of the list. The tokens that are neither
blanks nor line breaks are the words that the outlines of trees take up.
-/

namespace Offside

open Parse ParseState

/-- The tokens that are neither blanks nor line breaks. -/
def solid (tokens : List Token) : List Token :=
  tokens.filter fun token => !isSpacing token.kind

/-- The end of the last word of some tokens, or an earlier place if there is none. -/
def endOf (earlier : Position) (tokens : List Token) : Position :=
  ((solid tokens).getLast?.map fun word => word.span.stop).getD earlier

/-- An error at the start of one of some tokens. -/
def Error.At (all : List Token) (error : Error) : Prop :=
  ∃ token ∈ all, error.position = token.span.start

namespace ParseState

/-- What is ahead is the end of a list of tokens, which is closed. -/
structure Ahead (all : List Token) (state : ParseState) : Prop where
  closing : state.closing.kind = .eof
  grammar : state.grammar = .full
  inside : ∀ token ∈ state.rest, token.kind ≠ .eof
  listed : state.rest ++ [state.closing] <:+ all

/-- One state is reached from another by passing some tokens. -/
structure Moves (state : ParseState) (passed : List Token) (after : ParseState) : Prop where
  rest : state.rest = passed ++ after.rest
  closing : after.closing = state.closing
  grammar : after.grammar = state.grammar
  indent : after.indent = state.indent
  decls : state.program.decls.toList <+: after.program.decls.toList
  lastEnd : after.lastEnd = endOf state.lastEnd passed

/-- One state is reached from another by passing some words of the same line. -/
def Takes (state : ParseState) (used : List Token) (after : ParseState) : Prop :=
  ∃ passed, state.Moves passed after ∧ (∀ token ∈ passed, token.kind.endsLine = false) ∧
    solid passed = used

end ParseState

section Moving

variable {all passed more used : List Token} {state mid after : ParseState} {earlier : Position}

@[simp] theorem solid_append : solid (passed ++ more) = solid passed ++ solid more :=
  List.filter_append ..

theorem mem_of_mem_solid {token : Token} (h : token ∈ solid passed) : token ∈ passed :=
  List.mem_of_mem_filter h

theorem endOf_append : endOf earlier (passed ++ more) = endOf (endOf earlier passed) more := by
  unfold endOf
  rw [solid_append, List.getLast?_append]
  cases (solid more).getLast? <;> rfl

theorem solid_of_blanks (blank : ∀ token ∈ passed, token.kind.isBlank = true) :
    solid passed = [] := by
  refine List.filter_eq_nil_iff.2 fun token listed => ?_
  simp [isSpacing, blank token listed]

namespace ParseState

theorem Moves.refl (state : ParseState) : state.Moves [] state :=
  ⟨rfl, rfl, rfl, rfl, List.prefix_rfl, rfl⟩

theorem Moves.trans (h : state.Moves passed mid) (h' : mid.Moves more after) :
    state.Moves (passed ++ more) after :=
  ⟨by rw [h.rest, h'.rest, List.append_assoc], h'.closing.trans h.closing,
    h'.grammar.trans h.grammar, h'.indent.trans h.indent, h.decls.trans h'.decls,
    by rw [h'.lastEnd, h.lastEnd, endOf_append]⟩

theorem Moves.ahead (h : state.Moves passed after) (ahead : state.Ahead all) : after.Ahead all := by
  have suffix : after.rest <:+ state.rest := ⟨passed, h.rest.symm⟩
  refine ⟨h.closing ▸ ahead.closing, h.grammar ▸ ahead.grammar, fun token listed =>
    ahead.inside token (suffix.subset listed), ?_⟩
  rw [h.closing]
  refine List.IsSuffix.trans ⟨passed, ?_⟩ ahead.listed
  rw [h.rest, List.append_assoc]

theorem Takes.refl (state : ParseState) : state.Takes [] state :=
  ⟨[], .refl state, List.forall_mem_nil _, rfl⟩

theorem Takes.trans (h : state.Takes used mid) (h' : mid.Takes more after) :
    state.Takes (used ++ more) after := by
  obtain ⟨passed, moves, inside, rfl⟩ := h
  obtain ⟨passed', moves', inside', rfl⟩ := h'
  exact ⟨passed ++ passed', moves.trans moves', List.forall_mem_append.2 ⟨inside, inside'⟩,
    solid_append⟩

/-- The current token is one of the list. -/
theorem Ahead.current_mem (ahead : state.Ahead all) : state.current ∈ all := by
  refine ahead.listed.subset ?_
  unfold ParseState.current
  cases state.rest <;> simp

/-- Where the list goes on, it does so with the current token. -/
theorem Ahead.exists_rest (ahead : state.Ahead all) (goesOn : state.kind ≠ .eof) :
    ∃ behind, state.rest = state.current :: behind := by
  have closing := ahead.closing
  unfold ParseState.kind ParseState.current at *
  cases hrest : state.rest with
  | nil => simp [hrest, closing] at goesOn
  | cons token rest => exact ⟨rest, rfl⟩

theorem Ahead.at (ahead : state.Ahead all) (cause : ErrorCause) :
    Error.At all ⟨cause, state.position⟩ :=
  ⟨state.current, ahead.current_mem, rfl⟩

end ParseState

/-- A relation between two states and what has been passed from the one to the other. -/
class Passing (R : ParseState → List Token → ParseState → Prop) : Prop where
  refl : ∀ state, R state [] state
  trans : ∀ {state passed mid more after}, R state passed mid → R mid more after →
    R state (passed ++ more) after
  moves : ∀ {state passed after}, R state passed after → ∃ all, state.Moves all after

instance : Passing Moves :=
  ⟨Moves.refl, Moves.trans, fun moves => ⟨_, moves⟩⟩

instance : Passing Takes :=
  ⟨Takes.refl, Takes.trans, fun ⟨passed, moves, _⟩ => ⟨passed, moves⟩⟩

end Moving

section Tracking

variable {R : ParseState → List Token → ParseState → Prop} {all : List Token} {α β : Type}
  {action : ParseM α} {state : ParseState} {returns returns' : α → List Token → ParseState → Prop}
  {ends : β → List Token → ParseState → Prop}

/-- What an action returns for what it has passed is as described. Where it fails, it is at one of
all tokens. -/
def Tracks (R : ParseState → List Token → ParseState → Prop) (all : List Token)
    (action : ParseM α) (state : ParseState) (returns : α → List Token → ParseState → Prop) :
    Prop :=
  state.Ahead all → Action.Ensures action state
    (fun value after => ∃ passed, R state passed after ∧ returns value passed after)
    fun error _ => error.At all

/-- What comes of a round: either it was the last one, or it goes on with what it gives. -/
def Continues (ends : List Token → ParseState → Prop) (goes : α → List Token → ParseState → Prop) :
    Option α → List Token → ParseState → Prop
  | none => ends
  | some next => goes next

section Rounds

variable {ends : List Token → ParseState → Prop} {goes : α → List Token → ParseState → Prop}

@[simp] theorem continues_none : Continues ends goes none = ends := rfl

@[simp] theorem continues_some (next : α) : Continues ends goes (some next) = goes next := rfl

end Rounds

namespace Tracks

theorem mono (h : Tracks R all action state returns)
    (hreturns : ∀ value passed after, R state passed after → returns value passed after →
      returns' value passed after) : Tracks R all action state returns' :=
  fun ahead => (h ahead).mono
    (fun value after ⟨passed, moves, held⟩ =>
      ⟨passed, moves, hreturns value passed after moves held⟩)
    fun _ _ => id

theorem of_ok {value : α} {after : ParseState} (h : Tracks R all action state returns)
    (ahead : state.Ahead all) (run : action.run.run state = (.ok value, after)) :
    ∃ passed, R state passed after ∧ returns value passed after := by
  have held := h ahead
  unfold Action.Ensures at held
  rw [run] at held
  exact held

theorem of_error {error : Error} {after : ParseState} (h : Tracks R all action state returns)
    (ahead : state.Ahead all) (run : action.run.run state = (.error error, after)) :
    error.At all := by
  have held := h ahead
  unfold Action.Ensures at held
  rw [run] at held
  exact held

variable [Passing R]

theorem bind {next : α → ParseM β} (h : Tracks R all action state returns)
    (hnext : ∀ value passed after, R state passed after → returns value passed after →
      Tracks R all (next value) after fun value' more => ends value' (passed ++ more)) :
    Tracks R all (action >>= next) state ends := fun ahead =>
  (h ahead).bind fun value after ⟨passed, moves, held⟩ => by
    obtain ⟨tokens, forward⟩ := Passing.moves moves
    refine (hnext value passed after moves held (forward.ahead ahead)).mono ?_ fun _ _ => id
    rintro value' after' ⟨more, moves', held'⟩
    exact ⟨passed ++ more, Passing.trans moves moves', held'⟩

theorem pure {value : α} (h : returns value [] state) :
    Tracks R all (Pure.pure value) state returns :=
  fun _ => ⟨[], Passing.refl state, h⟩

theorem map {view : α → β} (h : Tracks R all action state fun value => ends (view value)) :
    Tracks R all (do return view (← action)) state ends :=
  h.bind fun value passed after _ held => .pure (by rwa [List.append_nil])

theorem discard (h : Tracks R all action state returns) :
    Tracks R all (Functor.discard action) state
      fun _ passed after => ∃ value, returns value passed after := by
  change Tracks R all (action >>= fun _ => Pure.pure ()) state _
  refine h.bind fun value passed after _ held => .pure ⟨value, ?_⟩
  rwa [List.append_nil]

omit [Passing R] in
theorem fail {cause : ErrorCause} {position : Position}
    (h : ∃ token ∈ all, position = token.span.start) :
    Tracks R all (Parse.fail cause position) state returns :=
  fun _ => h

omit [Passing R] in
theorem failHere {cause : String → ErrorCause} :
    Tracks R all (Parse.failHere cause) state returns :=
  fun ahead => ahead.at _

omit [Passing R] in
theorem exhausted : Tracks R all Parse.exhausted state returns :=
  fun ahead => ahead.at _

omit [Passing R] in
theorem get_bind {next : ParseState → ParseM β} (h : Tracks R all (next state) state ends) :
    Tracks R all (get >>= next) state ends := h

omit [Passing R] in
theorem kind_bind {next : TokenKind → ParseM β} (h : Tracks R all (next state.kind) state ends) :
    Tracks R all (Parse.kind >>= next) state ends := h

omit [Passing R] in
theorem spanSince_bind {start : Position} {next : Span → ParseM β}
    (h : Tracks R all (next ⟨start, state.lastEnd⟩) state ends) :
    Tracks R all (Parse.spanSince start >>= next) state ends := h

omit [Passing R] in
theorem budget_bind {next : Nat → ParseM β}
    (h : Tracks R all (next (state.rest.length + 1)) state ends) :
    Tracks R all (budget >>= next) state ends := h

omit [Passing R] in
/-- The action may rely on the list that it is to read. -/
theorem of_ahead (h : state.Ahead all → Tracks R all action state returns) :
    Tracks R all action state returns :=
  fun ahead => h ahead ahead

/-- A step can be repeated if each round keeps up what holds of the value and what has been passed.
-/
theorem iterateWithin {step : α → ParseM (Option α)}
    {keep done : α → List Token → ParseState → Prop}
    (hstep : ∀ value passed inner, keep value passed inner →
      Tracks R all (step value) inner (Continues (fun more => done value (passed ++ more))
        fun next more => keep next (passed ++ more)))
    (times : Nat) (value : α) (passed : List Token) (h : keep value passed state) :
    Tracks R all (Parse.iterateWithin step times value) state
      fun value more => done value (passed ++ more) := by
  induction times generalizing state value passed with
  | zero => exact .exhausted
  | succ times ih =>
      refine (hstep value passed state h).bind fun next? more after _ kept => ?_
      cases next? with
      | none =>
          refine .pure ?_
          rw [List.append_nil]
          exact kept
      | some next => simpa only [List.append_assoc] using ih next (passed ++ more) kept

theorem iterate {step : α → ParseM (Option α)} (keep done : α → List Token → ParseState → Prop)
    (hstep : ∀ value passed inner, keep value passed inner →
      Tracks R all (step value) inner (Continues (fun more => done value (passed ++ more))
        fun next more => keep next (passed ++ more)))
    (value : α) (h : keep value [] state) : Tracks R all (Parse.iterate step value) state done :=
  .budget_bind (by simpa using iterateWithin hstep (state.rest.length + 1) value [] h)

/-- Items can be collected if each round keeps up what holds of them and what has been passed. -/
theorem collectWithin {item : ParseM (Option α)}
    {keep done : List α → List Token → ParseState → Prop}
    (hitem : ∀ items passed inner, keep items passed inner →
      Tracks R all item inner (Continues (fun more => done items (passed ++ more))
        fun item more => keep (items ++ [item]) (passed ++ more)))
    (times : Nat) (items : List α) (passed : List Token) (h : keep items passed state) :
    Tracks R all (Parse.collectWithin item times) state
      fun others more => done (items ++ others) (passed ++ more) := by
  induction times generalizing state items passed with
  | zero => exact .exhausted
  | succ times ih =>
      refine (hitem items passed state h).bind fun item? more after _ kept => ?_
      cases item? with
      | none =>
          refine .pure ?_
          rw [List.append_nil, List.append_nil]
          exact kept
      | some first =>
          refine (ih (items ++ [first]) (passed ++ more) kept).bind
            fun others further after _ kept => .pure ?_
          simpa using kept

theorem collect {item : ParseM (Option α)} (keep done : List α → List Token → ParseState → Prop)
    (hitem : ∀ items passed inner, keep items passed inner →
      Tracks R all item inner (Continues (fun more => done items (passed ++ more))
        fun item more => keep (items ++ [item]) (passed ++ more)))
    (h : keep [] [] state) : Tracks R all (Parse.collect item) state done :=
  .budget_bind (by simpa using collectWithin hitem (state.rest.length + 1) [] [] h)

end Tracks

end Tracking

end Offside
