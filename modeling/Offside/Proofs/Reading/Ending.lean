import Offside.Proofs.Comparing.Layout
import Offside.Proofs.Reading.Agreement
import Offside.Proofs.Reading.Entries
import Offside.Proofs.Reading.Levels

/-! # The end of the input

Reading ends at the first end of the input and passes a token whenever it returns something. Whether
it returns or fails, it leaves the block it is in and forgets nothing that was there before. Tokens
behind the end of the input make no difference.
-/

namespace Offside

open Parse ParseState

namespace ParseState

/-- One state is reached from another by passing some tokens, none of which ends the input. -/
structure StepsOver (state : ParseState) (passed : List Token) (after : ParseState) : Prop where
  rest : state.rest = passed ++ after.rest
  inside : ∀ token ∈ passed, token.kind ≠ .eof
  closing : after.closing = state.closing
  grammar : after.grammar = state.grammar
  indent : after.indent = state.indent
  nextId : state.nextId ≤ after.nextId
  decls : state.program.decls.toList <+: after.program.decls.toList

/-- The state with more tokens behind the end of its input. -/
def goingOn (state : ParseState) (tail : List Token) (last : Token) : ParseState :=
  { state with rest := state.rest ++ state.closing :: tail, closing := last }

end ParseState

namespace Parse

/-- From each state, an action returns something for at least one token, or it fails, and not for
want of a budget. It passes no end of the input. -/
def Progresses {α : Type} (action : ParseM α) : Prop :=
  ∀ state, state.closing.kind = .eof → state.grammar = .full →
    Action.Ensures action state
      (fun _ after => ∃ passed, state.StepsOver passed after ∧ passed ≠ [])
      fun error after => (∃ passed, state.StepsOver passed after) ∧
        error.cause.category ≠ .internal

end Parse

section GoingOn

variable {state : ParseState} {tail line rest : List Token} {stop last : Token}

theorem dropWhile_goingOn {p : Token → Bool} (stops : p stop = false) :
    (rest ++ stop :: tail).dropWhile p = rest.dropWhile p ++ stop :: tail := by
  induction rest with
  | nil => simp [stops]
  | cons token rest ih => cases h : p token <;> simp [h, ih]

theorem takeWhile_goingOn {p : Token → Bool} (stops : p stop = false) :
    (rest ++ stop :: tail).takeWhile p = rest.takeWhile p := by
  induction rest with
  | nil => simp [stops]
  | cons token rest ih => cases h : p token <;> simp [h, ih]

theorem dropBlankLines_goingOn (ends : stop.kind = .eof) :
    dropBlankLines (line ++ stop :: tail) (rest ++ stop :: tail) =
      dropBlankLines line rest ++ stop :: tail := by
  induction rest generalizing line with
  | nil => simp [dropBlankLines, ends, TokenKind.isBlank]
  | cons token rest ih =>
      rw [List.cons_append, dropBlankLines, dropBlankLines]
      split
      · exact ih
      split
      · exact ih
      split <;> rfl

variable (tail last)

theorem current_goingOn : (state.goingOn tail last).current = state.current := by
  unfold ParseState.current goingOn
  cases state.rest <;> rfl

theorem passBlanks_goingOn (closed : state.closing.kind = .eof) :
    (state.goingOn tail last).passBlanks = state.passBlanks.goingOn tail last := by
  unfold ParseState.passBlanks goingOn
  simp only [dropWhile_goingOn (p := fun token : Token => token.kind.isBlank)
    (show state.closing.kind.isBlank = false by rw [closed]; rfl)]

theorem passBlankLines_goingOn (closed : state.closing.kind = .eof) :
    (state.goingOn tail last).passBlankLines = state.passBlankLines.goingOn tail last := by
  unfold ParseState.passBlankLines goingOn
  simp only [dropBlankLines_goingOn closed]

theorem pass_goingOn (closed : state.closing.kind = .eof) :
    (state.goingOn tail last).pass = state.pass.goingOn tail last := by
  have current := @current_goingOn state tail last
  have kind : (state.goingOn tail last).kind = state.kind := congrArg Token.kind current
  have rest : state.kind ≠ .eof → (state.rest ++ state.closing :: tail).tail =
      state.rest.tail ++ state.closing :: tail := by
    intro inside
    unfold ParseState.kind ParseState.current at inside
    cases ahead : state.rest with
    | nil =>
        rw [ahead] at inside
        exact absurd closed inside
    | cons token rest => rfl
  unfold ParseState.pass
  rw [current, kind]
  by_cases inside : state.kind = .eof
  · rw [if_pos inside, if_pos inside]
    rfl
  · rw [if_neg inside, if_neg inside]
    simp only [goingOn, rest inside]

theorem column_goingOn (closed : state.closing.kind = .eof) :
    (state.goingOn tail last).column = state.column := by
  have stops : state.closing.kind.isBlank = false := by rw [closed]; rfl
  exact congrArg width (takeWhile_goingOn (p := fun token => token.kind.isBlank) stops)

theorem startsDeclaration_goingOn (closed : state.closing.kind = .eof) :
    (state.goingOn tail last).startsDeclaration = state.startsDeclaration := by
  unfold ParseState.startsDeclaration goingOn
  cases ahead : state.rest with
  | nil => simp [closed]
  | cons token rest =>
      have behind :
          (ParseState.goingOn { state with rest } tail last).passBlanks =
            (ParseState.passBlanks { state with rest }).goingOn tail last :=
        passBlanks_goingOn tail last closed
      have kind : (ParseState.goingOn { state with rest } tail last).passBlanks.kind =
          (ParseState.passBlanks { state with rest }).kind := by
        rw [behind]
        exact congrArg Token.kind (current_goingOn tail last)
      exact congrArg (fun kind => token.kind == .identifier && kind == .colon) kind

end GoingOn

/-- The second of two states goes on where the input of the first one ends. -/
def GoesOn (tail : List Token) (last : Token) (state state' : ParseState) : Prop :=
  state.closing.kind = .eof ∧ state' = state.goingOn tail last

instance (tail : List Token) (last : Token) : Mirrors (GoesOn tail last) where
  current := by
    rintro state _ ⟨closed, rfl⟩
    exact (current_goingOn tail last).symm
  column := by
    rintro state _ ⟨closed, rfl⟩
    exact (column_goingOn tail last closed).symm
  startsDeclaration := by
    rintro state _ ⟨closed, rfl⟩
    exact (startsDeclaration_goingOn tail last closed).symm
  indent := by rintro state _ ⟨-, rfl⟩; rfl
  lastEnd := by rintro state _ ⟨-, rfl⟩; rfl
  program := by rintro state _ ⟨-, rfl⟩; rfl
  nextId := by rintro state _ ⟨-, rfl⟩; rfl
  grammar := by rintro state _ ⟨-, rfl⟩; rfl
  pass := by
    rintro state _ ⟨closed, rfl⟩
    exact ⟨closed, pass_goingOn tail last closed⟩
  passBlanks := by
    rintro state _ ⟨closed, rfl⟩
    exact ⟨closed, passBlanks_goingOn tail last closed⟩
  passBlankLines := by
    rintro state _ ⟨closed, rfl⟩
    exact ⟨closed, passBlankLines_goingOn tail last closed⟩
  deeper := by rintro state _ ⟨closed, rfl⟩; exact ⟨closed, rfl⟩
  shallower := by rintro state _ ⟨closed, rfl⟩; exact ⟨closed, rfl⟩
  withProgram := by rintro state _ ⟨closed, rfl⟩ program; exact ⟨closed, rfl⟩
  withNextId := by rintro state _ ⟨closed, rfl⟩ nextId; exact ⟨closed, rfl⟩

section Progress

variable {α : Type} {action : ParseM α} {state after : ParseState}

/-- What is read before the end of the input steps over no such end. -/
theorem ParseState.Leads.stepsOver (leads : state.Leads after)
    (inside : ∀ token ∈ state.rest, token.kind ≠ .eof) :
    ∃ passed, state.StepsOver passed after := by
  obtain ⟨passed, rest⟩ := leads.rest
  refine ⟨passed, rest.symm, fun token listed => inside token ?_, leads.closing, leads.grammar,
    leads.indent, leads.nextId, leads.decls⟩
  rw [← rest]
  exact List.mem_append_left _ listed

/-- Steps are the same where the input goes on behind its end. -/
theorem ParseState.StepsOver.goingOn {passed : List Token} {tail : List Token} {last : Token}
    (steps : state.StepsOver passed after) :
    (state.goingOn tail last).StepsOver passed (after.goingOn tail last) := by
  refine ⟨?_, steps.inside, rfl, steps.grammar, steps.indent, steps.nextId, steps.decls⟩
  change state.rest ++ state.closing :: tail = passed ++ (after.rest ++ after.closing :: tail)
  rw [steps.rest, steps.closing, List.append_assoc]

/-- If the input ends among some tokens, then they go on behind its first end. -/
theorem exists_goingOn (state : ParseState) :
    (∀ token ∈ state.rest, token.kind ≠ .eof) ∨
      ∃ (start : ParseState) (tail : List Token) (last : Token), state = start.goingOn tail last ∧
        start.closing.kind = .eof ∧ ∀ token ∈ start.rest, token.kind ≠ .eof := by
  have front : ∀ token ∈ state.rest.takeWhile fun token => token.kind != .eof,
      token.kind ≠ .eof := by
    intro token listed
    simpa using List.mem_takeWhile_imp listed
  have split := List.takeWhile_append_dropWhile (p := fun token => token.kind != .eof)
    (l := state.rest)
  cases behind : state.rest.dropWhile fun token => token.kind != .eof with
  | nil =>
      left
      rw [behind, List.append_nil] at split
      rwa [split] at front
  | cons stop tail =>
      have ends := List.head?_dropWhile_not (fun token : Token => token.kind != .eof) state.rest
      rw [behind] at ends split
      refine .inr ⟨{ state with rest := _, closing := stop }, tail, state.closing, ?_,
        by simpa using ends, front⟩
      unfold goingOn
      simp only [split]

/-- A safe reader that agrees with itself progresses. -/
theorem progresses_of_safe
    (agree : ∀ tail last, Agree (GoesOn tail last) action action)
    (safe : ∀ state, Safe (fun _ _ => True) Leads action state fun _ after =>
      after.rest.length < state.rest.length) : Progresses action := by
  have ready (state : ParseState) (closed : state.closing.kind = .eof)
      (full : state.grammar = .full) : state.Ready fun _ _ => True :=
    ⟨closed, full, fun _ _ => trivial⟩
  have short (state : ParseState) (closed : state.closing.kind = .eof)
      (full : state.grammar = .full) (inside : ∀ token ∈ state.rest, token.kind ≠ .eof) :
      Action.Ensures action state
        (fun _ after => ∃ passed, state.StepsOver passed after ∧ passed ≠ [])
        fun error after => (∃ passed, state.StepsOver passed after) ∧
          error.cause.category ≠ .internal := by
    refine (safe state (ready state closed full)).mono ?_ ?_
    · rintro _ after ⟨leads, shorter⟩
      obtain ⟨passed, steps⟩ := leads.stepsOver inside
      refine ⟨passed, steps, ?_⟩
      rintro rfl
      rw [steps.rest] at shorter
      exact Nat.lt_irrefl _ shorter
    · rintro error after ⟨leads, ordinary⟩
      exact ⟨leads.stepsOver inside, ordinary⟩
  intro state closed full
  rcases exists_goingOn state with inside | ⟨start, tail, last, rfl, closed', inside⟩
  · exact short state closed full inside
  · have held := short start closed' full inside
    obtain ⟨same, -, after⟩ := (agree tail last).of_safe ⟨closed', rfl⟩ (ready start closed' full)
      (safe start) (ready _ closed full) (safe _)
    unfold Action.Ensures at held ⊢
    generalize action.run.run start = outcome at held same after
    generalize action.run.run (start.goingOn tail last) = outcome' at same after ⊢
    obtain ⟨result, mid⟩ := outcome
    obtain ⟨_, _⟩ := outcome'
    subst same after
    cases result with
    | ok value =>
        obtain ⟨passed, steps, some⟩ := held
        exact ⟨passed, steps.goingOn, some⟩
    | error error =>
        obtain ⟨⟨passed, steps⟩, ordinary⟩ := held
        exact ⟨⟨passed, steps.goingOn⟩, ordinary⟩

end Progress

section Lines

variable {good : TokenKind → String → Prop} {state : ParseState}

theorem insert_registers {program : Program} {entry : Entry}
    (valid : ∀ id, entry = .global id → (program.decl? id).isSome) :
    Registers program (entry.insert program) := by
  cases entry with
  | record added => exact insertRecord_registers added
  | function added =>
      rw [Entry.insert]
      split <;> rfl
  | main added =>
      rw [Entry.insert]
      split <;> rfl
  | global id => exact insertGlobal_registers (valid id rfl)
  | statement stmt => rfl

/-- A line of the outermost block is read safely, whatever the program is. -/
theorem topLevel_shorter :
    Safe good Leads topLevel state fun _ after => after.rest.length < state.rest.length := by
  rw [topLevel_eq]
  refine entry_safe.bind fun entry mid _ ⟨shorter, _, valid⟩ => ?_
  refine (register_safe (insert_registers valid)).mono fun _ after _ ⟨rest, _⟩ => ?_
  rwa [rest]

end Lines

section Tokens

variable {front tail : List Token} {stop : Token} {file : String}

/-- Before tokens that go on behind an end of the input. -/
theorem ofTokens_goingOn (ends : stop.kind = .eof) (some : tail ≠ []) :
    ∃ rest last, ofTokens (front ++ stop :: tail) file =
      (ofTokens (front ++ [stop]) file).goingOn rest last := by
  obtain ⟨behind, final, rfl⟩ := (List.eq_nil_or_concat' tail).resolve_left some
  have tokens : front ++ stop :: (behind ++ [final]) = (front ++ stop :: behind) ++ [final] := by
    simp
  rw [ofTokens_append_eof ends]
  by_cases closes : final.kind = .eof
  · exact ⟨behind, final, by rw [tokens, ofTokens_append_eof closes]; rfl⟩
  · refine ⟨behind ++ [final], .endOfInput final.span.stop, ?_⟩
    unfold ofTokens
    rw [tokens, List.getLast?_concat]
    simp only [if_neg closes, goingOn, ← tokens]

/-- What some tokens spell does not depend on those behind an end of the input. -/
theorem ofTokens_append_stop (ends : stop.kind = .eof) :
    Program.ofTokens (front ++ stop :: tail) file = Program.ofTokens (front ++ [stop]) file := by
  have ready (tokens : List Token) : (ofTokens tokens file).Ready fun _ _ => True :=
    ready_ofTokens fun _ _ => trivial
  have safe (tokens : List Token) : Safe (fun _ _ => True) Leads program (ofTokens tokens file)
      fun program after => program.Sound (fun _ _ => True) after.nextId :=
    program_safe (sound_ofTokens tokens file)
  by_cases some : tail = []
  · rw [some]
  · obtain ⟨rest, last, same⟩ : ∃ rest last, ofTokens (front ++ stop :: tail) file =
        (ofTokens (front ++ [stop]) file).goingOn rest last := ofTokens_goingOn ends some
    have closed := (ready (front ++ [stop])).closing
    have agree : Agree (GoesOn rest last) program program := program_agree
    exact (agree.of_safe ⟨closed, same⟩ (ready _) (safe _) (ready _) (safe _)).1.symm

end Tokens

/-- Lines, statements, blocks, declarations, types and expressions are read by progress alone. So a
program is read from any tokens, or an error is found in them, and those behind an end of the input
make no difference. -/
theorem reading_progresses_to_end :
    (Progresses topLevel ∧ Progresses stmt ∧ Progresses stmtLine ∧ Progresses block ∧
      Progresses (branching block) ∧ Progresses (forLoop block) ∧ Progresses (whileLoop block) ∧
      Progresses returns ∧ Progresses function ∧ Progresses record ∧ Progresses varDecl ∧
      Progresses typeSpec ∧ ∀ precedence, Progresses (exprFrom precedence)) ∧
    (∀ tokens file, (∃ program, Program.ofTokens tokens file = .ok program) ∨
      ∃ error, Program.ofTokens tokens file = .error error ∧ error.cause.category ≠ .internal) ∧
    ∀ front stop tail tail' file, stop.kind = .eof →
      Program.ofTokens (front ++ stop :: tail) file =
        Program.ofTokens (front ++ stop :: tail') file := by
  have blocks (state : ParseState) : BlocksBelow (fun _ _ => True) state.rest.length block :=
    fun _ _ => block_safe
  refine ⟨⟨?_, ?_, ?_, ?_, ?_, ?_, ?_, ?_, ?_, ?_, ?_, ?_, fun precedence => ?_⟩, ?_, ?_⟩
  · exact progresses_of_safe (fun _ _ => topLevel_agree) fun _ => topLevel_shorter
  · exact progresses_of_safe (fun _ _ => stmt_agree) fun _ =>
      stmt_safe.mono fun _ _ _ read => read.shorter
  · exact progresses_of_safe (fun _ _ => stmtLine_agree) fun _ =>
      stmtLine_safe.mono fun _ _ _ read => read.shorter
  · exact progresses_of_safe (fun _ _ => block_agree) fun _ =>
      block_safe.mono fun _ _ _ read => read.shorter
  · exact progresses_of_safe (fun _ _ => branching_agree block_agree) fun state =>
      (branching_safe (blocks state)).mono fun _ _ _ read => read.shorter
  · exact progresses_of_safe (fun _ _ => forLoop_agree block_agree) fun state =>
      (forLoop_safe (blocks state)).mono fun _ _ _ read => read.shorter
  · exact progresses_of_safe (fun _ _ => whileLoop_agree block_agree) fun state =>
      (whileLoop_safe (blocks state)).mono fun _ _ _ read => read.shorter
  · exact progresses_of_safe (fun _ _ => returns_agree) fun _ =>
      returns_safe.mono fun _ _ _ read => read.shorter
  · exact progresses_of_safe (fun _ _ => function_agree) fun _ =>
      function_safe.mono fun _ _ _ read => read.shorter
  · exact progresses_of_safe (fun _ _ => record_agree) fun _ =>
      record_safe.mono fun _ _ _ read => read.shorter
  · exact progresses_of_safe (fun _ _ => varDecl_agree) fun _ =>
      varDecl_safe.mono fun _ _ _ read => read.1
  · exact progresses_of_safe (fun _ _ => typeSpec_agree) fun _ =>
      typeSpec_safe.lift.mono fun _ _ _ read => read.2.1
  · refine progresses_of_safe (fun _ _ => exprFrom_agree precedence) fun state => ?_
    have operands : SafeBelow (fun _ _ => True) (state.rest.length + 1) operand :=
      fun _ _ => operand_safe
    exact (exprWith_safe operands precedence.level state (Nat.lt_succ_self _)).lift.mono
      fun _ _ _ read => read.2.1
  · intro tokens file
    have outcome := @ofTokens_outcome (fun _ _ => True) tokens file fun _ _ => trivial
    cases spelled : Program.ofTokens tokens file with
    | ok program => exact .inl ⟨program, rfl⟩
    | error error =>
        rw [spelled] at outcome
        exact .inr ⟨error, rfl, outcome⟩
  · intro front stop tail tail' file ends
    exact (ofTokens_append_stop ends).trans (ofTokens_append_stop ends).symm

/-- A statement is read up to the end of the input, behind which the same tokens stand again. -/
theorem reading_progresses_to_end_twice : ∃ front last stmt after passed,
    Token.scan "if a:\n    b\n" "pots" = .ok (front ++ [last]) ∧ last.kind = .eof ∧
    (branching block).run.run (ofTokens (front ++ last :: (front ++ [last])) "pots") =
      (.ok stmt, after) ∧
    (ofTokens (front ++ last :: (front ++ [last])) "pots").StepsOver passed after ∧ passed ≠ [] ∧
    Program.ofTokens (front ++ last :: (front ++ [last])) "pots" =
      Program.ofTokens (front ++ last :: []) "pots" := by
  have reads : ((Token.scan "if a:\n    b\n" "pots").toOption.map fun tokens =>
      ((branching block).run.run (ofTokens (tokens ++ tokens) "pots")).1.isOk) = some true := by
    decide +kernel
  obtain ⟨tokens, scanned, read⟩ := exists_ok_of_map_toOption reads
  obtain ⟨front, last, rfl, ends, -⟩ := closed_of_scan scanned
  have twice : front ++ [last] ++ (front ++ [last]) = front ++ last :: (front ++ [last]) := by simp
  rw [twice] at read
  have ready := @ready_ofTokens (fun _ _ => True) (front ++ last :: (front ++ [last])) "pots"
    fun _ _ => trivial
  obtain ⟨⟨-, -, -, -, branches, -⟩, -, independent⟩ := reading_progresses_to_end
  have progress := branches _ ready.closing ready.grammar
  unfold Action.Ensures at progress
  obtain ⟨stmt, ok⟩ := exists_ok_of_isOk read
  rw [← Prod.eta ((branching block).run.run (ofTokens (front ++ last :: (front ++ [last])) "pots")),
    ok] at progress
  obtain ⟨passed, steps, some⟩ := progress
  exact ⟨front, last, stmt, _, passed, scanned, ends, Prod.ext ok rfl, steps, some,
    independent front last _ [] "pots" ends⟩

end Offside
