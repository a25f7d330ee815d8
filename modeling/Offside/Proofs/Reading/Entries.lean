import Offside.Proofs.Reading.Programs

/-! # Reading what is entered into a program

A line of the outermost block is read first, and what it says is entered into the program then. It is
entered under a label, unless something is under that label already.
-/

namespace Offside

open Parse ParseState

/-- What a line of the outermost block enters into a program. -/
inductive Entry where
  | record (record : RecordDecl)
  | function (function : Function)
  | main (function : Function)
  | global (id : VarId)
  | statement (stmt : Stmt)

/-- What something is entered under. Each kind of thing has names of its own. -/
inductive Label where
  | record (name : String)
  | function (name : String)
  | main
  | global (name : String)
  deriving DecidableEq

namespace Entry

/-- A function as an entry, which is the entry point if it is named so. -/
def ofFunction (function : Function) : Entry :=
  if function.name = Program.mainName then .main function else .function function

/-- The handles in what is entered. -/
def handles : Entry → List VarId
  | .record added => added.handles
  | .function added | .main added => added.handles
  | .global id => [id]
  | .statement stmt => stmt.handles

/-- The numbers in what is entered. -/
def numbers : Entry → List Nat
  | .record added => added.numbers
  | .function added | .main added => [added.id.number]
  | .global _ | .statement _ => []

/-- Enters something into a program. -/
def enter (program : Program) : Entry → Program
  | .record added => { program with records := program.records ++ [added] }
  | .function added => { program with functions := program.functions ++ [added] }
  | .main added => { program with main := some added }
  | .global id => { program with globals := program.globals ++ [id] }
  | .statement stmt => { program with statements := program.statements ++ [stmt] }

/-- What something is entered under in a program. -/
def label? (program : Program) : Entry → Option Label
  | .record added => some (.record added.name)
  | .function added => some (.function added.name)
  | .main _ => some .main
  | .global id => (program.decl? id).map fun decl => .global decl.name
  | .statement _ => none

/-- Enters something into a program, if its label is free. -/
def insert (program : Program) : Entry → Except Error Program
  | .record added => program.insertRecord added
  | .function added =>
    if (program.function? added.name).isSome then
      .error ⟨.functionAlreadyDeclared added.name, added.span.start⟩
    else .ok (enter program (.function added))
  | .main added =>
    if program.main.isSome then .error ⟨.entryPointAlreadyDeclared, added.span.start⟩
    else .ok (enter program (.main added))
  | .global id => program.insertGlobal id
  | .statement stmt => .ok (program.insertStmt stmt)

/-- A function is inserted as the entry that it is. -/
theorem insert_ofFunction (program : Program) (function : Function) :
    (ofFunction function).insert program = program.insertFunction function := by
  unfold ofFunction Program.insertFunction
  split <;> rfl

end Entry

namespace Program

/-- The names of the global variables of a program. -/
def globalNames (program : Program) : List String :=
  (program.globals.filterMap program.decl?).map VarDecl.name

/-- What the things in a program have been entered under. -/
def labels (program : Program) : List Label :=
  program.records.map (fun record => .record record.name) ++
    program.functions.map (fun function => .function function.name) ++
    program.main.toList.map (fun _ => .main) ++ program.globalNames.map .global

/-- The global variables of a program are declared in it. -/
def DeclaresGlobals (program : Program) : Prop :=
  ∀ id ∈ program.globals, (program.decl? id).isSome

variable {program : Program}

theorem record_mem_labels {name : String} :
    .record name ∈ program.labels ↔ name ∈ program.records.map RecordDecl.name := by
  simp [labels]

theorem function_mem_labels {name : String} :
    .function name ∈ program.labels ↔ (program.function? name).isSome := by
  simp [labels, function?]

theorem main_mem_labels : .main ∈ program.labels ↔ program.main.isSome := by
  cases main : program.main <;> simp [labels, main]

theorem global_mem_labels {name : String} :
    .global name ∈ program.labels ↔ (program.global? name).isSome := by
  rw [global?, List.find?_isSome]
  simp [labels, globalNames]

end Program

namespace Entry

variable {program : Program} {entry : Entry}

/-- What is entered is under its label, and everything else stays under its own. -/
theorem mem_labels_enter {label : Label} :
    label ∈ (entry.enter program).labels ↔
      label ∈ program.labels ∨ entry.label? program = some label := by
  cases entry <;>
    simp [enter, Program.labels, Program.globalNames, label?, Program.decl?] <;> grind

theorem declaresGlobals_enter (declared : program.DeclaresGlobals)
    (valid : ∀ id, entry = .global id → (program.decl? id).isSome) :
    (entry.enter program).DeclaresGlobals := by
  cases entry with
  | global added =>
      change ∀ id ∈ program.globals ++ [added], (program.decl? id).isSome
      rw [List.forall_mem_append, List.forall_mem_singleton]
      exact ⟨declared, valid added rfl⟩
  | _ => exact declared

/-- A name that is built in is not free for a record type. -/
def isReserved : Entry → Bool
  | .record added => DataType.builtinNames.contains added.name
  | _ => false

/-- The name of the error that something cannot be entered. -/
def complaint : Entry → String
  | .record _ => "HotpotAlreadyDeclared"
  | .function _ => "FunctionAlreadyDeclared"
  | .main _ => "EntryPointAlreadyDeclared"
  | .global _ => "VariableAlreadyDeclared"
  | .statement _ => ""

/-- Something is entered if its label is free. -/
theorem insert_of_free (free : entry.isReserved = false)
    (apart : ∀ label ∈ entry.label? program, label ∉ program.labels)
    (valid : ∀ id, entry = .global id → (program.decl? id).isSome) :
    entry.insert program = .ok (entry.enter program) := by
  cases entry with
  | record added =>
      have other := apart _ rfl
      rw [Program.record_mem_labels] at other
      have reserved : added.name ∉ DataType.builtinNames := by simpa [isReserved] using free
      rw [insert, Program.insertRecord, if_neg]
      · rfl
      · simpa [Program.takenNames, reserved] using other
  | function added =>
      have other := apart _ rfl
      rw [Program.function_mem_labels] at other
      rw [insert, if_neg other]
  | main added =>
      have other := apart _ rfl
      rw [Program.main_mem_labels] at other
      rw [insert, if_neg other]
  | global id =>
      obtain ⟨decl, found⟩ := Option.isSome_iff_exists.1 (valid id rfl)
      have other := apart (.global decl.name) (by simp [label?, found])
      rw [Program.global_mem_labels] at other
      rw [insert, Program.insertGlobal, Program.decl, found]
      dsimp only
      rw [if_neg other]
      rfl
  | statement stmt => rfl

/-- Something is not entered if its label is taken. -/
theorem insert_of_taken
    (taken : entry.isReserved = true ∨ ∃ label ∈ entry.label? program, label ∈ program.labels) :
    ∃ error, entry.insert program = .error error ∧ error.cause.name = entry.complaint ∧
      error.cause.category = .registration := by
  cases entry with
  | record added =>
      refine ⟨⟨.hotpotAlreadyDeclared added.name, added.span.start⟩, ?_, rfl, rfl⟩
      rw [insert, Program.insertRecord, if_pos]
      simpa [Program.takenNames, isReserved, label?, Program.record_mem_labels] using taken
  | function added =>
      refine ⟨⟨.functionAlreadyDeclared added.name, added.span.start⟩, ?_, rfl, rfl⟩
      rw [insert, if_pos]
      simpa [isReserved, label?, Program.function_mem_labels] using taken
  | main added =>
      refine ⟨⟨.entryPointAlreadyDeclared, added.span.start⟩, ?_, rfl, rfl⟩
      rw [insert, if_pos]
      simpa [isReserved, label?, Program.main_mem_labels] using taken
  | global id =>
      obtain reserved | ⟨label, named, taken⟩ := taken
      · cases reserved
      cases found : program.decl? id with
      | none => simp [label?, found] at named
      | some decl =>
          have same : Label.global decl.name = label := by simpa [label?, found] using named
          rw [← same, Program.global_mem_labels] at taken
          refine ⟨⟨.variableAlreadyDeclared decl.name, decl.span.start⟩, ?_, rfl, rfl⟩
          rw [insert, Program.insertGlobal, Program.decl, found]
          dsimp only
          rw [if_pos taken]
  | statement stmt => simp [isReserved, label?] at taken

end Entry

namespace Parse

/-- Reads what a line of the outermost block says. -/
def entry : ParseM Entry := do
  let state ← get
  if state.kind = .defWord then return .ofFunction (← function)
  else if state.kind = .hotpotWord then return .record (← record)
  else if state.startsDeclaration then
    let decl ← varDecl
    lineEnd
    return .global decl
  else return .statement (← stmtLine)

/-- A line of the outermost block is read and then entered into the program. -/
theorem topLevel_eq :
    topLevel = (do
      let entry ← entry
      register fun program => entry.insert program) := by
  unfold topLevel entry
  rw [bind_assoc]
  congr 1
  funext state
  split
  · next word =>
    rw [if_pos word]
    simp only [bind_assoc, pure_bind, Entry.insert_ofFunction]
  · next word =>
    rw [word, if_neg (by simp), if_pos rfl]
    simp only [bind_assoc, pure_bind]
    rfl
  · next other other' =>
    rw [if_neg other, if_neg other']
    split
    · simp only [bind_assoc, pure_bind]
      rfl
    · simp only [bind_assoc, pure_bind]
      rfl

/-- A line of the outermost block adds what is held in what it says. -/
theorem entry_safe {good : TokenKind → String → Prop} {state : ParseState} :
    Safe good Leads entry state fun entry after => after.rest.length < state.rest.length ∧
      Adds good state entry.handles entry.numbers after ∧
        ∀ id, entry = .global id → (after.program.decl? id).isSome := by
  apply Runs.get_bind
  split
  · apply function_safe.bind
    intro function after _ read
    refine .pure ⟨read.shorter, ?_, ?_⟩
    · unfold Entry.ofFunction
      split <;> exact read.adds
    · unfold Entry.ofFunction
      intro id same
      split at same <;> cases same
  split
  · apply record_safe.bind
    intro record after _ read
    exact .pure ⟨read.shorter, read.adds, nofun⟩
  split
  · apply varDecl_safe.bind
    rintro decl mid _ ⟨shorter, adds, found⟩
    apply lineEnd_safe.lift.bind
    rintro _ after _ ⟨passes, -⟩
    refine .pure ⟨Nat.lt_of_le_of_lt passes.rest.length_le shorter, adds.before_passes passes, ?_⟩
    rintro _ ⟨⟩
    rw [passes.program]
    exact found
  · apply stmtLine_safe.bind
    intro stmt after _ read
    exact .pure ⟨read.shorter, read.adds, nofun⟩

/-- Reads what the next line of the outermost block says, if there is one. -/
def nextEntry : ParseM (Option Entry) := do
  if ← moreLines then return some (← entry) else return none

/-- Enters what the lines of the outermost block say, at most a number of times. -/
def enterWithin : (times : Nat) → ParseM Unit
  | 0 => exhausted
  | times + 1 => do
    match ← nextEntry with
    | none => return ()
    | some entry =>
      register fun program => entry.insert program
      enterWithin times

/-- Reading and entering line by line is what is done with the lines of the outermost block. -/
theorem collectWithin_bind (times : Nat) :
    (collectWithin (do if ← moreLines then return some (← topLevel) else return none) times >>=
      fun _ => pure ()) = enterWithin times := by
  induction times with
  | zero => rfl
  | succ times ih =>
      rw [collectWithin, enterWithin, ← ih, nextEntry, topLevel_eq]
      simp only [bind_assoc]
      congr 1
      funext more
      cases more with
      | false => simp
      | true => simp [bind_assoc]

/-- A program is read line by line. -/
theorem program_eq :
    program = (do
      enterWithin (← budget)
      return (← get).program) := by
  have lines : (discard (lines topLevel)) = (do enterWithin (← budget)) := by
    change (lines topLevel >>= fun _ => pure ()) = _
    unfold Parse.lines collect
    rw [bind_assoc]
    congr 1
    funext times
    exact collectWithin_bind times
  unfold program
  rw [lines, bind_assoc]

/-- The next line passes a token and adds what is held in what it says. -/
theorem nextEntry_safe {good : TokenKind → String → Prop} {state : ParseState} :
    Safe good Leads nextEntry state fun next? after =>
      match next? with
      | none => after.program = state.program
      | some entry => after.rest.length < state.rest.length ∧
          Adds good state entry.handles entry.numbers after ∧
            ∀ id, entry = .global id → (after.program.decl? id).isSome := by
  apply moreLines_safe.lift.bind
  rintro more mid _ ⟨passes, -⟩
  cases more with
  | false => exact .pure passes.program
  | true =>
      apply entry_safe.bind
      rintro entry after _ ⟨shorter, adds, valid⟩
      exact .pure ⟨Nat.lt_of_lt_of_le shorter passes.rest.length_le, adds.after_passes passes, valid⟩

end Parse

section Outermost

variable {state after : ParseState}

/-- Where the input ends, no tokens are left. -/
theorem rest_eq_nil_of_kind (eof : state.kind = .eof)
    (inside : ∀ token ∈ state.rest, token.kind ≠ .eof) : state.rest = [] := by
  unfold ParseState.kind ParseState.current at eof
  cases before : state.rest with
  | nil => rfl
  | cons token rest =>
      rw [before, List.headD_cons] at eof
      exact absurd eof (inside token (by simp [before]))

theorem run_moreLines (state : ParseState) :
    moreLines.run.run state =
      if state.passBlankLines.kind = .eof then (.ok false, state.passBlankLines)
      else if state.passBlankLines.column = state.indent then
        (.ok true, state.passBlankLines.passBlanks)
      else if state.passBlankLines.column < state.indent ∧
          state.passBlankLines.column % stepWidth = 0 then (.ok false, state.passBlankLines)
      else (.error ⟨.indentationError state.indent state.passBlankLines.column,
        state.passBlankLines.passBlanks.position⟩, state.passBlankLines) := by
  change (if state.passBlankLines.kind = .eof then return false
    else if state.passBlankLines.column = state.indent then do
      passBlanks
      return true
    else if state.passBlankLines.column < state.indent ∧
      state.passBlankLines.column % stepWidth = 0 then return false
    else fail (.indentationError state.indent state.passBlankLines.column)
      state.passBlankLines.passBlanks.position : ParseM Bool).run.run state.passBlankLines = _
  split
  · rfl
  split
  · rfl
  split <;> rfl

/-- Blank lines in front of the next line make no difference to it. -/
theorem nextEntry_congr {state' : ParseState} (same : state.passBlankLines = state'.passBlankLines) :
    nextEntry.run.run state = nextEntry.run.run state' := by
  have indent : state.passBlankLines.indent = state'.passBlankLines.indent := by rw [same]
  change state.indent = state'.indent at indent
  rw [nextEntry, Action.run_bind, Action.run_bind, run_moreLines, run_moreLines, same, indent]

/-- In the outermost block, lines end with the input alone. -/
theorem nextEntry_cases {next? : Option Entry} (outermost : state.indent = 0)
    (run : nextEntry.run.run state = (.ok next?, after)) :
    (next? = none ∧ state.passBlankLines.kind = .eof ∧ after = state.passBlankLines) ∨
      ∃ found, next? = some found ∧ state.passBlankLines.kind ≠ .eof ∧
        state.passBlankLines.column = 0 ∧
        entry.run.run state.passBlankLines.passBlanks = (.ok found, after) := by
  rw [nextEntry, Action.run_bind, run_moreLines, outermost] at run
  split at run
  · next _ more mid found =>
    split at found
    · next eof =>
      cases found
      cases run
      exact .inl ⟨rfl, eof, rfl⟩
    split at found
    · next going column =>
      cases found
      rw [if_pos rfl, Action.run_bind] at run
      right
      generalize entry.run.run state.passBlankLines.passBlanks = outcome at run ⊢
      obtain ⟨error | found, mid⟩ := outcome
      · cases run
      · cases run
        exact ⟨found, rfl, going, column, rfl⟩
    · next going column =>
      rw [if_neg (by omega)] at found
      cases found
  · cases run

end Outermost

theorem ParseState.Ready.withProgram {good : TokenKind → String → Prop} {state : ParseState}
    {next : Program} (ready : state.Ready good) :
    ParseState.Ready good { state with program := next } :=
  ⟨ready.closing, ready.grammar, ready.tokens⟩

section Growing

variable {good : TokenKind → String → Prop} {state after : ParseState} {handles : List VarId}
  {numbers : List Nat}

/-- The declarations of the global variables are still there when others are added. -/
theorem Adds.decl?_eq (h : Adds good state handles numbers after)
    (declared : state.program.DeclaresGlobals) :
    ∀ id ∈ state.program.globals, after.program.decl? id = state.program.decl? id := by
  obtain ⟨⟨new, grown, -, -, -⟩, -, -⟩ := h
  intro id global
  obtain ⟨decl, found⟩ := Option.isSome_iff_exists.1 (declared id global)
  rw [found, grown]
  exact getElem?_of_prefix (by simp) found

theorem Adds.globals_eq (h : Adds good state handles numbers after) :
    after.program.globals = state.program.globals := by
  obtain ⟨⟨new, grown, -, -, -⟩, -, -⟩ := h
  rw [grown]

theorem Adds.declaresGlobals (h : Adds good state handles numbers after)
    (declared : state.program.DeclaresGlobals) : after.program.DeclaresGlobals := by
  intro id global
  rw [h.globals_eq] at global
  rw [h.decl?_eq declared id global]
  exact declared id global

/-- Nothing is entered by adding declarations. -/
theorem Adds.labels_eq (h : Adds good state handles numbers after)
    (declared : state.program.DeclaresGlobals) : after.program.labels = state.program.labels := by
  have names : after.program.globalNames = state.program.globalNames := by
    unfold Program.globalNames
    rw [h.globals_eq, List.filterMap_congr (h.decl?_eq declared)]
  obtain ⟨⟨new, grown, -, -, -⟩, -, -⟩ := h
  unfold Program.labels
  rw [names, grown]

theorem Entry.insert_eq_ok {program next : Program} {entry : Entry}
    (valid : ∀ id, entry = .global id → (program.decl? id).isSome)
    (h : entry.insert program = .ok next) :
    next = entry.enter program ∧ entry.isReserved = false ∧
      ∀ label ∈ entry.label? program, label ∉ program.labels := by
  by_cases taken : entry.isReserved = true ∨ ∃ label ∈ entry.label? program, label ∈ program.labels
  · obtain ⟨error, failed, -, -⟩ := insert_of_taken taken
    rw [failed] at h
    cases h
  · rw [not_or, Bool.not_eq_true] at taken
    have free : ∀ label ∈ entry.label? program, label ∉ program.labels := by
      intro label found listed
      exact taken.2 ⟨label, found, listed⟩
    rw [insert_of_free taken.1 free valid] at h
    cases h
    exact ⟨rfl, taken.1, free⟩

end Growing

/-- What comes of entering what the lines of the outermost block say, one after the other: it ends
behind the last line, at a line that is not read, or at one that is not entered. -/
inductive EntersLines : ParseState → Except Error Unit × ParseState → Prop where
  | last {state after} : nextEntry.run.run state = (.ok none, after) →
    EntersLines state (.ok (), after)
  | unread {state after error} : nextEntry.run.run state = (.error error, after) →
    EntersLines state (.error error, after)
  | clash {state after entry error} : nextEntry.run.run state = (.ok (some entry), after) →
    entry.insert after.program = .error error → EntersLines state (.error error, after)
  | line {state mid entry next outcome} : nextEntry.run.run state = (.ok (some entry), mid) →
    entry.insert mid.program = .ok next → EntersLines { mid with program := next } outcome →
    EntersLines state outcome

section Entering

variable {good : TokenKind → String → Prop} {state after : ParseState}
  {outcome outcome' : Except Error Unit × ParseState}

theorem run_register (add : Program → Except Error Program) (state : ParseState) :
    (register add).run.run state = match add state.program with
      | .ok next => (.ok (), { state with program := next })
      | .error error => (.error error, state) := by
  change (match add state.program with
    | .ok next => (set { state with program := next } : ParseM Unit)
    | .error error => throw error).run.run state = _
  cases add state.program <;> rfl

theorem run_enterWithin_succ (times : Nat) (state : ParseState) :
    (enterWithin (times + 1)).run.run state = match nextEntry.run.run state with
      | (.ok none, after) => (.ok (), after)
      | (.error error, after) => (.error error, after)
      | (.ok (some entry), mid) => match entry.insert mid.program with
        | .error error => (.error error, mid)
        | .ok next => (enterWithin times).run.run { mid with program := next } := by
  rw [enterWithin, Action.run_bind]
  generalize nextEntry.run.run state = outcome
  obtain ⟨error | next?, mid⟩ := outcome
  · rfl
  cases next? with
  | none => rfl
  | some entry =>
      dsimp only
      rw [Action.run_bind, run_register]
      cases entry.insert mid.program <;> rfl

/-- Where entering lines is bounded by more than the tokens left, it comes to its end. -/
theorem entersLines_of_run (times : Nat) (ready : state.Ready good)
    (enough : state.rest.length < times) :
    EntersLines state ((enterWithin times).run.run state) := by
  induction times generalizing state with
  | zero => exact absurd enough (Nat.not_lt_zero _)
  | succ times ih =>
      rw [run_enterWithin_succ]
      cases read : nextEntry.run.run state with
      | mk result mid =>
          match result with
          | .error error => exact .unread read
          | .ok none => exact .last read
          | .ok (some entry) =>
              obtain ⟨leads, shorter, -⟩ := nextEntry_safe.of_ok ready read
              dsimp only
              cases entered : entry.insert mid.program with
              | error error => exact .clash read entered
              | ok next =>
                  apply EntersLines.line read entered
                  exact ih (leads.ready ready).withProgram (by dsimp only; omega)

theorem EntersLines.run (h : EntersLines state outcome) (times : Nat) (ready : state.Ready good)
    (enough : state.rest.length < times) : (enterWithin times).run.run state = outcome := by
  induction h generalizing times with
  | last read | unread read =>
      obtain ⟨times, rfl⟩ := Nat.exists_eq_add_one.2 (Nat.zero_lt_of_lt enough)
      rw [run_enterWithin_succ, read]
  | clash read failed =>
      obtain ⟨times, rfl⟩ := Nat.exists_eq_add_one.2 (Nat.zero_lt_of_lt enough)
      simp only [run_enterWithin_succ, read, failed]
  | line read entered _ ih =>
      obtain ⟨times, rfl⟩ := Nat.exists_eq_add_one.2 (Nat.zero_lt_of_lt enough)
      obtain ⟨leads, shorter, -⟩ := nextEntry_safe.of_ok ready read
      simp only [run_enterWithin_succ, read, entered]
      exact ih times (leads.ready ready).withProgram (by dsimp only; omega)

/-- What has been entered stays entered. -/
theorem EntersLines.mem_labels (h : EntersLines state outcome) (ready : state.Ready good)
    (declared : state.program.DeclaresGlobals) (done : outcome.1 = .ok ()) :
    ∀ label ∈ state.program.labels, label ∈ outcome.2.program.labels := by
  induction h with
  | last read =>
      have same := (nextEntry_safe.of_ok ready read).2
      exact fun label listed => same ▸ listed
  | unread _ | clash _ _ => cases done
  | line read entered _ ih =>
      obtain ⟨leads, -, adds, valid⟩ := nextEntry_safe.of_ok ready read
      obtain ⟨rfl, -, -⟩ := Entry.insert_eq_ok valid entered
      intro label listed
      apply ih (leads.ready ready).withProgram
        (Entry.declaresGlobals_enter (adds.declaresGlobals declared) valid) done
      rw [← adds.labels_eq declared] at listed
      exact Entry.mem_labels_enter.2 (.inl listed)

/-- What comes of entering lines depends on the next of them and what follows. -/
theorem EntersLines.congr {state' : ParseState} (h : EntersLines state outcome)
    (same : nextEntry.run.run state = nextEntry.run.run state') : EntersLines state' outcome := by
  cases h with
  | last read => exact .last (same.symm.trans read)
  | unread read => exact .unread (same.symm.trans read)
  | clash read failed => exact .clash (same.symm.trans read) failed
  | line read entered rest => exact .line (same.symm.trans read) entered rest

/-- A program is what has been entered behind the last line. -/
theorem EntersLines.run_program (h : EntersLines state outcome) (ready : state.Ready good) :
    Parse.program.run.run state = (outcome.1.map fun _ => outcome.2.program, outcome.2) := by
  have lines := h.run _ ready (Nat.lt_succ_self _)
  rw [program_eq]
  change (enterWithin (state.rest.length + 1) >>= fun _ =>
    (do return (← get).program : ParseM Program)).run.run state = _
  rw [Action.run_bind, lines]
  obtain ⟨error | done, after⟩ := outcome <;> rfl

/-- What some tokens spell is what their lines enter. -/
theorem EntersLines.ofTokens_eq {tokens : List Token} {file : String}
    (h : EntersLines (.ofTokens tokens file) outcome) :
    Program.ofTokens tokens file = outcome.1.map fun _ => outcome.2.program := by
  have ready : (ParseState.ofTokens tokens file).Ready fun _ _ => True :=
    ready_ofTokens fun _ _ => trivial
  exact congrArg Prod.fst (h.run_program ready)

end Entering

end Offside
