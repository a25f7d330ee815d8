import Offside.Proofs.Placing.Declarations

/-! # Tracking programs

A program is arranged from the items that the lines of the outermost block say: each is put in the
list of its kind, behind those of its kind that stand in front of it.
-/

namespace Offside

open Parse ParseState Outline

/-- What a line of the outermost block says, with everything that belongs to it. -/
inductive SourceItem where
  | record (ordered : OrderedRecord)
  | function (function : Function)
  | global (id : VarId)
  | statement (stmt : Stmt)

namespace SourceItem

/-- What an item is entered into a program as. -/
@[simp] def entry : SourceItem → Entry
  | .record ordered => .record ordered.record
  | .function declared => .ofFunction declared
  | .global id => .global id
  | .statement stmt => .statement stmt

/-- The outline of an item. -/
def outline (decls : Array VarDecl) : SourceItem → Outline
  | .record ordered => ordered.record.outline decls ordered.members
  | .function declared => declared.outline decls
  | .global id => id.outline decls
  | .statement stmt => stmt.outline decls

/-- The headers in an item. -/
def headers (depth : Nat) : SourceItem → List Header
  | .record ordered => ordered.headers depth
  | .function declared => declared.headers depth
  | .global id => [⟨depth, .variable id⟩]
  | .statement stmt => stmt.headers depth

/-- What an item covers: the words that its outline takes up. -/
def CoversIn (decls : Array VarDecl) (item : SourceItem) (words : List Token) : Prop :=
  (item.outline decls).Over words

/-- The record type that an item is. -/
@[simp] def record? : SourceItem → Option RecordDecl
  | .record ordered => some ordered.record
  | _ => none

/-- The function that an item is. -/
@[simp] def function? : SourceItem → Option Function
  | .function declared => some declared
  | _ => none

/-- The global variable that an item is. -/
@[simp] def global? : SourceItem → Option VarId
  | .global id => some id
  | _ => none

/-- The free statement that an item is. -/
@[simp] def statement? : SourceItem → Option Stmt
  | .statement stmt => some stmt
  | _ => none

section Kinds

variable {items : List SourceItem}

theorem mem_of_record? {record : RecordDecl} (h : record ∈ items.filterMap record?) :
    ∃ ordered : OrderedRecord, ordered.record = record ∧ .record ordered ∈ items := by
  obtain ⟨item, listed, same⟩ := List.mem_filterMap.1 h
  cases item with
  | record ordered => exact ⟨ordered, Option.some.inj same, listed⟩
  | function | global | statement => cases same

theorem mem_of_function? {declared : Function} (h : declared ∈ items.filterMap function?) :
    .function declared ∈ items := by
  obtain ⟨item, listed, same⟩ := List.mem_filterMap.1 h
  cases item with
  | function declared => cases same; exact listed
  | record | global | statement => cases same

theorem mem_of_global? {id : VarId} (h : id ∈ items.filterMap global?) : .global id ∈ items := by
  obtain ⟨item, listed, same⟩ := List.mem_filterMap.1 h
  cases item with
  | global id => cases same; exact listed
  | record | function | statement => cases same

theorem mem_of_statement? {stmt : Stmt} (h : stmt ∈ items.filterMap statement?) :
    .statement stmt ∈ items := by
  obtain ⟨item, listed, same⟩ := List.mem_filterMap.1 h
  cases item with
  | statement stmt => cases same; exact listed
  | record | function | global => cases same

end Kinds

end SourceItem

/-- A program holds some items, those of a kind in their order. -/
structure Program.Arranged (program : Program) (items : List SourceItem) : Prop where
  records : program.records = items.filterMap SourceItem.record?
  functions : program.functions =
    (items.filterMap SourceItem.function?).filter fun function => function.name != mainName
  main : program.main.toList =
    (items.filterMap SourceItem.function?).filter fun function => function.name == mainName
  globals : program.globals = items.filterMap SourceItem.global?
  statements : program.statements = items.filterMap SourceItem.statement?

namespace Program.Arranged

variable {program : Program} {items : List SourceItem} {item : SourceItem}

theorem empty : Program.Arranged .empty [] :=
  ⟨rfl, rfl, rfl, rfl, rfl⟩

/-- What a program holds is among its items. -/
theorem mem_record (h : program.Arranged items) {record : RecordDecl}
    (listed : record ∈ program.records) :
    ∃ ordered : OrderedRecord, ordered.record = record ∧ .record ordered ∈ items :=
  SourceItem.mem_of_record? (h.records ▸ listed)

theorem mem_function (h : program.Arranged items) {function : Function}
    (listed : function ∈ program.functions ++ program.main.toList) : .function function ∈ items := by
  rw [h.functions, h.main, List.mem_append, List.mem_filter, List.mem_filter] at listed
  exact SourceItem.mem_of_function? (listed.elim And.left And.left)

theorem mem_global (h : program.Arranged items) {id : VarId} (listed : id ∈ program.globals) :
    .global id ∈ items :=
  SourceItem.mem_of_global? (h.globals ▸ listed)

theorem mem_statement (h : program.Arranged items) {stmt : Stmt}
    (listed : stmt ∈ program.statements) : .statement stmt ∈ items :=
  SourceItem.mem_of_statement? (h.statements ▸ listed)

/-- Declarations are held by no list. -/
theorem withDecls (h : program.Arranged items) (decls : Array VarDecl) :
    Program.Arranged { program with decls } items :=
  ⟨h.records, h.functions, h.main, h.globals, h.statements⟩

/-- An item is entered behind the others. -/
theorem enter (h : program.Arranged items)
    (apart : ∀ label ∈ item.entry.label? program, label ∉ program.labels) :
    (item.entry.enter program).Arranged (items ++ [item]) := by
  cases item with
  | record ordered =>
      constructor <;> simp [Entry.enter, h.records, h.functions, h.main, h.globals, h.statements]
  | global id =>
      constructor <;> simp [Entry.enter, h.records, h.functions, h.main, h.globals, h.statements]
  | statement stmt =>
      constructor <;> simp [Entry.enter, h.records, h.functions, h.main, h.globals, h.statements]
  | function declared =>
      by_cases named : declared.name = mainName
      · have free : program.main = none := by
          have other := apart .main (by simp [Entry.ofFunction, named, Entry.label?])
          simpa [Program.main_mem_labels] using other
        have none := h.main
        rw [free, Option.toList_none] at none
        constructor <;> simp [Entry.ofFunction, named, Entry.enter, h.records, h.functions,
          h.globals, h.statements, ← none]
      · constructor <;> simp [Entry.ofFunction, named, Entry.enter, h.records, h.functions, h.main,
          h.globals, h.statements]

end Program.Arranged

section Reading

variable {all : List Token} {state : ParseState}

namespace Parse

/-- Reads what a line of the outermost block says, with everything that belongs to it. -/
def item : ParseM SourceItem := do
  let state ← get
  if state.kind = .defWord then return .function (← function)
  else if state.kind = .hotpotWord then return .record (← orderedRecord)
  else if state.startsDeclaration then return .global (← variableLine)
  else return .statement (← stmtLine)

theorem entry_eq : entry = (do return (← item).entry) := by
  unfold entry item
  rw [bind_assoc]
  congr 1
  funext state
  split
  · simp only [bind_assoc, pure_bind, SourceItem.entry]
  split
  · simp only [record_eq, bind_assoc, pure_bind, SourceItem.entry]
  split
  · simp only [variableLine, bind_assoc, pure_bind, SourceItem.entry]
  · simp only [bind_assoc, pure_bind, SourceItem.entry]

/-- Reads what the next line of the outermost block says, if there is one. -/
def nextItem : ParseM (Option SourceItem) := do
  if ← moreLines then return some (← item) else return none

theorem nextEntry_eq : nextEntry = (do return (← nextItem).map SourceItem.entry) := by
  unfold nextEntry nextItem
  rw [bind_assoc]
  congr 1
  funext more
  cases more with
  | false => simp
  | true => simp [entry_eq]

end Parse

/-- An item is read with its headers. -/
theorem item_tracks :
    Tracks Moves all item state (ReadFrom SourceItem.CoversIn SourceItem.headers state) := by
  refine .get_bind ?_
  split
  · next word => exact .map (function_tracks word)
  split
  · next word => exact .map (orderedRecord_tracks word)
  split
  · exact .map variableLine_tracks
  · exact .map stmtLine_tracks

/-- What the next line says is an item, which is read with its headers. -/
theorem nextEntry_tracks :
    Tracks Moves all nextEntry state (Continues
      (ReadLines SourceItem.CoversIn SourceItem.headers state [])
      fun entry passed after => ∃ item, item.entry = entry ∧
        ReadLines SourceItem.CoversIn SourceItem.headers state [item] passed after) := by
  rw [nextEntry_eq]
  refine (nextLine_tracks fun inner _ => item_tracks).bind fun next? passed after _ read => .pure ?_
  cases next? with
  | none => simpa using read
  | some item => exact ⟨item, rfl, by simpa using read⟩

/-- The outline of something starts at one of the words that it takes up. -/
theorem Outline.Over.exists_start {outline : Outline} {words : List Token} (h : outline.Over words) :
    ∃ token ∈ words, token.span.start = outline.span.start := by
  obtain ⟨parens, own, back, rfl, -, covers⟩ := h
  obtain ⟨first, listed, -, -, start, -⟩ := covers.goesOver.exists_ends
  exact ⟨first, by simp [listed], start⟩

/-- An item that cannot be entered is blamed where it starts. -/
theorem SourceItem.position_of_insert {program : Program} {item : SourceItem} {error : Error}
    (valid : ∀ id, item.entry = .global id → (program.decl? id).isSome)
    (h : item.entry.insert program = .error error) :
    error.position = (item.outline program.decls).span.start := by
  cases item with
  | record ordered =>
      rw [SourceItem.entry, Entry.insert, Program.insertRecord] at h
      split at h <;> cases h
      rfl
  | function declared =>
      rw [SourceItem.entry, Entry.insert_ofFunction, Program.insertFunction] at h
      split at h <;> split at h <;> cases h <;> rfl
  | global id =>
      obtain ⟨decl, found⟩ := Option.isSome_iff_exists.1 (valid id rfl)
      rw [SourceItem.entry, Entry.insert, Program.insertGlobal, Program.decl, found] at h
      dsimp only at h
      split at h <;> cases h
      rw [Program.decl?] at found
      rw [SourceItem.outline, VarId.outline, found]
      rfl
  | statement stmt => cases h

/-- Entering something into the program moves over no token. -/
theorem ParseState.Moves.withProgram {passed : List Token} {mid : ParseState} {next : Program}
    (h : state.Moves passed mid) (same : next.decls = mid.program.decls) :
    state.Moves passed { mid with program := next } :=
  ⟨h.rest, h.closing, h.grammar, h.indent, by simpa [same] using h.decls, h.lastEnd⟩

theorem Entry.decls_enter (entry : Entry) (program : Program) :
    (entry.enter program).decls = program.decls := by
  cases entry <;> rfl

/-- Where the lines of the outermost block are entered, the program is arranged from the items that
they say, and these are read from the words of all lines. Otherwise the error is at a token. -/
theorem EntersLines.arranges {good : TokenKind → String → Prop}
    {outcome : Except Error Unit × ParseState} (h : EntersLines state outcome)
    (ready : state.Ready good) (ahead : state.Ahead all) (outermost : state.indent = 0)
    {items : List SourceItem} (arranged : state.program.Arranged items) :
    match outcome with
    | (.ok (), after) => ∃ more, after.program.Arranged (items ++ more) ∧
        state.Moves state.rest after ∧
        ReadLines SourceItem.CoversIn SourceItem.headers state more state.rest after
    | (.error error, _) => error.At all := by
  induction h generalizing items with
  | @last state after read =>
      obtain ⟨passed, moves, lines⟩ := nextEntry_tracks.of_ok ahead read
      have same := (nextEntry_safe.of_ok ready read).2
      have rest : after.rest = [] := by
        obtain ⟨-, eof, rfl⟩ | ⟨found, none, -⟩ := nextEntry_cases outermost read
        · exact rest_eq_nil_of_kind eof (moves.ahead ahead).inside
        · cases none
      have whole : state.rest = passed := by rw [moves.rest, rest, List.append_nil]
      refine ⟨[], ?_, whole ▸ moves, whole ▸ lines⟩
      rwa [List.append_nil, same]
  | unread read => exact nextEntry_tracks.of_error ahead read
  | @clash state after entry error read failed =>
      obtain ⟨passed, moves, item, rfl, lines⟩ := nextEntry_tracks.of_ok ahead read
      obtain ⟨-, -, -, valid⟩ := nextEntry_safe.of_ok ready read
      obtain ⟨⟨own, back, words, goes, -⟩, -⟩ := lines after.program.decls List.prefix_rfl
      obtain ⟨token, listed, starts⟩ := Outline.Over.exists_start goes
      have inside : token ∈ passed := by
        refine mem_of_mem_solid ?_
        rw [words]
        exact List.mem_append_left _ listed
      have stands : token ∈ state.rest := by
        rw [moves.rest]
        exact List.mem_append_left _ inside
      exact ⟨token, ahead.listed.subset (List.mem_append_left _ stands),
        (SourceItem.position_of_insert valid failed).trans starts.symm⟩
  | @line state mid entry next outcome read entered rest ih =>
      obtain ⟨passed, moves, item, rfl, lines⟩ := nextEntry_tracks.of_ok ahead read
      obtain ⟨leads, -, adds, valid⟩ := nextEntry_safe.of_ok ready read
      obtain ⟨rfl, -, apart⟩ := Entry.insert_eq_ok valid entered
      have decls := Entry.decls_enter item.entry mid.program
      have forward := moves.withProgram decls
      have arranged' : mid.program.Arranged items := by
        obtain ⟨⟨new, grown, -⟩, -⟩ := adds
        rw [grown]
        exact arranged.withDecls _
      have outcome' := ih (leads.ready ready).withProgram (forward.ahead ahead)
        (forward.indent.trans outermost) (arranged'.enter apart)
      obtain ⟨error | done, after⟩ := outcome
      · exact outcome'
      · obtain ⟨more, arranged, moves', lines'⟩ := outcome'
        have whole : state.rest = passed ++ mid.rest := moves.rest
        have first : ReadLines SourceItem.CoversIn SourceItem.headers state [item] passed
            { mid with program := item.entry.enter mid.program } := by
          intro later grown
          rw [decls] at grown
          exact lines later grown
        refine ⟨item :: more, by simpa using arranged, ?_, ?_⟩
        · rw [whole]
          exact forward.trans moves'
        · rw [whole]
          exact first.append forward.indent moves' lines'

/-- At the start, all tokens are ahead. -/
theorem ahead_ofTokens {tokens : List Token} (file : String)
    (inside : ∀ token ∈ tokens.dropLast, token.kind ≠ .eof) :
    ParseState.Ahead ((ParseState.ofTokens tokens file).rest ++
      [(ParseState.ofTokens tokens file).closing]) (ParseState.ofTokens tokens file) := by
  unfold ParseState.ofTokens
  split
  · exact ⟨rfl, rfl, by simp, List.suffix_rfl⟩
  next last ends =>
    split
    · next closes => exact ⟨closes, rfl, inside, List.suffix_rfl⟩
    · next goesOn =>
      refine ⟨rfl, rfl, fun token listed => ?_, List.suffix_rfl⟩
      rw [← List.dropLast_append_getLast? last ends, List.mem_append, List.mem_singleton] at listed
      exact listed.elim (inside token) fun same => same ▸ goesOn

end Reading

/-- What some tokens spell is arranged from items, which are read from their words one after the
other, and whose headers are their lines. Where they spell nothing, the error is at one of them. -/
theorem ofTokens_arranges {tokens : List Token} (file : String)
    (inside : ∀ token ∈ tokens.dropLast, token.kind ≠ .eof) :
    match Program.ofTokens tokens file with
    | .ok spelled => ∃ items, spelled.Arranged items ∧
        InTurn (SourceItem.CoversIn spelled.decls) items
          (solid (ParseState.ofTokens tokens file).rest) ∧
        List.Forall₂ (Header.Heads spelled.decls)
          (wordLines (ParseState.ofTokens tokens file).rest) (items.flatMap (SourceItem.headers 0))
    | .error error => error.At ((ParseState.ofTokens tokens file).rest ++
        [(ParseState.ofTokens tokens file).closing]) := by
  have ahead := ahead_ofTokens file inside
  have ready : (ParseState.ofTokens tokens file).Ready fun _ _ => True :=
    ready_ofTokens fun _ _ => trivial
  have start : (ParseState.ofTokens tokens file).indent = 0 ∧
      (ParseState.ofTokens tokens file).program = .empty := by
    unfold ParseState.ofTokens
    split
    · exact ⟨rfl, rfl⟩
    · split <;> exact ⟨rfl, rfl⟩
  obtain ⟨outermost, empty⟩ := start
  have enters := entersLines_of_run _ ready (Nat.lt_succ_self _)
  generalize (enterWithin _).run.run (ParseState.ofTokens tokens file) = outcome at enters
  have arranged := enters.arranges ready ahead outermost (empty ▸ Program.Arranged.empty)
  rw [enters.ofTokens_eq]
  obtain ⟨error | done, after⟩ := outcome
  · exact arranged
  · obtain ⟨items, arranged, moves, read⟩ := arranged
    obtain ⟨turns, lays⟩ := read after.program.decls List.prefix_rfl
    refine ⟨items, arranged, turns, ?_⟩
    obtain ⟨lines, same, heads⟩ := lays 0 outermost
    have ends : after.rest = [] := by
      have whole := moves.rest
      rwa [List.self_eq_append_right] at whole
    rw [ends] at same
    rw [same]
    simpa [wordLines] using heads

/-- The tokens of a source text are ahead at the start, up to the one that marks its end. -/
theorem ofTokens_of_scan {source file : String} {tokens : List Token}
    (h : Token.scan source file = .ok tokens) :
    (∀ token ∈ tokens.dropLast, token.kind ≠ .eof) ∧
      (ParseState.ofTokens tokens file).rest = tokens.dropLast ∧
      (ParseState.ofTokens tokens file).rest ++ [(ParseState.ofTokens tokens file).closing] =
        tokens := by
  obtain ⟨front, rfl, inside⟩ := scanFrom_closed h
  rw [ofTokens_append_eof rfl, List.dropLast_concat]
  exact ⟨inside, rfl, rfl⟩

end Offside
