import Offside.Proofs.Printing.Entries

/-! # Printed programs are read back

A program that has been read is printed as a text from which it is read again, up to its spans and
the handles and numbers in it. These are handed out anew in the order of the text.
-/

namespace Offside

open Parse ParseState Word TokenKind

section Lines

variable {decimal : Number.Binary64 → String} {program : Program} {count : Nat} {ρ : Renaming}
  {start state mid : ParseState} {tail : List Word} {front back : List Entry} {entry : Entry}

/-- What a line has been read as is entered into the program. -/
theorem register_reads {add : Program → Except Error Program} (entry entry' : Entry)
    (held : Entered program ρ front state)
    (done : Redeclares program ρ state entry.handles entry.numbers.length mid)
    (same : entry'.renamed .same = entry.renamed ρ)
    (all : program.entries = front ++ entry :: back) (words : mid.words = tail)
    (added : add mid.program = .ok (entry'.enter mid.program)) :
    Reads Leads (register add) mid fun _ after =>
      after.words = tail ∧ Entered program ρ (front ++ [entry]) after := by
  have first : ∀ function, entry = .main function → front.filterMap Entry.main? = [] := by
    rintro function rfl
    exact front_main_eq_nil all
  have grown : mid.program.decls.toList <+: (entry'.enter mid.program).decls.toList := by
    cases entry' <;> exact List.prefix_rfl
  apply Runs.get_bind
  rw [added]
  intro _
  exact ⟨⟨List.suffix_rfl, rfl, rfl, rfl, grown, Nat.le_refl _⟩, words,
    held.add done same first⟩

/-- A printed line of the outermost block is read back. -/
theorem topLevel_reads (faithful : Faithful decimal) (sound : program.Sound Admits count)
    (due : Due program ρ start (program.entries.flatMap Entry.handles))
    (numbered : Numbered ρ start (program.entries.flatMap Entry.numbers))
    (fresh : start.program.decls.size = 0) (none : start.nextId = 0)
    (all : program.entries = front ++ entry :: back) (held : Entered program ρ front state)
    (words : state.words = entry.words decimal program ++ tail)
    (indent : state.indent = stepWidth * 0) (after : After 0 tail) :
    Reads Leads topLevel state fun _ last =>
      last.words = tail ∧ Entered program ρ (front ++ [entry]) last := by
  have listed : entry ∈ program.entries := by simp [all]
  rw [all, List.flatMap_append, List.flatMap_cons, ← List.append_assoc] at due numbered
  have handles := due.left.next
  rw [fresh, ← List.range_eq_range'] at handles
  have declared := due.left.declared
  replace due : Due program ρ state entry.handles :=
    due.left.right_of_size (by rw [fresh, held.decls.size, Nat.zero_add])
  replace numbered : Numbered ρ state entry.numbers :=
    numbered.left.right_of_nextId (by rw [none, held.nextId, Nat.zero_add])
  intro ready
  refine Runs.get_bind ?_ ready
  cases entry with
  | record record =>
      have spelled := sound.spelled.records record (by simpa [Program.entries] using listed)
      rw [Entry.words] at words
      have kind : state.kind = hotpotWord := by
        rw [ready.kind_eq, words]
        rfl
      rw [kind]
      apply (record_reads faithful spelled due numbered words indent after.outside).bind
      intro record' mid _ read
      obtain ⟨same, ahead, done⟩ := read
      apply register_reads (.record record) (.record record') held done _ all ahead
        (insertRecord_eq sound.distinct all (held.lists.redeclares done) same)
      rw [Entry.renamed, Entry.renamed, same]
  | function function =>
      have spelled := sound.spelled.functions function (by simpa [Program.entries] using listed)
      rw [Entry.words] at words
      have kind : state.kind = defWord := by
        rw [ready.kind_eq, words]
        rfl
      rw [kind]
      apply (function_reads faithful spelled due numbered words indent after.outside).bind
      intro function' mid _ read
      obtain ⟨same, ahead, done⟩ := read
      apply register_reads (.function function) (.function function') held done _ all ahead
        (insertFunction_eq sound.distinct all (held.lists.redeclares done) same)
      rw [Entry.renamed, Entry.renamed, same]
  | main function =>
      have spelled := sound.spelled.main function (by simpa [Program.entries] using listed)
      rw [Entry.words] at words
      have kind : state.kind = defWord := by
        rw [ready.kind_eq, words]
        rfl
      rw [kind]
      apply (function_reads faithful spelled due numbered words indent after.outside).bind
      intro function' mid _ read
      obtain ⟨same, ahead, done⟩ := read
      apply register_reads (.main function) (.main function') held done _ all ahead
        (insertMain_eq sound.distinct all (held.lists.redeclares done) same)
      rw [Entry.renamed, Entry.renamed, same]
  | global id =>
      obtain ⟨decl, found⟩ := due.declared id (by simp [Entry.handles])
      obtain ⟨rest, printed⟩ := VarId.head decimal found
      rw [Entry.words, List.append_assoc] at words
      have kind : state.kind = identifier := by
        rw [ready.kind_eq, words, printed]
        rfl
      have starts : state.startsDeclaration = true := by
        rw [startsDeclaration_eq ready, words, printed]
        rfl
      rw [kind]
      simp only [starts, if_true]
      apply (varDecl_reads faithful due words rfl (by simp [mark])).bind
      intro id' mid _ read
      obtain ⟨rfl, done, ahead⟩ := read
      apply (lineEnd_reads ahead).lift.bind
      intro _ behind _ ended
      replace done := done.before_passes ended.1
      apply register_reads (.global id) (.global (ρ.decl id)) held done rfl all ended.2
      apply insertGlobal_eq sound.distinct all (held.lists.redeclares done) (held.decls.add done)
        handles _ declared
      intro id' held
      rcases List.mem_append.1 held with before | here
      · obtain ⟨entry, listed, same⟩ := List.mem_filterMap.1 before
        exact List.mem_append_left _
          (List.mem_flatMap_of_mem listed (Entry.global_mem_handles same))
      · exact List.mem_append_right _ here
  | statement stmt =>
      obtain ⟨spelled, silent⟩ :=
        sound.spelled.statements stmt (by simpa [Program.entries] using listed)
      rw [Entry.words] at words
      obtain ⟨word, rest, printed, starts⟩ := spelled.head due.declared 0
      have kind : state.kind = word.kind := by
        rw [ready.kind_eq, words, printed]
        rfl
      split
      · next same => exact absurd (kind.symm.trans same) (ne_of_startsStmt starts ⟨rfl, rfl⟩)
      · next same => exact absurd (kind.symm.trans same) (ne_of_startsStmt starts ⟨rfl, rfl⟩)
      · simp only [spelled.not_startsDeclaration silent ready words, Bool.false_eq_true, if_false]
        apply (stmtLine_reads faithful _ 0 stmt state tail (Nat.le_refl _) spelled due words indent
          after).bind
        intro stmt' mid _ read
        apply register_reads (.statement stmt) (.statement stmt') held read.redeclares _ all
          read.words rfl
        rw [Entry.renamed, Entry.renamed, read.same]

/-- What is entered starts with a token that starts lines and goes on with no statement. -/
theorem Entry.head (sound : program.Sound Admits count) (listed : entry ∈ program.entries)
    (declared : ∀ id ∈ entry.handles, ∃ decl, program.decl? id = some decl) :
    ∃ word rest, entry.words decimal program = word :: rest ∧ word.kind.startsLine = true ∧
      word.kind ≠ .elifWord ∧ word.kind ≠ .elseWord := by
  cases entry with
  | global id =>
      obtain ⟨decl, found⟩ := declared id (by simp [Entry.handles])
      obtain ⟨rest, words⟩ := VarId.head decimal found
      rw [Entry.words, words]
      exact ⟨_, _, rfl, rfl, by simp [Word.name], by simp [Word.name]⟩
  | statement stmt =>
      obtain ⟨spelled, _⟩ := sound.spelled.statements stmt (by simpa [Program.entries] using listed)
      obtain ⟨word, rest, words, starts⟩ := spelled.head declared 0
      exact ⟨word, rest, words, startsLine_of_startsStmt starts,
        ne_of_startsStmt starts ⟨rfl, rfl⟩, ne_of_startsStmt starts ⟨rfl, rfl⟩⟩
  | _ => exact ⟨_, _, rfl, rfl, by simp [mark], by simp [mark]⟩

/-- A printed program is read back line by line. -/
theorem program_reads (faithful : Faithful decimal) (sound : program.Sound Admits count)
    (due : Due program ρ start (program.entries.flatMap Entry.handles))
    (numbered : Numbered ρ start (program.entries.flatMap Entry.numbers))
    (fresh : start.program = .empty) (none : start.nextId = 0)
    (words : start.words = program.words decimal) (indent : start.indent = stepWidth * 0) :
    Reads Leads Parse.program start fun again after =>
      again = after.program ∧ Entered program ρ program.entries after := by
  have entered : Reads Leads (lines topLevel) start fun _ after =>
      after.words = [] ∧ Entered program ρ program.entries after := by
    apply lines_reads (Entry.words decimal program)
      (fun sources _ after => Entered program ρ sources after)
    · intro sources _ mid after passes held
      exact held.passes passes
    · intro entry listed
      apply entry.head sound listed
      intro id held
      exact due.declared id (List.mem_flatMap_of_mem listed held)
    · intro front entry back _ inner behind all _ indent words after held
      exact topLevel_reads faithful sound due numbered (by rw [fresh]; rfl) none all held words
        indent after
    · rw [words, program.entries_words, List.append_nil]
    · exact .none
    · exact indent
    · exact .empty fresh none
  apply entered.discard.bind
  intro _ after _ read
  obtain ⟨_, _, held⟩ := read
  exact Runs.get_bind (.pure ⟨rfl, held⟩)

end Lines

section Results

variable {program again : Program} {count : Nat}

/-- The handles and numbers that the printed program is read back with: those of the places at which
the old ones are printed. -/
def Program.renumbering (program : Program) : Renaming where
  decl id := ⟨(program.entries.flatMap Entry.handles).idxOf id⟩
  number number := program.numbers.idxOf number

theorem map_idxOf {α : Type} [BEq α] [LawfulBEq α] {items : List α} (nodup : items.Nodup) :
    items.map items.idxOf = List.range items.length := by
  apply List.ext_getElem
  · simp
  · intro index inside _
    simp [nodup.idxOf_getElem]

theorem Program.Counted.nodup_numbers (counted : program.Counted count) : program.numbers.Nodup :=
  counted.numbers.nodup_iff.2 List.nodup_range

/-- A program is renamed to the one that everything in it has been entered into. -/
theorem renamedTo_of_entered (sound : program.Sound Admits count) {state : ParseState}
    (held : Entered program program.renumbering program.entries state)
    (next : (program.entries.flatMap Entry.handles).map program.renumbering.decl =
      (List.range (program.entries.flatMap Entry.handles).length).map VarId.mk) :
    program.RenamedTo program.renumbering state.program := by
  have perm := program.entries_handles.trans sound.counted.handles
  have numbers := map_idxOf sound.counted.nodup_numbers
  have lists := held.lists
  refine ⟨?_, ?_, ?_, ?_, ?_, ?_, ?_, ?_, ?_⟩
  · apply (perm.map program.renumbering.decl).symm.trans
    rw [next, Program.validHandles, held.decls.size]
  · rw [lists.numbers_eq]
  · change (program.numbers.map program.numbers.idxOf).Nodup
    rw [numbers]
    exact List.nodup_range
  · intro id decl found
    have valid : id ∈ program.validHandles := Program.mem_validHandles.2 (by simp [found])
    exact held.decls.decl? next (perm.mem_iff.2 valid) found
  · rw [lists.globals, program.entries_globals]
  · rw [lists.records, program.entries_records]
  · rw [lists.functions, program.entries_functions]
  · have main := lists.main
    rw [program.entries_main, ← Option.toList_map, ← Option.toList_map] at main
    cases read : state.program.main <;> cases printed : program.main <;>
      simp_all
  · rw [lists.statements, program.entries_statements]

/-- A program that has been read can be printed and read again, and is then the same up to its spans
and to new handles and numbers. -/
theorem Program.ofSource_printed {decimal : Number.Binary64 → String} (faithful : Faithful decimal)
    {source file : String} {program : Program} (h : Program.ofSource source file = .ok program)
    (file' : String) :
    ∃ again ρ, Program.ofSource (program.printed decimal) file' = .ok again ∧
      program.RenamedTo ρ again := by
  have outcome := ofSource_outcome source file
  rw [h] at outcome
  obtain ⟨count, sound⟩ := outcome
  obtain ⟨tokens, last, scanned, words, ends⟩ :=
    (sound.spelled.legible faithful).scanFrom file' 0
  have start : ParseState.ofTokens (tokens ++ [last]) file' =
      { rest := tokens, closing := last, lastEnd := .ofByte file' 0 } := by
    simp [ParseState.ofTokens, ends]
  have perm := program.entries_handles.trans sound.counted.handles
  have nodup : (program.entries.flatMap Entry.handles).Nodup :=
    program.entries_handles.nodup_iff.2 sound.coherent.nodup_handles
  have next : (program.entries.flatMap Entry.handles).map program.renumbering.decl =
      (List.range (program.entries.flatMap Entry.handles).length).map VarId.mk := by
    rw [← map_idxOf nodup, List.map_map]
    rfl
  generalize same : ParseState.ofTokens (tokens ++ [last]) file' = state at start
  have due : Due program program.renumbering state (program.entries.flatMap Entry.handles) := by
    refine ⟨?_, ?_⟩
    · rw [next, start, List.range_eq_range']
      rfl
    · intro id held
      obtain ⟨decl, found⟩ := Option.isSome_iff_exists.1
        (Program.mem_validHandles.1 (perm.mem_iff.1 held))
      exact ⟨decl, found, sound.coherent.id_eq found,
        sound.spelled.decls decl (Array.mem_of_getElem? found)⟩
  have numbered : Numbered program.renumbering state (program.entries.flatMap Entry.numbers) := by
    rw [Numbered, program.entries_numbers, start, ← List.range_eq_range']
    exact map_idxOf sound.counted.nodup_numbers
  have fresh : state.program = .empty ∧ state.nextId = 0 ∧
      state.words = program.words decimal ∧ state.indent = stepWidth * 0 := by
    rw [start]
    exact ⟨rfl, rfl, words, rfl⟩
  have reads := program_reads faithful sound due numbered fresh.1 fresh.2.1 fresh.2.2.1 fresh.2.2.2
  have ready : state.Ready fun _ _ => True := by
    rw [start]
    exact ⟨ends, rfl, fun _ _ => trivial⟩
  have run := reads ready
  have whole : Program.ofSource (program.printed decimal) file' =
      (Parse.program.run.run state).1 := by
    have text : (program.printed decimal).toList = listText (program.words decimal) :=
      String.toList_ofList
    unfold Program.ofSource Token.scan
    rw [text, scanned, ← same]
    rfl
  unfold Action.Ensures at run
  rw [whole]
  generalize Parse.program.run.run state = outcome at run
  obtain ⟨result, after⟩ := outcome
  cases result with
  | error error => exact absurd run.2 id
  | ok again =>
      obtain ⟨_, rfl, held⟩ := run
      exact ⟨_, program.renumbering, rfl, renamedTo_of_entered sound held next⟩

/-- Some decimal that a number can be read from, if there is one. -/
noncomputable def someDecimal (value : Number.Binary64) : String :=
  Classical.epsilon fun text =>
    IsDecimal text.toList ∧ Number.Binary64.read? text.toList = some value

/-- A half is written with one digit behind the point, and any other number in some way. -/
noncomputable def decimalText (value : Number.Binary64) : String :=
  if value = ⟨0x3FE0000000000000⟩ then "0.5" else someDecimal value

theorem decimalText_faithful : Faithful decimalText := by
  intro text value digits read
  unfold decimalText
  split
  · next half =>
    rw [half]
    have digit : ∀ c ∈ ['5'], c.isDigit = true := List.forall_mem_singleton.2 (by decide)
    exact ⟨⟨'0', [], ['5'], by decide, by decide, List.forall_mem_nil _, digit⟩, by decide +kernel⟩
  · apply Classical.epsilon_spec (p := fun text : String =>
      IsDecimal text.toList ∧ Number.Binary64.read? text.toList = some value)
    exact ⟨String.ofList text, by simpa using ⟨digits, read⟩⟩

/-- A program with signs, members and branches at several columns is read back from its text. -/
theorem Program.ofSource_printed_branches : ∃ program again ρ,
    Program.ofSource ("hotpot Pot: Pan\n    size: float = -0.5\n    def up(by: float): float\n" ++
      "        return size + by\nif - -9223372036854775808 < 1:\n\tp: [Pot] = [Pot()]\n\n" ++
      "elif !true:\n    (p).up(by: 0.5)\nelse:\n    \"it's\"") "pots" = .ok program ∧
    Faithful decimalText ∧
    Program.ofSource (program.printed decimalText) "again" = .ok again ∧
    program.RenamedTo ρ again := by
  have reads : (Program.ofSource
      ("hotpot Pot: Pan\n    size: float = -0.5\n    def up(by: float): float\n" ++
      "        return size + by\nif - -9223372036854775808 < 1:\n\tp: [Pot] = [Pot()]\n\n" ++
      "elif !true:\n    (p).up(by: 0.5)\nelse:\n    \"it's\"") "pots").isOk = true := by
    decide +kernel
  obtain ⟨program, read⟩ := exists_ok_of_isOk reads
  obtain ⟨again, ρ, reread, renamed⟩ :=
    Program.ofSource_printed decimalText_faithful read "again"
  exact ⟨program, again, ρ, read, decimalText_faithful, reread, renamed⟩

end Results

end Offside
