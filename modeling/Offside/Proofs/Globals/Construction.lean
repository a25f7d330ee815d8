import Offside.Proofs.Comparing.Concatenation
import Offside.Proofs.Flow.Returning
import Offside.Proofs.Globals.Weakening
import Offside.Proofs.Printing.Programs
import Offside.Proofs.Registry

/-! # Record types can be named

The name of a record type denotes it when it is written as a type, unless it is the one name that
denotes the type of `null` without being kept free for it. So wherever whole lines declare a record
type, a line behind them may declare a variable of that type and construct its value.
-/

namespace Offside

open Parse ParseState Word

/-- A line that declares a variable with a name and gives it a new record as its first value. -/
def constructingLine (name record : String) : String :=
  name ++ ": " ++ record ++ " = " ++ record ++ "()\n"

/-- A call without arguments. -/
def Expr.construct (record : String) (inner outer : Span) : Expr :=
  .call ⟨record, inner⟩ [] outer

/-- The program that a constructing line spells, but for its spans. -/
def Program.constructing (name record : String) : Program :=
  Program.empty.addGlobal name (.record record) (some (.construct record default default)) default

section Reading

variable {name record : String}

/-- The name of a record type denotes it, unless it is `void`. -/
theorem DataType.ofName_eq_record (free : record ∉ DataType.builtinNames)
    (other : record ≠ "void") : DataType.ofName record = .record record := by
  simp only [builtinNames, List.mem_cons, List.not_mem_nil, or_false, not_or] at free
  obtain ⟨int, float, double, null, string, bool⟩ := free
  simp [ofName, int, float, double, null, string, bool, other]

/-- The line is the printed form of the program that it spells. -/
theorem Program.printed_constructing (decimal : Number.Binary64 → String) :
    (Program.constructing name record).printed decimal = constructingLine name record := by
  rw [← String.toList_inj]
  simp [printed, words, constructing, addGlobal, insertDecl, VarId.words, VarDecl.words, decl?,
    Program.empty, nextDecl, Expr.construct, Expr.words, DataType.words, DataType.text,
    Arg.listWords, separated, listText, Word.text, Word.name, mark, TokenKind.spelling,
    constructingLine]
  rfl

theorem Expr.eq_construct_of_bare {expr : Expr}
    (same : expr.bare = .construct record default default) :
    ∃ inner outer, expr = .construct record inner outer := by
  cases expr with
  | call callee args outer =>
      obtain ⟨text, inner⟩ := callee
      obtain ⟨rfl, rfl⟩ : text = record ∧ args = [] := by
        simpa [Expr.bare, Expr.construct, Name.bare, Arg.listBare_eq_map] using same
      exact ⟨inner, outer, rfl⟩
  | _ => simp [Expr.bare, Expr.construct] at same

theorem VarDecl.eq_of_renamed {decl : VarDecl} (same : decl.renamed .same =
      ⟨⟨0⟩, name, .record record, some (.construct record default default), default⟩) :
    ∃ inner outer span,
      decl = ⟨⟨0⟩, name, .record record, some (.construct record inner outer), span⟩ := by
  obtain ⟨id, name', type, init, span⟩ := decl
  obtain ⟨rfl, rfl, rfl, init', -⟩ := VarDecl.mk.inj same
  obtain ⟨expr, rfl, bare⟩ := Option.map_eq_some_iff.1 init'
  obtain ⟨inner, outer, rfl⟩ := Expr.eq_construct_of_bare bare
  exact ⟨inner, outer, span, rfl⟩

/-- Nothing but the variable is entered for the line. -/
theorem Program.eq_addGlobal_of_entered {after : ParseState}
    (held : Entered (constructing name record) .same (constructing name record).entries after) :
    ∃ inner outer span, after.program = Program.empty.addGlobal name (.record record)
      (some (.construct record inner outer)) span := by
  obtain ⟨decls, -, records, functions, main, globals, statements⟩ := held
  generalize after.program = program at decls records functions main globals statements
  obtain ⟨⟨decls'⟩, globals', records', functions', main', statements'⟩ := program
  obtain rfl : records' = [] := List.map_eq_nil_iff.1 records
  obtain rfl : functions' = [] := List.map_eq_nil_iff.1 functions
  obtain rfl : statements' = [] := List.map_eq_nil_iff.1 statements
  obtain rfl : main' = none := Option.toList_eq_nil_iff.1 (List.map_eq_nil_iff.1 main)
  obtain rfl : globals' = [⟨0⟩] := globals
  obtain ⟨decl, rfl, same⟩ := List.map_eq_singleton_iff.1 decls
  obtain ⟨inner, outer, span, rfl⟩ := VarDecl.eq_of_renamed (Option.some.inj same)
  exact ⟨inner, outer, span, rfl⟩

variable (word : TokenKind.Admits .identifier name) (word' : TokenKind.Admits .identifier record)
  (denotes : DataType.ofName record = .record record)

include word word' denotes

/-- The constructing line spells a program that can be read. -/
theorem Program.constructing_sound :
    (Program.constructing name record).Sound TokenKind.Admits 0 := by
  refine ⟨⟨?_, nofun, nofun, nofun, nofun⟩, ⟨?_, ?_, .nil, nofun, nofun⟩, ⟨?_, ?_, ?_⟩⟩
  · intro decl listed
    obtain rfl : decl = _ := by
      simpa [constructing, addGlobal, insertDecl, Program.empty] using listed
    refine ⟨word, ⟨.identifier, record, 0, .inl rfl, word', denotes.symm⟩, ?_⟩
    rintro init ⟨⟩
    exact .call word' (List.forall_mem_nil _) (List.forall_mem_nil _)
  · exact List.nodup_singleton name
  · exact (by decide : DataType.builtinNames.Nodup)
  · exact rfl
  · exact .refl _
  · exact .refl _

/-- The constructing line is read as the program that it spells. -/
theorem Program.ofSource_constructing (file : String) :
    ∃ inner outer span, Program.ofSource (constructingLine name record) file =
      .ok (Program.empty.addGlobal name (.record record) (some (.construct record inner outer))
        span) := by
  have sound := constructing_sound word word' denotes
  obtain ⟨tokens, last, scanned, words, ends⟩ :=
    (sound.spelled.legible decimalText_faithful).scanFrom file 0
  have text : (constructingLine name record).toList =
      listText ((Program.constructing name record).words decimalText) := by
    rw [← printed_constructing decimalText]
    exact String.toList_ofList
  have start : ParseState.ofTokens (tokens ++ [last]) file =
      { rest := tokens, closing := last, lastEnd := .ofByte file 0 } := by
    simp [ParseState.ofTokens, ends]
  have whole : Program.ofSource (constructingLine name record) file =
      (Parse.program.run.run (ParseState.ofTokens (tokens ++ [last]) file)).1 := by
    unfold Program.ofSource Token.scan
    rw [text, scanned]
    rfl
  rw [start] at whole
  have ready : ({ rest := tokens, closing := last, lastEnd := .ofByte file 0 } : ParseState).Ready
      fun _ _ => True := ⟨ends, rfl, fun _ _ => trivial⟩
  have due : Due (constructing name record) .same
      { rest := tokens, closing := last, lastEnd := .ofByte file 0 } [⟨0⟩] := by
    refine ⟨rfl, List.forall_mem_singleton.2 ⟨_, rfl, rfl, ?_⟩⟩
    exact sound.spelled.decls _ (by simp [constructing, addGlobal, insertDecl])
  have run := program_reads decimalText_faithful sound due rfl rfl rfl words rfl ready
  unfold Action.Ensures at run
  rw [whole]
  generalize Parse.program.run.run _ = outcome at run
  obtain ⟨result, after⟩ := outcome
  cases result with
  | error error => exact absurd run.2 id
  | ok again =>
      obtain ⟨_, rfl, held⟩ := run
      obtain ⟨inner, outer, span, same⟩ := eq_addGlobal_of_entered held
      exact ⟨inner, outer, span, congrArg Except.ok same⟩

end Reading

section Sources

variable {source file name record : String} {program : Program}

/-- The names in a text that can be split into tokens. -/
def namesIn (source file : String) : List String :=
  ((Token.scan source file).toOption.getD []).filterMap fun token =>
    if token.kind = .identifier then some token.value else none

/-- A variable that is not named in a text is not declared in it. -/
theorem Program.not_mem_labels (read : Program.ofSource source file = .ok program)
    (fresh : name ∉ namesIn source file) : .global name ∉ program.labels := by
  obtain ⟨tokens, scanned, spelled⟩ := exists_tokens_of_ofSource read
  have other : ∀ token ∈ tokens, token.kind = .identifier → token.value ≠ name := by
    rintro token listed kind rfl
    refine fresh (List.mem_filterMap.2 ⟨token, ?_, if_pos kind⟩)
    rw [scanned]
    exact listed
  have outcome := @ofTokens_outcome (fun kind value => kind = .identifier → value ≠ name) tokens
    file other
  rw [spelled] at outcome
  obtain ⟨count, sound⟩ := outcome
  intro declared
  obtain ⟨decl, listed, same⟩ : ∃ decl ∈ program.globals.filterMap program.decl?,
      decl.name = name := by
    simpa [labels, globalNames] using declared
  obtain ⟨id, -, found⟩ := List.mem_filterMap.1 listed
  exact (sound.spelled.decls decl (Array.mem_of_getElem? found)).name rfl same

/-- Behind a program, a program of one variable adds the variable. -/
theorem Program.append_moved_addGlobal {type : DataType} {init : Option Expr} {span : Span}
    {move : Relocation} (next : move.decl ⟨0⟩ = program.nextDecl) :
    program.append ((Program.empty.addGlobal name type init span).moved move) =
      program.addGlobal name type (init.map (Expr.moved move)) (span.moved move) := by
  rw [nextDecl] at next
  simp [append, Program.moved, addGlobal, insertDecl, VarDecl.moved, nextDecl, next, Program.empty]

/-- Behind whole lines the constructing line adds a variable to the program. -/
theorem Program.ofSource_append_constructing (read : Program.ofSource source file = .ok program)
    (ends : source.toList.getLast? = some '\n') (word : TokenKind.Admits .identifier name)
    (word' : TokenKind.Admits .identifier record) (denotes : DataType.ofName record = .record record)
    (fresh : name ∉ namesIn source file) :
    ∃ inner outer span, Program.ofSource (source ++ constructingLine name record) file =
      .ok (program.addGlobal name (.record record) (some (.construct record inner outer)) span) := by
  obtain ⟨inner, outer, span, read'⟩ := ofSource_constructing word word' denotes file
  obtain ⟨tokens, scanned, spelled⟩ := exists_tokens_of_ofSource read
  obtain ⟨tokens', scanned', spelled'⟩ := exists_tokens_of_ofSource read'
  obtain ⟨lines, rfl, -, last, goesOn⟩ :=
    @scanFrom_append file 0 0 (constructingLine name record).toList source.toList tokens (.inr ends)
      (Nat.zero_le _) scanned
  obtain ⟨_, same, inside⟩ := scanFrom_closed scanned
  obtain rfl := (List.append_inj' same rfl).1
  obtain ⟨lines', rfl, inside'⟩ := scanFrom_closed scanned'
  have whole : WholeLines lines := by
    have long : 0 < source.toList.length := List.length_pos_of_mem (List.mem_of_getLast? ends)
    obtain ⟨token, found, newline⟩ := last long
    intro other found'
    rw [Option.mem_def.1 found] at found'
    cases found'
    exact newline
  have moved := scanFrom_moved (byteLength source.toList) program.decls.size
    program.numbers.length scanned'
  rw [Nat.zero_add] at moved goesOn
  have together := goesOn _ moved
  rw [← String.toList_append] at together
  have apart : List.Disjoint program.labels (Program.empty.addGlobal name (.record record)
      (some (.construct record inner outer)) span).labels :=
    List.disjoint_singleton.2 (not_mem_labels read fresh)
  have joined := (ofTokens_append (byteLength source.toList) whole inside inside' rfl rfl spelled
    spelled').1 apart
  rw [append_moved_addGlobal rfl] at joined
  rw [ofSource_of_scan together]
  exact ⟨_, _, _, joined⟩

/-- A global variable of a new name is found under it. -/
theorem Program.global?_addGlobal {type : DataType} {init : Option Expr} {span : Span}
    (coherent : program.Coherent) (free : .global name ∉ program.labels) :
    (program.addGlobal name type init span).global? name =
      some ⟨program.nextDecl, name, type, init, span⟩ := by
  have declared : program.DeclaresGlobals := by
    intro id global
    apply coherent.mem_handles.1
    simp [handles, global]
  have unused : name ∉ (program.insertDecl name type init span).globalNames := by
    rw [← global?_isSome, global?_insertDecl declared, ← global_mem_labels]
    exact free
  have found : (program.insertDecl name type init span).decl? program.nextDecl =
    some ⟨program.nextDecl, name, type, init, span⟩ := decl?_addGlobal_nextDecl
  exact (global?_insertGlobal found unused name).trans (if_pos rfl)

/-- Behind whole lines that pass the check, the line that constructs a record of theirs does too, and
its variable has the record type. -/
theorem Program.checkSource_append_constructing {lookup : LocalLookup} {annotations : Annotations}
    (checked : Program.checkSource source file lookup = .ok (program, annotations))
    (ends : source.toList.getLast? = some '\n') (word : TokenKind.Admits .identifier name)
    (word' : TokenKind.Admits .identifier record) (denotes : DataType.ofName record = .record record)
    (known : (program.record? record).isSome) (fresh : name ∉ namesIn source file) :
    ∃ wider annotations' decl,
      Program.checkSource (source ++ constructingLine name record) file lookup =
        .ok (wider, annotations') ∧
      wider.global? name = some decl ∧ decl.type = .record record := by
  have read := (of_checkSource checked).1
  have coherent := coherent_of_ofSource read
  obtain ⟨inner, outer, span, read'⟩ :=
    ofSource_append_constructing read ends word word' denotes fresh
  have typed : (program.addGlobal name (.record record) (some (.construct record inner outer))
      span).WellTyped lookup := by
    refine (wellTyped_of_checkSource checked).addGlobal coherent ⟨known, ?_⟩
    rintro _ ⟨⟩
    exact ⟨_, .construct .nil known, by simp [DataType.agrees]⟩
  obtain ⟨-, annotations', passed, -⟩ | ⟨untyped, -⟩ :=
    check_cases (coherent_of_ofSource read') lookup
  · have accepted := @checkSource_of_ofSource _ _ lookup _ read'
    rw [passed] at accepted
    exact ⟨_, annotations', _, accepted, global?_addGlobal coherent (not_mem_labels read fresh), rfl⟩
  · exact absurd typed untyped

/-- The name of a record type that a text declares denotes it, unless it is `void`. Then behind whole
lines that pass the check, a line that declares a variable of that type under a new name and
constructs its value does too. -/
theorem Program.record_named (read : Program.ofSource source file = .ok program)
    {declared : RecordDecl} (listed : declared ∈ program.records) :
    (DataType.ofName declared.name = .record declared.name ↔ declared.name ≠ "void") ∧
    (declared.name ≠ "void" → source.toList.getLast? = some '\n' →
      ∀ lookup annotations,
        Program.checkSource source file lookup = .ok (program, annotations) →
      ∀ name, TokenKind.Admits .identifier name → name ∉ namesIn source file →
        ∃ wider annotations' decl,
          Program.checkSource (source ++ constructingLine name declared.name) file lookup =
            .ok (wider, annotations') ∧
          wider.global? name = some decl ∧ decl.type = .record declared.name) := by
  obtain ⟨count, sound⟩ := sound_of_ofSource read
  have free : declared.name ∉ DataType.builtinNames := by
    intro builtin
    have apart := (List.nodup_append'.1 sound.distinct.records).2.2
    exact apart builtin (List.mem_map_of_mem listed)
  have known : (program.record? declared.name).isSome := by
    simp only [record?, List.find?_isSome, beq_iff_eq]
    exact ⟨declared, listed, rfl⟩
  have denotes := fun other => DataType.ofName_eq_record free other
  refine ⟨⟨fun same void => ?_, denotes⟩, ?_⟩
  · rw [void] at same
    cases same
  · intro other ends lookup annotations checked name word fresh
    exact checkSource_append_constructing checked ends word
      (sound.spelled.records declared listed).name (denotes other) known fresh

/-- A record type whose name is nearly that of the exception. -/
def emptyText : String :=
  "hotpot Void:\n    size: int = 1\n"

/-- The name of the record type denotes it, and a variable of that type can be declared behind it. -/
theorem Program.record_named_empty : ∃ program annotations declared wider annotations' decl,
    Program.ofSource emptyText "pots.hp" = .ok program ∧ declared ∈ program.records ∧
      declared.name = "Void" ∧ DataType.ofName declared.name = .record declared.name ∧
      emptyText.toList.getLast? = some '\n' ∧
      Program.checkSource emptyText "pots.hp" .lastInBody = .ok (program, annotations) ∧
      TokenKind.Admits .identifier "x" ∧ "x" ∉ namesIn emptyText "pots.hp" ∧
      Program.checkSource (emptyText ++ constructingLine "x" declared.name) "pots.hp" .lastInBody =
        .ok (wider, annotations') ∧
      wider.global? "x" = some decl ∧ decl.type = .record declared.name := by
  have passes : (Program.checkSource emptyText "pots.hp" .lastInBody).toOption.map
      (fun result => result.1.records.map RecordDecl.name) = some ["Void"] := by
    decide +kernel
  obtain ⟨⟨program, annotations⟩, checked, names⟩ := exists_ok_of_map_toOption passes
  obtain ⟨declared, listed, named⟩ : ∃ declared ∈ program.records, declared.name = "Void" :=
    List.mem_map.1 (by rw [names]; exact List.mem_singleton_self _)
  have read := (of_checkSource checked).1
  have other : declared.name ≠ "void" := by
    rw [named]
    decide
  have ends : emptyText.toList.getLast? = some '\n' := by decide +kernel
  have word : TokenKind.Admits .identifier "x" :=
    ⟨⟨'x', [], rfl, by decide, List.forall_mem_nil _⟩, by decide⟩
  have fresh : "x" ∉ namesIn emptyText "pots.hp" := by decide +kernel
  obtain ⟨denotes, accepts⟩ := Program.record_named read listed
  obtain ⟨wider, annotations', decl, accepted, found, type⟩ :=
    accepts other ends .lastInBody annotations checked "x" word fresh
  exact ⟨program, annotations, declared, wider, annotations', decl, read, listed, named,
    denotes.2 other, ends, checked, word, fresh, accepted, found, type⟩

/-- A text that declares a record type with the name of the exception. -/
def voidText : String :=
  "hotpot void\n"

/-- A record type can have the name of the exception. Then the name denotes another type, and a
variable of that type cannot be given a record. -/
theorem Program.void_not_named : ∃ program, Program.ofSource voidText "pots.hp" = .ok program ∧
    program.records.map RecordDecl.name = ["void"] ∧ DataType.ofName "void" = .null ∧
    voidText.toList.getLast? = some '\n' ∧ TokenKind.Admits .identifier "x" ∧
    "x" ∉ namesIn voidText "pots.hp" ∧
    ∀ lookup, (Program.checkSource voidText "pots.hp" lookup).isOk = true ∧
      ∃ error, Program.checkSource (voidText ++ constructingLine "x" "void") "pots.hp" lookup =
        .error error ∧ error.cause.name = "CannotConvertValue" := by
  have reads : (Program.ofSource voidText "pots.hp").toOption.map
      (fun program => program.records.map RecordDecl.name) = some ["void"] := by
    decide +kernel
  obtain ⟨program, read, names⟩ := exists_ok_of_map_toOption reads
  refine ⟨program, read, names, rfl, by decide +kernel,
    ⟨⟨'x', [], rfl, by decide, List.forall_mem_nil _⟩, by decide⟩, by decide +kernel, ?_⟩
  intro lookup
  have passes : (Program.checkSource voidText "pots.hp" lookup).isOk = true := by
    cases lookup <;> decide +kernel
  have stops : (match Program.checkSource (voidText ++ constructingLine "x" "void") "pots.hp"
      lookup with
      | .ok _ => none
      | .error error => some error.cause.name) = some "CannotConvertValue" := by
    cases lookup <;> decide +kernel
  refine ⟨passes, ?_⟩
  cases failed : Program.checkSource (voidText ++ constructingLine "x" "void") "pots.hp" lookup with
  | ok =>
      rw [failed] at stops
      cases stops
  | error error =>
      rw [failed] at stops
      exact ⟨error, rfl, Option.some.inj stops⟩

end Sources

end Offside
