import Offside.Proofs.Printing.Records
import Offside.Proofs.Reading.Entries

/-! # What is entered into a program

A line of the outermost block enters one thing into the program. The program that is printed is
entered again line by line, in the order in which it is printed, and no name is found to be taken
since none was.
-/

namespace Offside

open Parse ParseState Word TokenKind

namespace Entry

/-- The record type that is entered. -/
def record? : Entry → Option RecordDecl
  | .record added => some added
  | _ => none

/-- The function that is entered, if it is not the entry point. -/
def function? : Entry → Option Function
  | .function added => some added
  | _ => none

/-- The entry point that is entered. -/
def main? : Entry → Option Function
  | .main added => some added
  | _ => none

/-- The global variable that is entered. -/
def global? : Entry → Option VarId
  | .global id => some id
  | _ => none

/-- The free statement that is entered. -/
def statement? : Entry → Option Stmt
  | .statement stmt => some stmt
  | _ => none

/-- The words of what is entered, from behind its margin on. -/
def words (decimal : Number.Binary64 → String) (program : Program) : Entry → List Word
  | .record added => added.words decimal program
  | .function added | .main added => added.words decimal program 0
  | .global id => id.words decimal program ++ [mark newline]
  | .statement stmt => stmt.words decimal program 0

/-- What is entered without its spans, renamed. -/
def renamed (ρ : Renaming) : Entry → Entry
  | .record added => .record (added.renamed ρ)
  | .function added => .function (added.renamed ρ)
  | .main added => .main (added.renamed ρ)
  | .global id => .global (ρ.decl id)
  | .statement stmt => .statement (stmt.renamed ρ)

theorem global_mem_handles {entry : Entry} {id : VarId} (h : entry.global? = some id) :
    id ∈ entry.handles := by
  cases entry with
  | global id' =>
      cases h
      exact List.mem_singleton_self id
  | _ => cases h

end Entry

namespace Program

variable (program : Program)

/-- What has been entered into a program, in the order in which it is printed. -/
def entries : List Entry :=
  program.records.map .record ++ program.functions.map .function ++
    program.main.toList.map .main ++ program.globals.map .global ++
    program.statements.map .statement

theorem entries_records : program.entries.filterMap Entry.record? = program.records := by
  simp [entries, List.filterMap_map, Function.comp_def, Entry.record?]

theorem entries_functions : program.entries.filterMap Entry.function? = program.functions := by
  simp [entries, List.filterMap_map, Function.comp_def, Entry.function?]

theorem entries_main : program.entries.filterMap Entry.main? = program.main.toList := by
  simp [entries, List.filterMap_map, Function.comp_def, Entry.main?]

theorem entries_globals : program.entries.filterMap Entry.global? = program.globals := by
  simp [entries, List.filterMap_map, Function.comp_def, Entry.global?]

theorem entries_statements : program.entries.filterMap Entry.statement? = program.statements := by
  simp [entries, List.filterMap_map, Function.comp_def, Entry.statement?]

theorem entries_numbers : program.entries.flatMap Entry.numbers = program.numbers := by
  have globals : program.globals.flatMap (fun _ => ([] : List Nat)) = [] := by simp
  have statements : program.statements.flatMap (fun _ => ([] : List Nat)) = [] := by simp
  simp only [entries, List.flatMap_append, List.flatMap_map, Entry.numbers, numbers, globals,
    statements, List.append_nil, ← List.map_eq_flatMap]

/-- The handles in a program are those in what has been entered, in another order. -/
theorem entries_handles : (program.entries.flatMap Entry.handles).Perm program.handles := by
  have listed : program.entries.flatMap Entry.handles =
      program.records.flatMap RecordDecl.handles ++
        program.functions.flatMap Function.handles ++
        program.main.toList.flatMap Function.handles ++ program.globals ++
        program.statements.flatMap Stmt.handles := by
    simp only [entries, List.flatMap_append, List.flatMap_map, Entry.handles,
      List.flatMap_singleton']
  rw [listed, handles, Stmt.listHandles_eq_flatMap]
  apply perm_of_count
  intro id
  simp only [List.count_append]
  omega

theorem entries_words (decimal : Number.Binary64 → String) :
    program.words decimal = program.entries.flatMap fun entry =>
      margin 0 ++ entry.words decimal program := by
  simp [words, entries, List.flatMap_map, Entry.words, margin]

end Program

/-- Some declarations are those with certain handles. -/
def Restored (program : Program) (ρ : Renaming) (handles : List VarId) (decls : Array VarDecl) :
    Prop :=
  decls.toList.map (fun decl => some (decl.renamed .same)) =
    handles.map fun id => (program.decl? id).map (VarDecl.renamed ρ)

/-- What a program lists is what has been entered into it. -/
structure Lists (ρ : Renaming) (entries : List Entry) (program : Program) : Prop where
  records : program.records.map (RecordDecl.renamed .same) =
    (entries.filterMap Entry.record?).map (RecordDecl.renamed ρ)
  functions : program.functions.map (Function.renamed .same) =
    (entries.filterMap Entry.function?).map (Function.renamed ρ)
  main : program.main.toList.map (Function.renamed .same) =
    (entries.filterMap Entry.main?).map (Function.renamed ρ)
  globals : program.globals = (entries.filterMap Entry.global?).map ρ.decl
  statements : program.statements.map (Stmt.renamed .same) =
    (entries.filterMap Entry.statement?).map (Stmt.renamed ρ)

/-- The program read so far is the one that certain things have been entered into. -/
structure Entered (program : Program) (ρ : Renaming) (entries : List Entry) (state : ParseState) :
    Prop where
  decls : Restored program ρ (entries.flatMap Entry.handles) state.program.decls
  nextId : state.nextId = (entries.flatMap Entry.numbers).length
  lists : Lists ρ entries state.program

section Entering

variable {program : Program} {ρ : Renaming} {state mid after : ParseState}
  {handles handles' : List VarId} {decls : Array VarDecl} {entries : List Entry}

namespace Restored

theorem size (h : Restored program ρ handles decls) : decls.size = handles.length := by
  have length := congrArg List.length h
  simpa using length

/-- Declarations that are added again are there. -/
theorem add (h : Restored program ρ handles state.program.decls) {count : Nat}
    (done : Redeclares program ρ state handles' count mid) :
    Restored program ρ (handles ++ handles') mid.program.decls := by
  obtain ⟨⟨new, grown, same⟩, -⟩ := done
  rw [Restored] at h ⊢
  rw [grown, List.map_append, ← h, ← same]
  simp

/-- A declaration is found under its new handle, as handles are handed out from the first one on. -/
theorem decl? (h : Restored program ρ handles decls)
    (next : handles.map ρ.decl = (List.range handles.length).map VarId.mk) {id : VarId}
    {decl : VarDecl} (held : id ∈ handles) (found : program.decl? id = some decl) :
    ∃ decl', decls[(ρ.decl id).index]? = some decl' ∧ decl'.renamed .same = decl.renamed ρ := by
  obtain ⟨index, inside, rfl⟩ := List.mem_iff_getElem.1 held
  have handle : ρ.decl handles[index] = ⟨index⟩ := by
    have there := congrArg (fun ids => ids[index]?) next
    simpa [inside] using there
  have there := congrArg (fun items => items[index]?) h
  simp only [List.getElem?_map, List.getElem?_eq_getElem inside, Option.map_some, found] at there
  rw [Array.getElem?_toList] at there
  obtain ⟨decl', found', same⟩ := Option.map_eq_some_iff.1 there
  exact ⟨decl', by rw [handle]; exact found', Option.some.inj same⟩

end Restored

/-- What is entered is listed behind what has been. -/
theorem Lists.enter (listed : Lists ρ entries program) {entry entry' : Entry}
    (same : entry'.renamed .same = entry.renamed ρ)
    (first : ∀ function, entry = .main function → entries.filterMap Entry.main? = []) :
    Lists ρ (entries ++ [entry]) (entry'.enter program) := by
  obtain ⟨records, functions, main, globals, statements⟩ := listed
  cases entry with
  | record added =>
      cases entry' with
      | record added' =>
          simp only [Entry.renamed, Entry.record.injEq] at same
          constructor <;> simp [Entry.enter, Entry.record?, Entry.function?, Entry.main?,
            Entry.global?, Entry.statement?, *]
      | _ => cases same
  | function added =>
      cases entry' with
      | function added' =>
          simp only [Entry.renamed, Entry.function.injEq] at same
          constructor <;> simp [Entry.enter, Entry.record?, Entry.function?, Entry.main?,
            Entry.global?, Entry.statement?, *]
      | _ => cases same
  | main added =>
      cases entry' with
      | main added' =>
          simp only [Entry.renamed, Entry.main.injEq] at same
          have first := first added rfl
          constructor <;> simp [Entry.enter, Entry.record?, Entry.function?, Entry.main?,
            Entry.global?, Entry.statement?, *]
      | _ => cases same
  | global id =>
      cases entry' with
      | global id' =>
          simp only [Entry.renamed, Entry.global.injEq] at same
          have same : id' = ρ.decl id := same
          constructor <;> simp [Entry.enter, Entry.record?, Entry.function?, Entry.main?,
            Entry.global?, Entry.statement?, *]
      | _ => cases same
  | statement stmt =>
      cases entry' with
      | statement stmt' =>
          simp only [Entry.renamed, Entry.statement.injEq] at same
          constructor <;> simp [Entry.enter, Entry.record?, Entry.function?, Entry.main?,
            Entry.global?, Entry.statement?, *]
      | _ => cases same

/-- What is listed stays listed while declarations are added. -/
theorem Lists.redeclares (listed : Lists ρ entries state.program) {count : Nat}
    (done : Redeclares program ρ state handles count mid) : Lists ρ entries mid.program := by
  obtain ⟨⟨new, grown, -⟩, -⟩ := done
  rw [grown]
  exact ⟨listed.records, listed.functions, listed.main, listed.globals, listed.statements⟩

theorem Entered.empty (fresh : state.program = .empty) (none : state.nextId = 0) :
    Entered program ρ [] state := by
  refine ⟨?_, none, ?_⟩
  · rw [fresh]
    rfl
  · rw [fresh]
    exact ⟨rfl, rfl, rfl, rfl, rfl⟩

theorem Entered.passes (held : Entered program ρ entries state) (h : state.Passes after) :
    Entered program ρ entries after := by
  refine ⟨?_, h.nextId.trans held.nextId, ?_⟩
  · rw [h.program]
    exact held.decls
  · rw [h.program]
    exact held.lists

/-- What a line enters is entered again. -/
theorem Entered.add (held : Entered program ρ entries state) {entry entry' : Entry}
    (done : Redeclares program ρ state entry.handles entry.numbers.length mid)
    (same : entry'.renamed .same = entry.renamed ρ)
    (first : ∀ function, entry = .main function → entries.filterMap Entry.main? = []) :
    Entered program ρ (entries ++ [entry]) { mid with program := entry'.enter mid.program } := by
  have decls := held.decls.add done
  rw [← List.flatMap_singleton Entry.handles entry, ← List.flatMap_append] at decls
  refine ⟨?_, ?_, (held.lists.redeclares done).enter same first⟩
  · cases entry' <;> exact decls
  · rw [done.nextId, held.nextId]
    simp

end Entering

section Numbers

variable {program other : Program} {ρ : Renaming}

theorem RecordDecl.numbers_renamed (record : RecordDecl) :
    (record.renamed ρ).numbers = record.numbers.map ρ.number := by
  simp [numbers, renamed, Function.renamed]

/-- The numbers in what is listed are the new ones. -/
theorem Lists.numbers_eq (listed : Lists ρ program.entries other) :
    other.numbers = program.numbers.map ρ.number := by
  have records := congrArg (List.flatMap RecordDecl.numbers) listed.records
  have functions := congrArg (List.map fun function => function.id.number) listed.functions
  have main := congrArg (List.map fun function => function.id.number) listed.main
  simp only [List.flatMap_map, RecordDecl.numbers_renamed, ← List.map_flatMap, List.map_map,
    Function.comp_def, Function.renamed, Renaming.same, id_eq, List.map_id,
    program.entries_records, program.entries_functions, program.entries_main]
    at records functions main
  simp only [Program.numbers, records, functions, main, List.map_append, List.map_map,
    Function.comp_def]

end Numbers

section Names

variable {program mid : Program} {ρ : Renaming} {front back : List Entry}

theorem not_mem_of_nodup {names front : List String} {name : String} (h : names.Nodup)
    (back : List String) (all : names = front ++ name :: back) : name ∉ front := by
  intro listed
  rw [all] at h
  exact (List.nodup_append'.1 h).2.2 listed List.mem_cons_self

/-- No record type that has been entered before has the name of one that is. -/
theorem insertRecord_eq (distinct : program.Distinct) {record record' : RecordDecl}
    (all : program.entries = front ++ .record record :: back) (lists : Lists ρ front mid)
    (same : record'.renamed .same = record.renamed ρ) :
    mid.insertRecord record' = .ok ((Entry.record record').enter mid) := by
  have name : record'.name = record.name := by
    simpa using congrArg RecordDecl.name same
  have names : mid.records.map RecordDecl.name =
      (front.filterMap Entry.record?).map RecordDecl.name := by
    simpa [Function.comp_def] using congrArg (List.map RecordDecl.name) lists.records
  have free : record.name ∉ mid.takenNames := by
    apply not_mem_of_nodup distinct.records ((back.filterMap Entry.record?).map RecordDecl.name)
    rw [← program.entries_records, all, Program.takenNames, names]
    simp [Entry.record?]
  rw [Program.insertRecord, name, if_neg (by simpa using free)]
  rfl

theorem insertFunction_eq (distinct : program.Distinct) {function function' : Function}
    (all : program.entries = front ++ .function function :: back) (lists : Lists ρ front mid)
    (same : function'.renamed .same = function.renamed ρ) :
    mid.insertFunction function' = .ok ((Entry.function function').enter mid) := by
  have name : function'.name = function.name := by
    simpa using congrArg Function.name same
  have names : mid.functions.map Function.name =
      (front.filterMap Entry.function?).map Function.name := by
    simpa [Function.comp_def] using congrArg (List.map Function.name) lists.functions
  have listed : program.functions =
      front.filterMap Entry.function? ++ function :: back.filterMap Entry.function? := by
    rw [← program.entries_functions, all]
    simp [Entry.function?]
  have other : function.name ≠ Program.mainName := distinct.others function (by simp [listed])
  have free : function.name ∉ mid.functions.map Function.name := by
    rw [names]
    apply not_mem_of_nodup distinct.functions
      ((back.filterMap Entry.function?).map Function.name)
    rw [listed, List.map_append, List.map_cons]
  have unknown : (mid.function? function.name).isSome = false := by
    rw [Option.isSome_eq_false_iff, Option.isNone_iff_eq_none, Program.function?,
      List.find?_eq_none]
    intro earlier member taken
    exact free (List.mem_map.2 ⟨earlier, member, by simpa using taken⟩)
  rw [Program.insertFunction, name, if_neg other, unknown, if_neg (by simp)]
  rfl

/-- No entry point has been entered before the entry point is. -/
theorem front_main_eq_nil {function : Function}
    (all : program.entries = front ++ .main function :: back) :
    front.filterMap Entry.main? = [] := by
  have length := congrArg List.length program.entries_main
  rw [all, List.filterMap_append] at length
  simp only [List.filterMap_cons, Entry.main?, List.length_append, List.length_cons,
    Option.length_toList] at length
  apply List.eq_nil_of_length_eq_zero
  split at length <;> omega

theorem insertMain_eq (distinct : program.Distinct) {function function' : Function}
    (all : program.entries = front ++ .main function :: back) (lists : Lists ρ front mid)
    (same : function'.renamed .same = function.renamed ρ) :
    mid.insertFunction function' = .ok ((Entry.main function').enter mid) := by
  have name : function'.name = function.name := by
    simpa using congrArg Function.name same
  have listed : function ∈ program.main.toList := by
    rw [← program.entries_main, all]
    simp [Entry.main?]
  have main : function.name = Program.mainName := distinct.main function (by simpa using listed)
  have none : mid.main = none := by
    have empty := lists.main
    rw [front_main_eq_nil all] at empty
    simpa using empty
  rw [Program.insertFunction, name, if_pos main, none, if_neg (by simp)]
  rfl

/-- No global variable that has been entered before has the name of one that is. -/
theorem insertGlobal_eq (distinct : program.Distinct) {id : VarId} {handles : List VarId}
    (all : program.entries = front ++ .global id :: back) (lists : Lists ρ front mid)
    (restored : Restored program ρ handles mid.decls)
    (next : handles.map ρ.decl = (List.range handles.length).map VarId.mk)
    (held : ∀ id' ∈ front.filterMap Entry.global? ++ [id], id' ∈ handles)
    (valid : ∀ id' ∈ handles, ∃ decl, program.decl? id' = some decl) :
    mid.insertGlobal (ρ.decl id) = .ok ((Entry.global (ρ.decl id)).enter mid) := by
  obtain ⟨decl, found⟩ := valid id (held id (by simp))
  obtain ⟨decl', found', same⟩ := restored.decl? next (held id (by simp)) found
  have name : decl'.name = decl.name := by simpa using congrArg VarDecl.name same
  have listed : program.globals =
      front.filterMap Entry.global? ++ id :: back.filterMap Entry.global? := by
    rw [← program.entries_globals, all]
    simp [Entry.global?]
  have free : decl.name ∉
      ((front.filterMap Entry.global?).filterMap program.decl?).map VarDecl.name := by
    apply not_mem_of_nodup distinct.globals
      (((back.filterMap Entry.global?).filterMap program.decl?).map VarDecl.name)
    rw [listed, List.filterMap_append, List.filterMap_cons, found, List.map_append, List.map_cons]
  have unknown : (mid.global? decl'.name).isSome = false := by
    rw [Option.isSome_eq_false_iff, Option.isNone_iff_eq_none, Program.global?,
      List.find?_eq_none]
    intro earlier member taken
    rw [lists.globals, List.filterMap_map, List.mem_filterMap] at member
    obtain ⟨id', before, there⟩ := member
    have within := held id' (List.mem_append_left _ before)
    obtain ⟨old, foundOld⟩ := valid id' within
    obtain ⟨old', foundOld', sameOld⟩ := restored.decl? next within foundOld
    have here : earlier = old' := Option.some.inj (there.symm.trans foundOld')
    have nameOld : old'.name = old.name := by simpa using congrArg VarDecl.name sameOld
    apply free
    refine List.mem_map.2 ⟨old, List.mem_filterMap.2 ⟨id', before, foundOld⟩, ?_⟩
    rw [← nameOld, ← name, ← here]
    simpa using taken
  have declared : mid.decl (ρ.decl id) = .ok decl' := by
    rw [Program.decl, show mid.decl? (ρ.decl id) = some decl' from found']
  rw [Program.insertGlobal, declared]
  simp only [unknown, Bool.false_eq_true, if_false]
  rfl

end Names

end Offside
