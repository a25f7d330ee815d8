import Offside.Proofs.Agreeing.Lookups
import Offside.Proofs.Ordering.Lookups
import Mathlib.Data.List.Find

/-! # A further global variable

Global variables are looked for last. So what a name refers to stays the same when a program gets
another global variable, and whatever was well typed still is.
-/

namespace Offside

/-- A program with one more global variable behind all others. -/
def Program.addGlobal (program : Program) (name : String) (type : DataType) (init : Option Expr)
    (span : Span) : Program :=
  { program.insertDecl name type init span with globals := program.globals ++ [program.nextDecl] }

/-- Another program lists the same record types and functions, and has all the declarations of a
program under the handles and, if they are global, under the names that they have there. -/
structure Program.WidensTo (program wider : Program) : Prop where
  decl? : ∀ id, (program.decl? id).isSome → wider.decl? id = program.decl? id
  global? : ∀ name decl, program.global? name = some decl → wider.global? name = some decl
  records : wider.records = program.records
  functions : wider.functions = program.functions
  main : wider.main = program.main

/-- The variables that are declared around a place are variables of the program. -/
structure Place.Valid (program : Program) (place : Place) : Prop where
  record : place.Declared program
  function : ∀ function, place.function = some function →
    ∀ id ∈ function.handles, (program.decl? id).isSome
  enclosures : ∀ enclosure ∈ place.enclosures, ∀ id ∈ enclosure.declared,
    (program.decl? id).isSome

section Candidates

variable {α : Type} {sorts : List (α → Prop)} {last last' : α → Prop} {items : List α} {item : α}
  {condition other : α → Bool}

theorem isFirst_congr (agree : ∀ item ∈ items, condition item = other item) :
    IsFirst condition items item ↔ IsFirst other items item := by
  rw [← find?_eq_some_iff_isFirst, ← find?_eq_some_iff_isFirst, List.find?_congr agree]

theorem isLast_congr (agree : ∀ item ∈ items, condition item = other item) :
    IsLast condition items item ↔ IsLast other items item := by
  rw [← find?_reverse_eq_some_iff_isLast, ← find?_reverse_eq_some_iff_isLast,
    List.find?_congr fun item listed => agree item (List.mem_reverse.1 listed)]

/-- Further candidates of the last sort do not change what has been chosen. -/
theorem IsChosen.widen (more : ∀ item, last item → last' item)
    (chosen : IsChosen (sorts ++ [last]) item) : IsChosen (sorts ++ [last']) item := by
  induction sorts with
  | nil =>
      cases chosen with
      | here holds => exact .here (more _ holds)
      | later _ chosen => exact absurd chosen not_isChosen_nil
  | cons first sorts ih =>
      cases chosen with
      | here holds => exact .here holds
      | later none chosen => exact .later none (ih chosen)

end Candidates

section Widening

variable {program wider : Program} {lookup : LocalLookup} {place : Place} {name : String}

theorem Program.Coherent.decl?_isSome (coherent : program.Coherent) {record : RecordDecl}
    (listed : record ∈ program.records) {id : VarId} (held : id ∈ record.handles) :
    (program.decl? id).isSome := by
  refine coherent.mem_handles.1 ?_
  simp only [Program.handles, List.mem_append]
  exact .inl (.inl (.inl (.inr (List.mem_flatMap.2 ⟨record, listed, held⟩))))

theorem Program.Nearest.transfer {α : Type} {own own' : RecordDecl → Option α}
    {record : RecordDecl} {member : α} (same : wider.records = program.records)
    (agree : ∀ record ∈ program.records, own' record = own record)
    (listed : record ∈ program.records) (nearest : program.Nearest own record member) :
    wider.Nearest own' record member := by
  induction nearest with
  | own found => exact .own ((agree _ listed).trans found)
  | inherited none parent found _ ih =>
      have further := ih (List.mem_of_find?_eq_some found)
      rw [Program.record?, ← same] at found
      exact .inherited ((agree _ listed).trans none) parent found further

namespace Place.Valid

theorem within (valid : place.Valid program) {enclosure : Enclosure}
    (declared : ∀ id ∈ enclosure.declared, (program.decl? id).isSome) :
    (place.within enclosure).Valid program :=
  ⟨valid.record, valid.function, List.forall_mem_cons.2 ⟨declared, valid.enclosures⟩⟩

theorem repeated (valid : place.Valid program) : place.repeated.Valid program :=
  ⟨valid.record, valid.function, valid.enclosures⟩

theorem inFunction (valid : place.Valid program) {function : Function}
    (held : ∀ id ∈ function.handles, (program.decl? id).isSome) :
    (place.inFunction function).Valid program := by
  refine ⟨valid.record, ?_, valid.enclosures⟩
  rintro _ ⟨⟩
  exact held

theorem inRecord {record : RecordDecl} (listed : record ∈ program.records) :
    (Place.inRecord {} record).Valid program := by
  refine ⟨?_, nofun, List.forall_mem_nil _⟩
  rintro _ ⟨⟩
  exact listed

theorem outermost : Place.Valid program {} :=
  ⟨nofun, nofun, List.forall_mem_nil _⟩

end Place.Valid

namespace Program.WidensTo

variable (widens : program.WidensTo wider)

include widens

theorem record? : wider.record? = program.record? := by
  funext name
  rw [Program.record?, Program.record?, widens.records]

theorem nearest_iff {α : Type} {own own' : RecordDecl → Option α} {record : RecordDecl} {member : α}
    (agree : ∀ record ∈ program.records, own' record = own record)
    (listed : record ∈ program.records) :
    wider.Nearest own' record member ↔ program.Nearest own record member := by
  constructor
  · rw [← widens.records] at agree listed
    exact .transfer widens.records.symm (fun record listed => (agree record listed).symm) listed
  · exact .transfer widens.records agree listed

theorem ownProperty? (coherent : program.Coherent) (name : String) (record : RecordDecl)
    (listed : record ∈ program.records) :
    wider.ownProperty? record name = program.ownProperty? record name := by
  have valid : ∀ id ∈ record.properties, wider.decl? id = program.decl? id := by
    intro id property
    exact widens.decl? id (coherent.decl?_isSome listed (List.mem_append_left _ property))
  rw [Program.ownProperty?, Program.ownProperty?, List.filterMap_congr valid]

theorem declares {id : VarId} (valid : (program.decl? id).isSome) :
    wider.declares name id = program.declares name id := by
  rw [Program.declares, Program.declares, widens.decl? id valid]

variable (coherent : program.Coherent) (valid : place.Valid program)

include coherent valid

/-- What is not looked for among global variables is found as before. -/
theorem locals (lookup : LocalLookup) :
    [place.IsProperty wider name, place.IsParameter wider name,
        fun id => lookup = .lastInBody ∧ place.IsLastInBody wider name id,
        place.IsPreceding wider name] =
      [place.IsProperty program name, place.IsParameter program name,
        fun id => lookup = .lastInBody ∧ place.IsLastInBody program name id,
        place.IsPreceding program name] := by
  have declares : ∀ {ids : List VarId}, (∀ id ∈ ids, (program.decl? id).isSome) →
      ∀ id ∈ ids, wider.declares name id = program.declares name id :=
    fun known id listed => widens.declares (known id listed)
  have property : place.IsProperty wider name = place.IsProperty program name := by
    funext id
    refine propext (exists_congr fun record => exists_congr fun decl => ?_)
    refine and_congr_right fun around => and_congr_left fun _ => ?_
    exact widens.nearest_iff (widens.ownProperty? coherent name) (valid.record record around)
  have parameter : place.IsParameter wider name = place.IsParameter program name := by
    funext id
    refine propext (exists_congr fun function => and_congr_right fun around => ?_)
    exact isFirst_congr (declares fun id listed =>
      valid.function function around id (List.mem_append_left _ listed))
  have inBody : place.IsLastInBody wider name = place.IsLastInBody program name := by
    funext id
    refine propext (exists_congr fun function => and_congr_right fun around => ?_)
    exact isLast_congr (declares fun id listed => valid.function function around id
      (List.mem_append_right _ (function.body.declared_subset_handles listed)))
  have preceding : place.IsPreceding wider name = place.IsPreceding program name := by
    funext id
    refine propext (exists_congr fun inner => exists_congr fun enclosure =>
      exists_congr fun outer => and_congr_right fun split => ?_)
    have known := valid.enclosures
    rw [split] at known
    refine and_congr (isLast_congr (declares (known enclosure (by simp)))) ?_
    refine forall₂_congr fun other listed => forall₂_congr fun id declared => ?_
    rw [declares (known other (List.mem_append_left _ listed)) id declared]
  rw [property, parameter, inBody, preceding]

theorem refersTo {id : VarId} (refers : place.RefersTo program name lookup id) :
    place.RefersTo wider name lookup id := by
  have same := @locals program wider place name widens coherent valid lookup
  have global : ∀ id, Place.IsGlobal program name id → Place.IsGlobal wider name id := by
    rintro id ⟨decl, found, rfl⟩
    exact ⟨decl, widens.global? name decl found, rfl⟩
  have chosen : IsChosen ([_, _, _, _] ++ [Place.IsGlobal program name]) id := refers
  have wide := chosen.widen global
  rw [← same] at wide
  exact wide

omit coherent in
theorem isCallee {function : Function} (callee : place.IsCallee program name function) :
    place.IsCallee wider name function := by
  have method : (fun function => ∃ record, place.record = some record ∧
        wider.Nearest (fun record => record.method? name) record function) =
      fun function => ∃ record, place.record = some record ∧
        program.Nearest (fun record => record.method? name) record function := by
    funext function
    refine propext (exists_congr fun record => and_congr_right fun around => ?_)
    exact widens.nearest_iff (fun _ _ => rfl) (valid.record record around)
  unfold Place.IsCallee Program.function?
  rw [method, widens.functions, widens.main]
  exact callee

theorem isOwner {receiver : Expr} {record : RecordDecl}
    (owner : place.IsOwner program lookup receiver record) :
    place.IsOwner wider lookup receiver record := by
  obtain ⟨name, span, id, decl, type, same, refers, found, ofType, declared⟩ := owner
  refine ⟨name, span, id, decl, type, same, widens.refersTo coherent valid refers, ?_, ofType, ?_⟩
  · rw [widens.decl? id (by simp [found]), found]
  · rw [widens.record?, declared]

/-- What has a type still has it. -/
theorem hasType {declared : Option DataType} {expr : Expr} {type : DataType}
    (typed : HasType program lookup place declared expr type) :
    HasType wider lookup place declared expr type := by
  induction typed using HasType.rec (motive_2 := fun declared values types _ =>
    HaveTypes wider lookup place declared values types) with
  | null => exact .null
  | int => exact .int
  | float => exact .float
  | bool => exact .bool
  | string => exact .string
  | declaredArray _ agree ih => exact .declaredArray ih agree
  | array other _ agree ih => exact .array other ih agree
  | reference refers found =>
      refine .reference (widens.refersTo coherent valid refers) ?_
      rw [widens.decl? _ (by simp [found]), found]
  | arithmetic sort _ _ agree left right => exact .arithmetic sort left right agree
  | comparison sort _ _ agree left right => exact .comparison sort left right agree
  | logical sort _ _ agree agree' left right => exact .logical sort left right agree agree'
  | not _ agree ih => exact .not ih agree
  | signed other _ ih => exact .signed other ih
  | construct _ found ih => exact .construct ih (widens.record? ▸ found)
  | call _ missing callee ih =>
      exact .call ih (widens.record? ▸ missing) (widens.isCallee valid callee)
  | method _ _ owner nearest receiver args =>
      refine .method receiver args (widens.isOwner coherent valid owner) ?_
      exact (widens.nearest_iff (fun _ _ => rfl) owner.mem_records).2 nearest
  | property _ owner nearest receiver =>
      refine .property receiver (widens.isOwner coherent valid owner) ?_
      exact (widens.nearest_iff (widens.ownProperty? coherent _) owner.mem_records).2 nearest
  | nil => exact .nil
  | cons _ _ ih ihs => exact .cons ih ihs

theorem expr {expr : Expr} (typed : expr.WellTyped program lookup place) :
    expr.WellTyped wider lookup place := by
  obtain ⟨type, typed⟩ := typed
  exact ⟨type, widens.hasType coherent valid typed⟩

theorem handle {id : VarId} (typed : id.WellTyped program lookup place) :
    id.WellTyped wider lookup place := by
  obtain ⟨decl, found, known, init⟩ := typed
  refine ⟨decl, ?_, ?_, fun value given => ?_⟩
  · rw [widens.decl? id (by simp [found]), found]
  · rw [Program.knows_congr widens.record?, known]
  · obtain ⟨type, typed, agrees⟩ := init value given
    exact ⟨type, widens.hasType coherent valid typed, agrees⟩

omit valid in
/-- A statement that is well typed still is. -/
theorem stmt {stmt : Stmt} (typed : stmt.WellTyped program lookup place)
    (valid : place.Valid program) (held : ∀ id ∈ stmt.handles, (program.decl? id).isSome) :
    stmt.WellTyped wider lookup place := by
  induction typed using Stmt.WellTyped.rec (motive_2 := fun place block _ =>
    place.Valid program → (∀ id ∈ block.handles, (program.decl? id).isSome) →
      block.WellTyped wider lookup place) with
  | block _ ih => exact .block (ih valid held)
  | returns around typed agrees =>
      exact .returns around (widens.hasType coherent valid typed) agrees
  | @branch place branches otherwise span conditions bodies last ih ihLast =>
      rw [Stmt.handles, Branch.listHandles_eq_flatMap, List.forall_mem_append,
        List.forall_mem_flatMap] at held
      refine .branch (fun branch listed => widens.expr coherent valid (conditions branch listed))
        (fun branch listed => ih branch listed valid (held.1 branch listed)) ?_
      rintro body ⟨⟩
      exact ihLast body rfl valid held.2
  | forLoop init condition step _ ih =>
      rw [Stmt.handles, List.forall_mem_cons] at held
      have before := @Place.Valid.within _ _ valid (.header none) (List.forall_mem_nil _)
      have header := @Place.Valid.within _ _ valid (.header (some _))
        (List.forall_mem_singleton.2 held.1)
      exact .forLoop (widens.handle coherent before init) (widens.expr coherent header condition)
        (widens.expr coherent header step) (ih header.repeated held.2)
  | whileLoop condition _ ih =>
      exact .whileLoop (widens.expr coherent valid condition) (ih valid.repeated held)
  | expression typed => exact .expression (widens.expr coherent valid typed)
  | declare typed => exact .declare (widens.handle coherent valid typed)
  | breakLoop inside => exact .breakLoop inside
  | continueLoop inside => exact .continueLoop inside
  | mk body ih valid held =>
      rename_i stmts span
      refine .mk fun before stmt after split => ?_
      rw [Block.handles, split, Stmt.listHandles_eq_flatMap, List.forall_mem_flatMap] at held
      refine ih before stmt after split (valid.within fun id declared => ?_)
        (held stmt (by simp))
      have listed := Block.declared_subset_handles ⟨before, span⟩ declared
      rw [Block.handles, Stmt.listHandles_eq_flatMap, List.mem_flatMap] at listed
      obtain ⟨other, earlier, here⟩ := listed
      exact held other (List.mem_append_left _ earlier) id here

theorem function {function : Function} (typed : function.WellTyped program lookup place)
    (held : ∀ id ∈ function.handles, (program.decl? id).isSome) :
    function.WellTyped wider lookup place := by
  have inside := valid.inFunction held
  obtain ⟨known, params, body, returns⟩ := typed
  rw [Function.handles, List.forall_mem_append] at held
  refine ⟨?_, fun param listed => widens.handle coherent inside (params param listed), ?_, returns⟩
  · rw [Program.knows_congr widens.record?, known]
  · have asStmt := widens.stmt coherent (.block body) inside held.2
    cases asStmt with
    | block body => exact body

omit valid in
theorem recordDecl {record : RecordDecl} (listed : record ∈ program.records)
    (typed : record.WellTyped program lookup) : record.WellTyped wider lookup := by
  have held : ∀ id ∈ record.methods.flatMap Function.handles, (program.decl? id).isSome :=
    fun id held => coherent.decl?_isSome listed (List.mem_append_right _ held)
  rw [List.forall_mem_flatMap] at held
  have inside := Place.Valid.inRecord listed
  obtain ⟨parent, properties, methods⟩ := typed
  exact ⟨widens.record? ▸ parent,
    fun id property => widens.handle coherent inside (properties id property),
    fun method member =>
      widens.function coherent inside (methods method member) (held method member)⟩

end Program.WidensTo

end Widening

section Adding

variable {program : Program} {lookup : LocalLookup} {name : String} {type : DataType}
  {init : Option Expr} {span : Span}

namespace Program

theorem decl?_addGlobal_nextDecl :
    (program.addGlobal name type init span).decl? program.nextDecl =
      some ⟨program.nextDecl, name, type, init, span⟩ :=
  Array.getElem?_push_size

/-- Adding a global variable widens a program. -/
theorem widensTo_addGlobal (coherent : program.Coherent) :
    program.WidensTo (program.addGlobal name type init span) := by
  have before : ∀ id, (program.decl? id).isSome →
      (program.addGlobal name type init span).decl? id = program.decl? id := by
    intro id valid
    obtain ⟨decl, found⟩ := Option.isSome_iff_exists.1 valid
    obtain ⟨inside, -⟩ := Array.getElem?_eq_some_iff.1 found
    exact (Array.getElem?_push_lt inside).trans (Array.getElem?_eq_getElem inside).symm
  refine ⟨before, fun other decl found => ?_, rfl, rfl, rfl⟩
  have globals : ∀ id ∈ program.globals,
      (program.addGlobal name type init span).decl? id = program.decl? id := by
    intro id global
    refine before id (coherent.mem_handles.1 ?_)
    simp [handles, global]
  have listed : (program.addGlobal name type init span).globals =
      program.globals ++ [program.nextDecl] := rfl
  rw [global?] at found ⊢
  rw [listed, List.filterMap_append, List.filterMap_congr globals, List.find?_append, found,
    Option.some_or]

/-- A program with one more global variable is well typed if it was so without it, and the
declaration of the variable is well typed. -/
theorem WellTyped.addGlobal (coherent : program.Coherent) (typed : program.WellTyped lookup)
    (new : VarDecl.WellTyped (program.addGlobal name type init span) lookup {}
      ⟨program.nextDecl, name, type, init, span⟩) :
    (program.addGlobal name type init span).WellTyped lookup := by
  have widens : program.WidensTo (program.addGlobal name type init span) :=
    widensTo_addGlobal coherent
  have outermost : Place.Valid program {} := .outermost
  have held : ∀ id ∈ program.handles, (program.decl? id).isSome := fun _ =>
    coherent.mem_handles.1
  simp only [handles, Stmt.listHandles_eq_flatMap, List.forall_mem_append,
    List.forall_mem_flatMap] at held
  refine ⟨?_, fun record listed => widens.recordDecl coherent listed (typed.records record listed),
    fun function listed => widens.function coherent outermost (typed.functions function listed)
      (held.1.1.2 function listed),
    fun function main => widens.function coherent outermost (typed.main function main)
      (held.1.2 function (Option.mem_toList.2 main)),
    fun stmt listed => widens.stmt coherent (typed.statements stmt listed) outermost
      (held.2 stmt listed)⟩
  refine List.forall_mem_append.2 ⟨fun id global => ?_, List.forall_mem_singleton.2 ?_⟩
  · exact widens.handle coherent outermost (typed.globals id global)
  · exact ⟨_, decl?_addGlobal_nextDecl, new⟩

end Program

end Adding

end Offside
