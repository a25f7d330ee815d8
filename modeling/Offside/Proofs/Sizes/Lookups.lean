import Offside.Proofs.Sizes.Declarations
import Offside.Typing.Resolution

/-! # Lookups do not depend on sizes

A program whose declarations and signatures give no sizes of numbers finds the same under each name
as the program itself, but for the sizes. So what a name refers to has nothing to do with sizes.
-/

namespace Offside

/-- What surrounds a node in a program without the sizes of numbers. -/
def Context.unsized (context : Context) : Context :=
  { context with
    function := context.function.map Function.unsized
    record := context.record.map RecordDecl.unsized }

/-- A method is found under its name whatever the sizes are. -/
theorem RecordDecl.method?_unsized (record : RecordDecl) (name : String) :
    record.unsized.method? name = (record.method? name).map Function.unsized :=
  List.find?_map ..

namespace Program

variable (program : Program)

@[simp] theorem decl?_unsized (id : VarId) :
    program.unsized.decl? id = (program.decl? id).map VarDecl.unsized :=
  Array.getElem?_map ..

/-- Among some variables, one is found under its name whatever the sizes are. -/
theorem find?_unsized (ids : List VarId) (name : String) :
    (ids.filterMap program.unsized.decl?).find? (fun decl => decl.name == name) =
      ((ids.filterMap program.decl?).find? fun decl => decl.name == name).map VarDecl.unsized := by
  have decls : ids.filterMap program.unsized.decl? =
      (ids.filterMap program.decl?).map VarDecl.unsized := by
    rw [List.map_filterMap]
    exact List.filterMap_congr fun id _ => program.decl?_unsized id
  rw [decls]
  exact List.find?_map ..

theorem global?_unsized (name : String) :
    program.unsized.global? name = (program.global? name).map VarDecl.unsized :=
  program.find?_unsized program.globals name

theorem function?_unsized (name : String) :
    program.unsized.function? name = (program.function? name).map Function.unsized :=
  List.find?_map ..

theorem record?_unsized (name : String) :
    program.unsized.record? name = (program.record? name).map RecordDecl.unsized :=
  List.find?_map ..

mutual

theorem knows_unsized : (type : DataType) → program.unsized.knows type.unsized = program.knows type
  | .int .. | .float _ | .bool | .string | .null | .unresolved => rfl
  | .array element => knows_unsized element
  | .record name => by
    simp only [DataType.unsized, knows, record?_unsized, Option.isSome_map]
  | .function params returns => by
    simp only [DataType.unsized, knows, knowsAll_unsized params, knows_unsized returns]

theorem knowsAll_unsized : (types : List DataType) →
    program.unsized.knowsAll (DataType.unsizedAll types) = program.knowsAll types
  | [] => rfl
  | type :: rest => by
    simp only [DataType.unsizedAll, knowsAll, knows_unsized type, knowsAll_unsized rest]

end

theorem declares_unsized : program.unsized.declares = program.declares := by
  funext name id
  simp only [declares, decl?_unsized, Option.any_map]
  rfl

theorem paramOf?_unsized (function : Function) (name : String) :
    program.unsized.paramOf? function.unsized name = program.paramOf? function name := by
  unfold paramOf?
  rw [declares_unsized]
  rfl

theorem lastDeclared?_unsized (function : Function) (name : String) :
    program.unsized.lastDeclared? function.unsized name = program.lastDeclared? function name := by
  unfold lastDeclared?
  rw [declares_unsized]
  rfl

/-- The line of parents consists of the same record types. -/
theorem ancestors_unsized (pool : List RecordDecl) (parent : Option Name) :
    ancestors (pool.map RecordDecl.unsized) parent =
      (ancestors pool parent).map RecordDecl.unsized := by
  have find (pool : List RecordDecl) (name : Name) :
      (pool.map RecordDecl.unsized).find? (fun record => record.name == name.text) =
        (pool.find? fun record => record.name == name.text).map RecordDecl.unsized :=
    List.find?_map ..
  fun_induction ancestors pool parent with
  | case1 => rw [ancestors, List.map_nil]
  | case2 pool name missing =>
      rw [ancestors_some, find, missing]
      rfl
  | case3 pool name record found ih =>
      have left : without (pool.map RecordDecl.unsized) record.name =
          (without pool record.name).map RecordDecl.unsized := List.filter_map ..
      rw [ancestors_some, find, found, List.map_cons, ← ih, ← left]
      rfl

theorem ancestry_unsized (record : RecordDecl) :
    program.unsized.ancestry record.unsized =
      (program.ancestry record).map RecordDecl.unsized := by
  have left : without program.unsized.records record.name =
      (without program.records record.name).map RecordDecl.unsized := List.filter_map ..
  rw [ancestry, ancestry, List.map_cons, ← ancestors_unsized, ← left]
  rfl

/-- A member is taken from the same record type along the line of parents. -/
theorem findSome?_ancestry_unsized {α : Type} {own own' : RecordDecl → Option α} {view : α → α}
    (same : ∀ record, own' record.unsized = (own record).map view) (record : RecordDecl) :
    (program.unsized.ancestry record.unsized).findSome? own' =
      ((program.ancestry record).findSome? own).map view := by
  have found : own' ∘ RecordDecl.unsized = Option.map view ∘ own := funext same
  rw [ancestry_unsized, List.findSome?_map, List.map_findSome?, found]

theorem methodOf?_unsized (record : RecordDecl) (name : String) :
    program.unsized.methodOf? record.unsized name =
      (program.methodOf? record name).map Function.unsized :=
  program.findSome?_ancestry_unsized (fun record => record.method?_unsized name) record

theorem propertyOf?_unsized (record : RecordDecl) (name : String) :
    program.unsized.propertyOf? record.unsized name =
      (program.propertyOf? record name).map VarDecl.unsized :=
  program.findSome?_ancestry_unsized
    (fun record => program.find?_unsized record.properties name) record

theorem callee?_unsized (record : Option RecordDecl) (name : String) :
    program.unsized.callee? (record.map RecordDecl.unsized) name =
      (program.callee? record name).map Function.unsized := by
  have method : ((record.map RecordDecl.unsized).bind fun record =>
      program.unsized.methodOf? record name) =
        (record.bind fun record => program.methodOf? record name).map Function.unsized := by
    cases record with
    | none => rfl
    | some record => exact program.methodOf?_unsized record name
  have main : (program.unsized.main.filter fun main => main.name == name) =
      (program.main.filter fun main => main.name == name).map Function.unsized :=
    Option.filter_map ..
  rw [callee?, callee?, Option.map_or, Option.map_or, ← function?_unsized, ← method, ← main]

end Program

namespace LocalLookup

/-- A name refers to the same variable whatever the sizes are. -/
theorem find?_unsized (lookup : LocalLookup) (program : Program) (context : Context)
    (environments : List Environment) (name : String) :
    lookup.find? program.unsized context.unsized environments name =
      lookup.find? program context environments name := by
  have property : (context.unsized.record.bind fun record =>
      (program.unsized.propertyOf? record name).map VarDecl.id) =
        context.record.bind fun record => (program.propertyOf? record name).map VarDecl.id := by
    cases around : context.record with
    | none => simp [Context.unsized, around]
    | some record =>
        simp only [Context.unsized, around, Option.map_some, Option.bind_some,
          program.propertyOf?_unsized, Option.map_map]
        rfl
  have global : (program.unsized.global? name).map VarDecl.id =
      (program.global? name).map VarDecl.id := by
    rw [program.global?_unsized, Option.map_map]
    rfl
  have localOf (function : Function) :
      lookup.localOf? program.unsized environments function.unsized name =
        lookup.localOf? program environments function name := by
    cases lookup with
    | innermost => rfl
    | lastInBody => rw [localOf?, localOf?, program.lastDeclared?_unsized]
  unfold find?
  rw [property, global]
  cases around : context.function with
  | none => simp [Context.unsized, around]
  | some function =>
      simp only [Context.unsized, around, Option.map_some, program.paramOf?_unsized, localOf]

end LocalLookup

end Offside
