import Offside.Proofs.Reading.Entries
import Mathlib.Data.Finset.Basic

/-! # Registries

A registry is a program that is being put together, with a set of its own for the names that types
have taken. It is changed by calls, one after the other, of which each may fail. Whatever is called,
names stay told apart, the set stays what it is meant to be, and a call either enters one thing or
leaves everything as it was.
-/

namespace Offside

/-- A program under construction, and the names that no further record type may take. -/
structure Registry extends Program where
  typeNames : Finset String := DataType.builtinNames.toFinset

namespace Registry

/-- The registry without anything in it. -/
def new : Registry := {}

/-- Adds a variable declaration, and returns the handle it gets. -/
def alloc (name : String) (type : DataType) (init : Option Expr) (span : Span) :
    Action Registry VarId := do
  let registry ← get
  let id := registry.nextDecl
  set { registry with decls := registry.decls.push ⟨id, name, type, init, span⟩ }
  return id

/-- Adds a free statement. -/
def addStmt (stmt : Stmt) : Action Registry Unit :=
  modify fun registry => { registry with statements := registry.statements ++ [stmt] }

/-- Makes a declaration a global variable. -/
def addGlobal (id : VarId) : Action Registry Unit := do
  let registry ← get
  match registry.decl id with
  | .error error => throw error
  | .ok decl =>
    if (registry.global? decl.name).isSome then
      throw ⟨.variableAlreadyDeclared decl.name, decl.span.start⟩
    else modify fun registry => { registry with globals := registry.globals ++ [id] }

/-- Adds a function. The one named `main` becomes the entry point. -/
def addFunction (function : Function) : Action Registry Unit := do
  let registry ← get
  if function.name = Program.mainName then
    if registry.main.isSome then throw ⟨.entryPointAlreadyDeclared, function.span.start⟩
    else modify fun registry => { registry with main := some function }
  else if (registry.function? function.name).isSome then
    throw ⟨.functionAlreadyDeclared function.name, function.span.start⟩
  else modify fun registry => { registry with functions := registry.functions ++ [function] }

/-- Takes the name of a type, and says whether it was free before. -/
def reserve (name : String) : Action Registry Bool := do
  let registry ← get
  set { registry with typeNames := insert name registry.typeNames }
  return name ∉ registry.typeNames

/-- Adds a record type. Its name is taken before it is known to have been free. -/
def addRecord (record : RecordDecl) : Action Registry Unit := do
  if ← reserve record.name then
    modify fun registry => { registry with records := registry.records ++ [record] }
  else throw ⟨.hotpotAlreadyDeclared record.name, record.span.start⟩

/-- A call that adds something, with what it adds. -/
inductive Call where
  | alloc (name : String) (type : DataType) (init : Option Expr) (span : Span)
  | stmt (added : Stmt)
  | global (id : VarId)
  | function (added : Function)
  | record (added : RecordDecl)

/-- Carries out a call. It returns the handle of the declaration that it makes, if it makes one. -/
def Call.run : Call → Action Registry (Option VarId)
  | .alloc name type init span => do return some (← Registry.alloc name type init span)
  | .stmt added => do addStmt added; return none
  | .global id => do addGlobal id; return none
  | .function added => do addFunction added; return none
  | .record added => do addRecord added; return none

/-- The registry that is left after some calls, of which any may have failed. -/
def after (calls : List Call) : Registry :=
  calls.foldl (fun registry call => (call.run.run.run registry).2) new

/-- Names are told apart, global variables have declarations, and the names that are taken are those
of the built-in types and of the record types. -/
structure Intact (registry : Registry) : Prop where
  distinct : registry.Distinct
  valid : registry.DeclaresGlobals
  typeNames : registry.typeNames = registry.takenNames.toFinset

end Registry

open Registry

namespace Program

variable {program next : Program}

/-- What a program can be asked for. -/
inductive Query where
  | decl (id : VarId)
  | global (name : String)
  | function (name : String)
  | main
  | record (name : String)
  deriving DecidableEq

/-- What a program answers with. -/
inductive Item where
  | decl (found : VarDecl)
  | function (found : Function)
  | record (found : RecordDecl)

/-- What a query finds. -/
def answer? (program : Program) : Query → Option Item
  | .decl id => (program.decl? id).map .decl
  | .global name => (program.global? name).map .decl
  | .function name => (program.function? name).map .function
  | .main => program.main.map .function
  | .record name => (program.record? name).map .record

/-- The answers are those that another program gives, but for something entered since. -/
def AnswersLike (next program : Program) : Option (Query × Item) → Prop
  | some (query, item) => next.answer? = Function.update program.answer? query (some item)
  | none => next.answer? = program.answer?

end Program

namespace Registry.Call

/-- What the same call does to a program. -/
def enter : Call → Program → Except Error Program
  | .alloc name type init span, program => .ok (program.insertDecl name type init span)
  | .stmt added, program => .ok (program.insertStmt added)
  | .global id, program => program.insertGlobal id
  | .function added, program => program.insertFunction added
  | .record added, program => program.insertRecord added

/-- A call cannot be carried out: its handle is dangling, or its name is taken. -/
inductive Refused (program : Program) : Call → Error → Prop
  | dangling {id : VarId} (missing : program.decl? id = none) :
      Refused program (.global id)
        ⟨.internalError ("dangling declaration handle " ++ toString id.index), Position.null⟩
  | global {id : VarId} {decl : VarDecl} (found : program.decl? id = some decl)
      (taken : decl.name ∈ program.globalNames) :
      Refused program (.global id) ⟨.variableAlreadyDeclared decl.name, decl.span.start⟩
  | main {added : Function} (named : added.name = Program.mainName) (taken : program.main.isSome) :
      Refused program (.function added) ⟨.entryPointAlreadyDeclared, added.span.start⟩
  | function {added : Function} (taken : added.name ∈ program.functions.map Function.name) :
      Refused program (.function added) ⟨.functionAlreadyDeclared added.name, added.span.start⟩
  | record {added : RecordDecl}
      (taken : added.name ∈ DataType.builtinNames ∨
        added.name ∈ program.records.map RecordDecl.name) :
      Refused program (.record added) ⟨.hotpotAlreadyDeclared added.name, added.span.start⟩

/-- A call can be carried out and leaves a program. -/
inductive Entered (program : Program) : Call → Program → Prop
  | alloc {name : String} {type : DataType} {init : Option Expr} {span : Span} :
      Entered program (.alloc name type init span) (program.insertDecl name type init span)
  | stmt {added : Stmt} : Entered program (.stmt added) (program.insertStmt added)
  | global {id : VarId} {decl : VarDecl} (found : program.decl? id = some decl)
      (free : decl.name ∉ program.globalNames) :
      Entered program (.global id) { program with globals := program.globals ++ [id] }
  | main {added : Function} (named : added.name = Program.mainName) (free : program.main = none) :
      Entered program (.function added) { program with main := some added }
  | function {added : Function} (other : added.name ≠ Program.mainName)
      (free : added.name ∉ program.functions.map Function.name) :
      Entered program (.function added) { program with functions := program.functions ++ [added] }
  | record {added : RecordDecl} (free : added.name ∉ program.takenNames) :
      Entered program (.record added) { program with records := program.records ++ [added] }

/-- What a call enters, and what it is found under. A statement is not found under anything. -/
def entry? (program : Program) : Call → Option (Program.Query × Program.Item)
  | .alloc name type init span =>
    some (.decl program.nextDecl, .decl ⟨program.nextDecl, name, type, init, span⟩)
  | .stmt _ => none
  | .global id => (program.decl? id).map fun decl => (.global decl.name, .decl decl)
  | .function added =>
    some (if added.name = Program.mainName then .main else .function added.name, .function added)
  | .record added => some (.record added.name, .record added)

/-- The statement that a call adds. -/
def stmt? : Call → Option Stmt
  | .stmt added => some added
  | _ => none

/-- The handle that a call returns. -/
def handle? (program : Program) : Call → Option VarId
  | .alloc .. => some program.nextDecl
  | _ => none

end Registry.Call

section Finding

variable {program : Program} {name : String} {type : DataType} {init : Option Expr} {span : Span}
  {id : VarId} {decl : VarDecl}

theorem Program.global?_isSome : (program.global? name).isSome ↔ name ∈ program.globalNames := by
  simp only [Program.global?, Program.globalNames, List.find?_isSome, beq_iff_eq, List.mem_map]

theorem Program.function?_isSome :
    (program.function? name).isSome ↔ name ∈ program.functions.map Function.name := by
  simp only [Program.function?, List.find?_isSome, beq_iff_eq, List.mem_map]

/-- What stands behind a list is found where nothing in the list is. -/
theorem find?_concat_name {α : Type} (nameOf : α → String) (items : List α) (item : α)
    (free : nameOf item ∉ items.map nameOf) (name : String) :
    (items ++ [item]).find? (fun other => nameOf other == name) =
      if name = nameOf item then some item else items.find? fun other => nameOf other == name := by
  rw [List.find?_append]
  split
  · next same =>
    subst same
    have none : items.find? (fun other => nameOf other == nameOf item) = none := by
      simpa [List.find?_eq_none] using free
    simp [none]
  · next other => simp [Ne.symm other]

/-- A new declaration is found under the next handle, and every other as before. -/
theorem Program.decl?_insertDecl (id : VarId) :
    (program.insertDecl name type init span).decl? id =
      if id = program.nextDecl then some ⟨program.nextDecl, name, type, init, span⟩
      else program.decl? id := by
  cases id with
  | mk index =>
      simp [Program.insertDecl, Program.decl?, Program.nextDecl, Array.getElem?_push]

/-- Global variables that have declarations keep them. -/
theorem Program.globals_insertDecl
    (valid : program.DeclaresGlobals) :
    program.globals.filterMap (program.insertDecl name type init span).decl? =
      program.globals.filterMap program.decl? := by
  refine List.filterMap_congr fun id member => ?_
  rw [Program.decl?_insertDecl, if_neg]
  rintro rfl
  simpa [Program.decl?, Program.nextDecl] using valid _ member

/-- A new global variable stands behind the others. -/
theorem Program.filterMap_insertGlobal (found : program.decl? id = some decl) :
    (program.globals ++ [id]).filterMap program.decl? =
      program.globals.filterMap program.decl? ++ [decl] := by
  simp [List.filterMap_append, found]

theorem Program.global?_insertDecl
    (valid : program.DeclaresGlobals) (sought : String) :
    (program.insertDecl name type init span).global? sought = program.global? sought :=
  congrArg (List.find? fun decl : VarDecl => decl.name == sought) (Program.globals_insertDecl valid)

theorem Program.global?_insertGlobal (found : program.decl? id = some decl)
    (free : decl.name ∉ program.globalNames) (sought : String) :
    ({ program with globals := program.globals ++ [id] } : Program).global? sought =
      if sought = decl.name then some decl else program.global? sought := by
  change ((program.globals ++ [id]).filterMap program.decl?).find? _ = _
  rw [Program.filterMap_insertGlobal found]
  exact find?_concat_name VarDecl.name _ decl free sought

end Finding

namespace Registry.Call

variable {program next : Program} {call : Call}

/-- Every call is carried out or refused. -/
theorem enter_cases (program : Program) (call : Call) :
    (∃ next, call.enter program = .ok next ∧ Entered program call next) ∨
      ∃ error, call.enter program = .error error ∧ Refused program call error := by
  cases call with
  | alloc name type init span => exact .inl ⟨_, rfl, .alloc⟩
  | stmt added => exact .inl ⟨_, rfl, .stmt⟩
  | global id =>
      simp only [enter, Program.insertGlobal, Program.decl]
      cases found : program.decl? id with
      | none => exact .inr ⟨_, rfl, .dangling found⟩
      | some decl =>
          by_cases taken : (program.global? decl.name).isSome
          · exact .inr ⟨_, if_pos taken, .global found (Program.global?_isSome.1 taken)⟩
          · exact .inl ⟨_, if_neg taken, .global found (mt Program.global?_isSome.2 taken)⟩
  | function added =>
      simp only [enter, Program.insertFunction]
      by_cases named : added.name = Program.mainName
      · simp only [if_pos named]
        by_cases taken : program.main.isSome
        · exact .inr ⟨_, if_pos taken, .main named taken⟩
        · exact .inl ⟨_, if_neg taken, .main named (Option.not_isSome_iff_eq_none.1 taken)⟩
      · simp only [if_neg named]
        by_cases taken : (program.function? added.name).isSome
        · exact .inr ⟨_, if_pos taken, .function (Program.function?_isSome.1 taken)⟩
        · exact .inl ⟨_, if_neg taken, .function named (mt Program.function?_isSome.2 taken)⟩
  | record added =>
      simp only [enter, Program.insertRecord, List.contains_eq_mem, decide_eq_true_eq]
      by_cases taken : added.name ∈ program.takenNames
      · exact .inr ⟨_, if_pos taken, .record (List.mem_append.1 taken)⟩
      · exact .inl ⟨_, if_neg taken, .record taken⟩

namespace Entered

/-- What is carried out is not refused. -/
theorem not_refused (entered : Entered program call next) (distinct : program.Distinct)
    (error : Error) : ¬ Refused program call error := by
  intro refused
  cases entered with
  | alloc => cases refused
  | stmt => cases refused
  | global found free =>
      cases refused with
      | dangling missing => exact absurd (missing.symm.trans found) nofun
      | global found' taken => exact free (Option.some.inj (found.symm.trans found') ▸ taken)
  | main named free =>
      cases refused with
      | main _ taken => simp [free] at taken
      | function taken =>
          obtain ⟨earlier, member, same⟩ := List.mem_map.1 taken
          exact distinct.others earlier member (same.trans named)
  | function other free =>
      cases refused with
      | main named _ => exact other named
      | function taken => exact free taken
  | record free =>
      cases refused with
      | record taken => exact free (List.mem_append.2 taken)

theorem distinct (entered : Entered program call next) (distinct : program.Distinct)
    (valid : program.DeclaresGlobals) : next.Distinct := by
  obtain ⟨globals, records, functions, others, main⟩ := distinct
  cases entered with
  | alloc =>
      refine ⟨?_, records, functions, others, main⟩
      exact (Program.globals_insertDecl valid).symm ▸ globals
  | stmt => exact ⟨globals, records, functions, others, main⟩
  | @global id decl found free =>
      refine ⟨?_, records, functions, others, main⟩
      change (((program.globals ++ [id]).filterMap program.decl?).map VarDecl.name).Nodup
      rw [Program.filterMap_insertGlobal found, List.map_append]
      simpa [Program.globalNames] using globals.concat free
  | main named free =>
      refine ⟨globals, records, functions, others, ?_⟩
      rintro _ ⟨⟩
      exact named
  | function other free =>
      refine ⟨globals, records, ?_, ?_, main⟩
      · simpa using functions.concat free
      · simpa [or_imp, forall_and] using ⟨others, other⟩
  | record free =>
      refine ⟨globals, ?_, functions, others, main⟩
      simpa [Program.takenNames] using records.concat free

theorem declaresGlobals (entered : Entered program call next)
    (valid : program.DeclaresGlobals) : next.DeclaresGlobals := by
  cases entered with
  | alloc =>
      intro id member
      rw [Program.decl?_insertDecl]
      split
      · rfl
      · exact valid id member
  | global found free =>
      refine List.forall_mem_append.2 ⟨valid, List.forall_mem_singleton.2 ?_⟩
      exact Option.isSome_iff_exists.2 ⟨_, found⟩
  | stmt | main | function | record => exact valid

/-- What a call enters is found, and nothing else is found otherwise than before. -/
theorem answersLike (entered : Entered program call next)
    (valid : program.DeclaresGlobals) :
    next.AnswersLike program (call.entry? program) := by
  cases entered with
  | stmt => rfl
  | alloc =>
      funext query
      cases query with
      | decl id =>
          simp only [Program.answer?, Program.decl?_insertDecl, Function.update_apply,
            Program.Query.decl.injEq]
          split <;> rfl
      | global sought =>
          exact congrArg (Option.map Program.Item.decl) (Program.global?_insertDecl valid sought)
      | function | main | record => rfl
  | @global id decl found free =>
      simp only [Call.entry?, found, Option.map_some]
      funext query
      cases query with
      | global sought =>
          simp only [Program.answer?, Program.global?_insertGlobal found free,
            Function.update_apply, Program.Query.global.injEq]
          split <;> rfl
      | decl | function | main | record => rfl
  | main named free =>
      simp only [Call.entry?, if_pos named]
      funext query
      cases query <;> rfl
  | @function added other free =>
      simp only [Call.entry?, if_neg other]
      funext query
      cases query with
      | function sought =>
          simp only [Program.answer?, Program.function?, Function.update_apply,
            find?_concat_name Function.name _ _ free, Program.Query.function.injEq]
          split <;> rfl
      | decl | global | main | record => rfl
  | @record added free =>
      funext query
      cases query with
      | record sought =>
          have unlisted := mt (List.mem_append_right DataType.builtinNames) free
          simp only [Program.answer?, Program.record?, Function.update_apply,
            find?_concat_name RecordDecl.name _ _ unlisted, Program.Query.record.injEq]
          split <;> rfl
      | decl | global | function | main => rfl

theorem statements (entered : Entered program call next) :
    next.statements = program.statements ++ call.stmt?.toList := by
  cases entered <;> simp [Call.stmt?, Program.insertDecl, Program.insertStmt]

/-- An entry point stays. -/
theorem main_stays (entered : Entered program call next) {function : Function}
    (set : program.main = some function) : next.main = some function := by
  cases entered with
  | main _ free => cases free.symm.trans set
  | alloc | stmt | global | function | record => exact set

end Entered

end Registry.Call

section Running

variable {registry : Registry}

/-- What a call does to a registry is what it does to the program in it, if the names that are taken
are those that the program says are. -/
theorem Registry.Call.run_eq (call : Call)
    (names : registry.typeNames = registry.takenNames.toFinset) :
    call.run.run.run registry = match call.enter registry.toProgram with
      | .ok next =>
        (.ok (call.handle? registry.toProgram), ⟨next, next.takenNames.toFinset⟩)
      | .error error => (.error error, registry) := by
  cases call with
  | alloc name type init span =>
      simp only [Call.run, Call.enter, Registry.alloc, Action.run_bind, Action.run_get,
        Action.run_set, Action.run_pure, names]
      rfl
  | stmt added =>
      simp only [Call.run, Call.enter, addStmt, Action.run_bind, Action.run_modify,
        Action.run_pure, names]
      rfl
  | global id =>
      simp only [Call.run, Call.enter, addGlobal, Program.insertGlobal, Action.run_bind,
        Action.run_get]
      cases declared : registry.decl id with
      | error error => rfl
      | ok decl =>
          by_cases taken : (registry.global? decl.name).isSome
          · simp only [taken, if_true, Action.run_throw]
          · simp only [taken, Bool.false_eq_true, if_false, Action.run_modify, Action.run_pure,
              names]
            rfl
  | function added =>
      simp only [Call.run, Call.enter, addFunction, Program.insertFunction, Action.run_bind,
        Action.run_get]
      by_cases named : added.name = Program.mainName
      · by_cases taken : registry.main.isSome
        · simp only [named, taken, if_true, Action.run_throw]
        · simp only [named, taken, if_true, Bool.false_eq_true, if_false, Action.run_modify,
            Action.run_pure, names]
          rfl
      · by_cases taken : (registry.function? added.name).isSome
        · simp only [named, taken, if_true, if_false, Action.run_throw]
        · simp only [named, taken, if_false, Bool.false_eq_true, Action.run_modify,
            Action.run_pure, names]
          rfl
  | record added =>
      simp only [Call.run, Call.enter, addRecord, reserve, Program.insertRecord, Action.run_bind,
        Action.run_get, Action.run_set, Action.run_pure, names, List.mem_toFinset,
        List.contains_eq_mem, decide_eq_true_eq]
      by_cases taken : added.name ∈ registry.takenNames
      · have kept : insert added.name registry.takenNames.toFinset = registry.typeNames := by
          rw [names, Finset.insert_eq_of_mem (List.mem_toFinset.2 taken)]
        simp only [taken, not_true, if_true, kept]
        rfl
      · have grown : insert added.name registry.takenNames.toFinset =
            (registry.takenNames ++ [added.name]).toFinset := by
          rw [← List.toFinset_cons]
          exact List.toFinset_eq_of_perm _ _ (List.perm_append_singleton _ _).symm
        simp only [taken, not_false_eq_true, if_true, if_false, Action.run_modify, grown]
        simp [Program.takenNames, Call.handle?]

namespace Registry

/-- What one call does to a registry where all is well. Either it fails, for a reason that the
registry gives, and leaves the registry as it was; or there is none, and what it adds is entered. -/
def Call.Settles (call : Call) (registry : Registry) : Prop :=
  (∃ error, call.Refused registry.toProgram error ∧
    call.run.run.run registry = (.error error, registry)) ∨
  (∀ error, ¬ call.Refused registry.toProgram error) ∧
    ∃ next : Registry, call.run.run.run registry =
        (.ok (call.handle? registry.toProgram), next) ∧
      next.AnswersLike registry.toProgram (call.entry? registry.toProgram) ∧
      next.statements = registry.statements ++ call.stmt?.toList

/-- One call keeps up the invariant. -/
theorem Intact.step (intact : registry.Intact) (call : Call) :
    (call.run.run.run registry).2.Intact := by
  rw [call.run_eq intact.typeNames]
  rcases call.enter_cases registry.toProgram with ⟨next, done, entered⟩ | ⟨error, failed, -⟩
  · simp only [done]
    exact ⟨entered.distinct intact.distinct intact.valid,
      entered.declaresGlobals intact.valid, rfl⟩
  · simpa only [failed] using intact

theorem Intact.settles (intact : registry.Intact) (call : Call) : call.Settles registry := by
  unfold Call.Settles
  rw [call.run_eq intact.typeNames]
  rcases call.enter_cases registry.toProgram with ⟨next, done, entered⟩ | ⟨error, failed, refused⟩
  · refine .inr ⟨entered.not_refused intact.distinct, ⟨next, next.takenNames.toFinset⟩, ?_, ?_, ?_⟩
    · simp only [done]
    · exact entered.answersLike intact.valid
    · exact entered.statements
  · exact .inl ⟨error, refused, by simp only [failed]⟩

/-- One call does not replace the entry point. -/
theorem Intact.main_stays (intact : registry.Intact) (call : Call) {function : Function}
    (set : registry.main = some function) :
    (call.run.run.run registry).2.main = some function := by
  rw [call.run_eq intact.typeNames]
  rcases call.enter_cases registry.toProgram with ⟨next, done, entered⟩ | ⟨error, failed, -⟩
  · simpa only [done] using entered.main_stays set
  · simpa only [failed] using set

theorem intact_new : new.Intact where
  distinct := ⟨.nil, by decide, .nil, nofun, nofun⟩
  valid := nofun
  typeNames := by simp [Program.takenNames, new]

theorem intact_after (calls : List Call) : (after calls).Intact := by
  unfold after
  generalize start : new = registry
  have intact : registry.Intact := start ▸ intact_new
  clear start
  induction calls generalizing registry with
  | nil => exact intact
  | cons call rest ih => exact ih _ (intact.step call)

theorem after_append (calls more : List Call) :
    after (calls ++ more) =
      more.foldl (fun registry call => (call.run.run.run registry).2) (after calls) :=
  List.foldl_append

theorem main_stays_after (calls more : List Call) {function : Function}
    (set : (after calls).main = some function) :
    (after (calls ++ more)).main = some function := by
  rw [after_append]
  have intact := intact_after calls
  generalize after calls = registry at set intact
  induction more generalizing registry with
  | nil => exact set
  | cons call rest ih => exact ih _ (intact.main_stays call set) (intact.step call)

/-- After any calls, names are told apart and those of types are the ones taken; an entry point is
never replaced; and any further call is either refused, and changes nothing, or enters what it adds
and nothing else. It does to the program just what is done to a program that is read. -/
theorem after_settles (calls : List Call) :
    (after calls).Intact ∧
      (∀ more, ∀ function ∈ (after calls).main, function ∈ (after (calls ++ more)).main) ∧
      ∀ call : Call, call.Settles (after calls) ∧
        call.enter (after calls).toProgram =
          match call.run.run.run (after calls) with
          | (.ok _, next) => .ok next.toProgram
          | (.error error, _) => .error error := by
  refine ⟨intact_after calls, fun more function set => main_stays_after calls more set,
    fun call => ⟨(intact_after calls).settles call, ?_⟩⟩
  rw [call.run_eq (intact_after calls).typeNames]
  cases call.enter (after calls).toProgram <;> rfl

end Registry

end Running

end Offside
