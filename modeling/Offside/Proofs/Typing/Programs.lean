import Offside.Proofs.Typing.Statements
import Offside.Typing.Analysis

/-! # Programs are judged by the rules

Functions and record types are visited where nothing but themselves surrounds their parts, and the
parts of a program where nothing does. The analysis of a program is what its visit leaves behind.
-/

namespace Offside

open Rules

variable {program : Program} {lookup : LocalLookup} {place : Place} {α : Type}

/-- Items that are judged one by one are judged one after the other. -/
theorem judges_forM {visit : α → Check Unit} {sites : α → List Site} {holds : α → Prop}
    (items : List α)
    (h : ∀ item ∈ items, Judges program lookup place place none (sites item)
      ((sites item).flatMap Site.cells) (fun _ => holds item) (¬ holds item) (visit item)) :
    Judges program lookup place place none (items.flatMap sites)
      ((items.flatMap sites).flatMap Site.cells) (fun _ => ∀ item ∈ items, holds item)
      (¬ ∀ item ∈ items, holds item) (items.forM visit) := by
  induction items with
  | nil => exact .pure (by simp)
  | cons item rest ih =>
      simp only [List.flatMap_cons, List.flatMap_append, List.forall_mem_cons] at h ⊢
      refine (h.1.mono (by simp) (fun _ => id) fun untyped typed => untyped typed.1).bind
        (fun _ first => ?_) id
      exact (ih h.2).mono (by simp) (fun _ others => ⟨first, others⟩)
        fun untyped typed => untyped typed.2

/-- Items are judged one after the other also if their visits depend on their indices. -/
theorem judges_forM_zipIdx {visit : α → Nat → Check Unit} {sites : α → Nat → List Site}
    {holds : α → Prop} (items : List α)
    (h : ∀ item ∈ items, ∀ index, Judges program lookup place place none (sites item index)
      ((sites item index).flatMap Site.cells) (fun _ => holds item) (¬ holds item)
      (visit item index)) :
    Judges program lookup place place none
      (items.zipIdx.flatMap fun (item, index) => sites item index)
      ((items.zipIdx.flatMap fun (item, index) => sites item index).flatMap Site.cells)
      (fun _ => ∀ item ∈ items, holds item) (¬ ∀ item ∈ items, holds item)
      (items.zipIdx.forM fun (item, index) => visit item index) := by
  have indexed : (∀ pair ∈ items.zipIdx, holds pair.1) ↔ ∀ item ∈ items, holds item := by
    rw [← List.forall_mem_map (f := Prod.fst) (P := holds), List.zipIdx_map_fst]
  rw [← indexed]
  exact judges_forM items.zipIdx fun pair member =>
    h pair.1 (List.fst_mem_of_mem_zipIdx member) pair.2

section Parts

variable {function : Function}

theorem param_judged (coherent : program.Coherent) (hplace : place.Declared program)
    (param : Param) (valid : (program.decl? param.decl).isSome) :
    Judges program lookup (place.inFunction function) (place.inFunction function) none
      (param.decl.sites program (place.inFunction function))
      ((param.decl.sites program (place.inFunction function)).flatMap Site.cells)
      (fun _ => param.decl.WellTyped program lookup (place.inFunction function))
      (¬ param.decl.WellTyped program lookup (place.inFunction function))
      (traverseParam (rules program lookup) program param) := by
  obtain ⟨decl, hdecl⟩ := Option.isSome_iff_exists.1 valid
  have sites : param.decl.sites program (place.inFunction function) =
      decl.sites (place.inFunction function) := by simp [VarId.sites, hdecl]
  have wellTyped : param.decl.WellTyped program lookup (place.inFunction function) ↔
      decl.WellTyped program lookup (place.inFunction function) := by
    simp [VarId.WellTyped, hdecl]
  rw [sites, wellTyped]
  simp only [traverseParam, rules, Rules.param, Program.decl, hdecl, Visit.ofExcept, pure_bind]
  refine (varDecl_judged coherent (hplace.inFunction function) (.pure trivial)).bind_last
    (fun _ typed => ?_) id
  refine judges_context.bind_nil ?_ False.elim
  rintro context ⟨hfunction, -, -⟩
  -- A parameter is visited inside its function, so it is local to that function.
  rw [scopeOf, hfunction]
  exact .pure typed

theorem function_judged (coherent : program.Coherent) (hplace : place.Declared program)
    (root : Root) (function : Function)
    (valid : ∀ id ∈ function.handles, (program.decl? id).isSome) :
    Judges program lookup place place none (function.sites program place root)
      ((function.sites program place root).flatMap Site.cells)
      (fun _ => function.WellTyped program lookup place)
      (¬ function.WellTyped program lookup place)
      (traverseFunction (rules program lookup) program root function) := by
  simp only [Function.handles, List.forall_mem_append, List.forall_mem_map] at valid
  have params : Judges program lookup (place.inFunction function) _ none _ _ _ _ _ :=
    judges_forM function.signature.params fun param member =>
      param_judged coherent hplace param (valid.1 param member)
  have body : Judges program lookup (place.inFunction function) _ none _ _ _ _ _ :=
    function.body.judged coherent (hplace.inFunction function)
      (by simp [Place.scope, Place.inFunction]) (.ofRoot root) valid.2
  have parts : Judges program lookup place place none (function.sites program place root)
      ((function.sites program place root).flatMap Site.cells)
      (fun _ => (∀ param ∈ function.signature.params,
          param.decl.WellTyped program lookup (place.inFunction function)) ∧
        function.body.WellTyped program lookup (place.inFunction function))
      (¬ function.WellTyped program lookup place)
      (Visit.inFunction (some function) do
        traverseSignature (rules program lookup) program function.signature
        traverseBlock (rules program lookup) program (.ofRoot root) function.body) := by
    refine judges_inFunction ?_
    rw [Function.sites, List.flatMap_append]
    refine (params.mono (by simp) (fun _ => id) fun untyped typed =>
      untyped typed.params).bind (fun _ params => ?_) id
    exact body.mono (by simp) (fun _ body => ⟨params, body⟩) fun untyped typed =>
      untyped typed.body
  refine judges_requireKnown.bind_nil (fun _ known => ?_) fun unknown typed =>
    unknown typed.returnType
  refine parts.bind_last (fun _ typed => ?_) id
  split
  · next open_ =>
    refine .fail rfl fun wellTyped => ?_
    have := wellTyped.returns
    simp_all
  · next closed =>
    refine .pure ⟨known, typed.1, typed.2, ?_⟩
    simpa [Decidable.or_iff_not_imp_left] using closed

theorem parent_judged {sites : List Site} (record : RecordDecl) :
    Judges program lookup place place none sites []
      (fun _ => ∀ name, record.parent = some name →
        name.text ≠ record.name ∧ (program.record? name.text).isSome)
      (¬ ∀ name, record.parent = some name →
        name.text ≠ record.name ∧ (program.record? name.text).isSome)
      (Rules.parent program record) := by
  unfold Rules.parent
  cases record.parent with
  | none => exact .pure (by simp)
  | some name =>
      simp only [Option.some.injEq, forall_eq']
      split
      · next bad => exact .fail rfl (by simpa [Decidable.imp_iff_not_or] using bad)
      · next good => exact .pure (by simpa [not_or, Option.isSome_iff_ne_none] using good)

theorem record_judged (coherent : program.Coherent) (index : Nat) (record : RecordDecl)
    (member : record ∈ program.records)
    (valid : ∀ id ∈ record.handles, (program.decl? id).isSome) :
    Judges program lookup {} {} none (record.sites program index)
      ((record.sites program index).flatMap Site.cells)
      (fun _ => record.WellTyped program lookup) (¬ record.WellTyped program lookup)
      (traverseRecord (rules program lookup) program index record) := by
  simp only [RecordDecl.handles, List.forall_mem_append, List.forall_mem_flatMap] at valid
  have hplace : (Place.inRecord {} record).Declared program := by
    rintro other ⟨⟩
    exact member
  have properties : Judges program lookup (Place.inRecord {} record) _ none _ _ _ _ _ :=
    judges_forM record.properties fun id listed =>
      handle_judged coherent hplace (valid.1 id listed) (.nowhere rfl) fun _ _ => rfl
  have methods : Judges program lookup (Place.inRecord {} record) _ none _ _ _ _ _ :=
    judges_forM_zipIdx record.methods fun method listed methodIndex =>
      function_judged coherent hplace (.method index methodIndex) method (valid.2 method listed)
  refine (parent_judged record).bind_nil (fun _ parent => ?_) fun bad typed => bad typed.parent
  refine judges_inRecord member ?_
  rw [RecordDecl.sites, List.flatMap_append]
  refine (properties.mono (by simp) (fun _ => id) fun untyped typed =>
    untyped typed.properties).bind (fun _ properties => ?_) id
  exact methods.mono (by simp) (fun _ methods => ⟨parent, properties, methods⟩)
    fun untyped typed => untyped typed.methods

end Parts

/-- The program is judged by the rules, as a whole. -/
theorem program_judged (coherent : program.Coherent) :
    Judges program lookup {} {} none program.sites program.cells
      (fun _ => program.WellTyped lookup) (¬ program.WellTyped lookup)
      (traverseProgram (rules program lookup) program) := by
  have valid : ∀ id ∈ program.handles, (program.decl? id).isSome := fun _ =>
    coherent.mem_handles.1
  simp only [Program.handles, Stmt.listHandles_eq_flatMap, List.forall_mem_append,
    List.forall_mem_flatMap] at valid
  have empty : Place.Declared program {} := by simp [Place.Declared]
  have globals : Judges program lookup {} _ none _ _ _ _ (program.globals.forM fun id => do
      traverseDecl (rules program lookup) program (.var (← Visit.ofExcept (program.decl id)))) :=
    judges_forM program.globals fun id listed =>
      handle_judged coherent empty (valid.1.1.1.1 id listed) (.nowhere rfl) fun _ _ => rfl
  have records : Judges program lookup {} _ none _ _ _ _ _ :=
    judges_forM_zipIdx program.records fun record member index =>
      record_judged coherent index record member (valid.1.1.1.2 record member)
  have functions : Judges program lookup {} _ none _ _ _ _ _ :=
    judges_forM_zipIdx program.functions fun function member index =>
      function_judged coherent empty (.function index) function (valid.1.1.2 function member)
  have main : Judges program lookup {} _ none _ _ _ _ _ :=
    judges_forM program.main.toList fun function member =>
      function_judged coherent empty .main function (valid.1.2 function member)
  have statements : Judges program lookup {} _ none _ _ _ _ _ :=
    judges_forM_zipIdx program.statements fun stmt member index =>
      stmt.judged coherent empty (by simp [Place.scope]) (.ofRoot (.statement index))
        (valid.2 stmt member) (.nowhere rfl)
  unfold Program.cells Program.sites
  simp only [List.flatMap_append, List.append_assoc]
  refine (globals.mono (by simp) (fun _ => id) fun untyped typed =>
    untyped typed.globals).bind (fun _ globals => ?_) id
  refine (records.mono (fun _ member => by simp [member]) (fun _ => id) fun untyped typed =>
    untyped typed.records).bind (fun _ records => ?_) id
  refine (functions.mono (fun _ member => by simp [member]) (fun _ => id) fun untyped typed =>
    untyped typed.functions).bind (fun _ functions => ?_) id
  refine (main.mono (fun _ member => by simp [member]) (fun _ => id) fun untyped typed =>
    untyped fun function member => typed.main function (by simpa using member)).bind
    (fun _ main => ?_) id
  exact statements.mono (fun _ member => by simp [member])
    (fun _ statements => ⟨globals, records, functions, fun function member =>
      main function (by simpa using member), statements⟩) fun untyped typed =>
      untyped typed.statements

end Offside
