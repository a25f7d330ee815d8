import Offside.Proofs.Traversal.Surveying
import Offside.Proofs.Typing.Sources
import Mathlib.Data.List.Pairwise

/-! # A full trace goes by every node

The visit of a node notes the node and then surveys its parts, whatever it is. So the trace of a
whole program comes by all there is in it, once and in order, and tells at each node what it stands
inside of.
-/

namespace Offside

/-- Whether an event is noted when a node is left. -/
def TraceEvent.closes : TraceEvent → Bool
  | endFunction _ | endRecord _ | endBlock => true
  | _ => false

/-- The entries of a trace that are noted when nodes are come to. -/
def Trace.openings (trace : Trace) : List TraceEntry :=
  trace.toList.filter fun entry => !entry.event.closes

/-- Wherever it is started, a visit notes some events and then surveys some branchings. The variable
declarations that it comes by are those with certain handles. -/
def Surveys {α : Type} (program : Program) (events : List TraceEvent) (parts : List Branching)
    (handles : List VarId) (visit : Visit Trace α) : Prop :=
  ∀ index base state, state.context = Context.innermost base →
    ∃ value after sightings, visit.run.run state = (.ok value, { state with inner := after }) ∧
      Enumerates program index parts sightings ∧
      sightings.filterMap (fun sighting => sighting.node.varDecl?) =
        handles.filterMap program.decl? ∧
      after.openings = state.inner.openings ++
        events.map (fun event => ⟨event, Context.innermost base⟩) ++
        sightings.flatMap (Sighting.entries base)

namespace Surveys

variable {program : Program} {events : List TraceEvent} {parts more : List Branching}
  {handles others : List VarId} {α β : Type}

theorem nothing (value : α) : Surveys program [] [] [] (pure value : Visit Trace α) :=
  fun _ _ state _ => ⟨value, state.inner, [], rfl, .nil, rfl, by simp⟩

theorem bind {visit : Visit Trace α} {next : α → Visit Trace β}
    (h : Surveys program events parts handles visit)
    (h' : ∀ value, Surveys program [] more others (next value)) :
    Surveys program events (parts ++ more) (handles ++ others) (visit >>= next) := by
  intro index base state context
  obtain ⟨value, mid, sightings, ran, enumerates, declared, noted⟩ := h index base state context
  obtain ⟨value', after, sightings', ran', enumerates', declared', noted'⟩ :=
    h' value (index + parts.length) base { state with inner := mid } context
  refine ⟨value', after, sightings ++ sightings', ?_, enumerates.append enumerates', ?_, ?_⟩
  · rw [Action.run_bind, ran]
    exact ran'
  · rw [List.filterMap_append, declared, declared', List.filterMap_append]
  · simp [noted', noted]

/-- The value that a visit returns does not matter. -/
theorem map {visit : Visit Trace α} (view : α → β)
    (h : Surveys program events parts handles visit) :
    Surveys program events parts handles (view <$> visit) := by
  rw [map_eq_pure_bind]
  simpa using h.bind fun value => nothing (view value)

/-- An event that is noted before everything else. -/
theorem noting {visit : Visit Trace α} {event : TraceEvent} (opens : event.closes = false)
    (h : Surveys program events parts handles visit) :
    Surveys program (event :: events) parts handles (Trace.note event >>= fun _ => visit) := by
  intro index base state context
  obtain ⟨value, after, sightings, ran, enumerates, declared, noted⟩ :=
    h index base { state with inner := state.inner.push ⟨event, state.context⟩ } context
  refine ⟨value, after, sightings, ran, enumerates, declared, ?_⟩
  rw [noted]
  simp [Trace.openings, opens, context]

/-- An event that is noted in other words. -/
theorem noting_as {visit : Visit Trace α} {event noted : TraceEvent} (same : noted = event)
    (opens : event.closes = false) (h : Surveys program events parts handles visit) :
    Surveys program (event :: events) parts handles (Trace.note noted >>= fun _ => visit) :=
  same ▸ noting (same ▸ opens) h

/-- An event that is noted when a node is left does not show among the others. -/
theorem closing {visit : Visit Trace α} {event : TraceEvent} (closes : event.closes = true)
    (h : Surveys program events parts handles visit) :
    Surveys program events parts handles (visit >>= fun _ => Trace.note event) := by
  intro index base state context
  obtain ⟨value, after, sightings, ran, enumerates, declared, noted⟩ := h index base state context
  refine ⟨(), after.push ⟨event, state.context⟩, sightings, ?_, enumerates, declared, ?_⟩
  · rw [Action.run_bind, ran]
    rfl
  · simpa [Trace.openings, closes] using noted

/-- Visits of some things, one after the other. -/
theorem forM {items : List α} {visit : α → Visit Trace PUnit} {parts : α → List Branching}
    {handles : α → List VarId}
    (h : ∀ item ∈ items, Surveys program [] (parts item) (handles item) (visit item)) :
    Surveys program [] (items.flatMap parts) (items.flatMap handles) (items.forM visit) := by
  induction items with
  | nil => exact nothing _
  | cons item rest ih =>
      simp only [List.forall_mem_cons] at h
      exact h.1.bind fun _ => ih h.2

/-- What does not depend on the indices of some things can do without them. -/
theorem map_fst_zipIdx {items : List α} (view : α → β) :
    (items.zipIdx.map fun item => view item.1) = items.map view := by
  conv_rhs => rw [← List.zipIdx_map_fst 0 items, List.map_map]
  rfl

/-- Visits of some things and their indices, one after the other. -/
theorem forM_zipIdx {items : List α} {visit : α × Nat → Visit Trace PUnit}
    {view : α × Nat → Branching} {handles : α → List VarId}
    (h : ∀ item ∈ items, ∀ index,
      Surveys program [] [view (item, index)] (handles item) (visit (item, index))) :
    Surveys program [] (items.zipIdx.map view) (items.flatMap handles)
      (items.zipIdx.forM visit) := by
  have each : ∀ item ∈ items.zipIdx,
      Surveys program [] [view item] (handles item.1) (visit item) :=
    fun item member => h item.1 (List.fst_mem_of_mem_zipIdx member) item.2
  have all := forM each
  rw [← List.map_eq_flatMap] at all
  rw [← List.flatMap_map, List.zipIdx_map_fst] at all
  exact all

/-- The visit of a node that notes it and surveys its parts surveys the node, which may be the
variable declaration with a certain handle. -/
theorem declaring {node : Node} {visit : Visit Trace α} {id? : Option VarId}
    (own : id?.bind program.decl? = node.varDecl?)
    (h : Surveys program node.events (node.parts program) handles visit) :
    Surveys program [] [node.here] (id?.toList ++ handles) visit := by
  intro index base state context
  obtain ⟨value, after, sightings, ran, enumerates, declared, noted⟩ := h 0 base state context
  refine ⟨value, after, _, ran, enumerates.above, ?_, ?_⟩
  · rw [List.filterMap_cons, List.filterMap_map, List.filterMap_append, ← declared, ← own]
    cases id? with
    | none => rfl
    | some id => cases found : program.decl? id <;> simp [found] <;> rfl
  · have same : ∀ sighting : Sighting, (sighting.below index).entries base =
        sighting.entries base :=
      fun _ => rfl
    have first : Sighting.entries base ⟨[index], node, []⟩ =
        node.events.map fun event => ⟨event, Context.innermost base⟩ := rfl
    rw [noted, List.flatMap_cons, List.flatMap_map]
    simp [same, first]

theorem node {node : Node} {visit : Visit Trace α} (own : node.varDecl? = none)
    (h : Surveys program node.events (node.parts program) handles visit) :
    Surveys program [] [node.here] handles visit := by
  have without : (none : Option VarId).bind program.decl? = node.varDecl? := own.symm
  exact declaring without h

/-- A visit inside of something. -/
theorem within {nodes : List Node} {visit : Visit Trace α} (boundary : Boundary)
    {before : TraversalState Trace → TraversalState Trace}
    {after : TraversalState Trace → TraversalState Trace → TraversalState Trace}
    (enters : ∀ base state, state.context = Context.innermost base →
      before state = { state with context := Context.innermost (boundary :: base) })
    (leaves : ∀ state inner, after state { before state with inner } = { state with inner })
    (h : Surveys program [] (nodes.map Node.here) handles visit) :
    Surveys program [] (nodes.map (Node.within boundary)) handles
      (Visit.between before after visit) := by
  intro index base state context
  have entered := enters base state context
  obtain ⟨value, final, sightings, ran, enumerates, declared, noted⟩ :=
    h index (boundary :: base) (before state) (by rw [entered])
  refine ⟨value, final, _, ?_, enumerates.within boundary, ?_, ?_⟩
  · rw [Visit.run_between, ran, leaves]
  · rw [List.filterMap_map, ← declared]
    rfl
  · have same : ∀ sighting : Sighting, (sighting.inside boundary).entries base =
        sighting.entries (boundary :: base) := by
      simp [Sighting.entries, Sighting.inside]
    rw [noted, entered, List.flatMap_map]
    simp [same]

theorem inFunction {nodes : List Node} {visit : Visit Trace α} (function : Function)
    (h : Surveys program [] (nodes.map Node.here) handles visit) :
    Surveys program [] (nodes.map (Node.within (.function function))) handles
      (Visit.inFunction (some function) visit) :=
  h.within _ (fun base state context => by rw [context]; rfl) fun _ _ => rfl

theorem inRecord {nodes : List Node} {visit : Visit Trace α} (record : RecordDecl)
    (h : Surveys program [] (nodes.map Node.here) handles visit) :
    Surveys program [] (nodes.map (Node.within (.record record))) handles
      (Visit.inRecord (some record) visit) :=
  h.within _ (fun base state context => by rw [context]; rfl) fun _ _ => rfl

theorem inBlock {nodes : List Node} {visit : Visit Trace α} (block : Block)
    (h : Surveys program [] (nodes.map Node.here) handles visit) :
    Surveys program [] (nodes.map (Node.within (.block block))) handles
      (Visit.inBlock (some block) visit) :=
  h.within _ (fun base state context => by rw [context]; rfl) fun _ _ => rfl

theorem inLoop {node : Node} {visit : Visit Trace α} (loop : Stmt)
    (h : Surveys program [] [node.here] handles visit) :
    Surveys program [] [node.within (.loop loop)] handles (Visit.inLoop (some loop) visit) := by
  have nodes : Surveys program [] ([node].map Node.here) handles visit := h
  exact nodes.within _ (fun base state context => by rw [context]; rfl) (fun _ _ => rfl)

end Surveys

section Exprs

variable {program : Program}

theorem length_elementParts {σ ρ : Type} (handlers : ExprHandlers σ ρ) (address : Address)
    (index : Nat) (values : List Expr) :
    (elementParts handlers address index values).length = values.length := by
  induction values generalizing index with
  | nil => rfl
  | cons value rest ih => simp only [elementParts, List.length_cons, ih]

mutual

/-- The visit of an expression surveys it. -/
theorem traverseExpr_surveys (address : Address) : (expr : Expr) →
    Surveys program [] [(Node.expr expr).here] []
      (traverseExpr (Trace.full none).toExprHandlers address expr)
  | .literal .. => .node rfl (.noting rfl (.noting rfl (.nothing ())))
  | .array values _ =>
    .node rfl (.noting rfl
      (.noting_as (congrArg TraceEvent.array (length_elementParts _ address 0 values)) rfl
        (elementParts_surveys address 0 values)))
  | .reference .. => .node rfl (.noting rfl (.noting rfl (.nothing ())))
  | .binary _ left right _ =>
    .node rfl (.noting rfl (.noting rfl
      ((traverseExpr_surveys _ left).bind fun _ =>
        (traverseExpr_surveys _ right).bind fun _ => .nothing ())))
  | .unary _ operand _ =>
    .node rfl (.noting rfl (.noting rfl (traverseExpr_surveys _ operand)))
  | .call _ args _ =>
    .node rfl (.noting rfl (.noting rfl (argumentParts_surveys address 0 args)))
  | .method receiver _ args _ =>
    .node rfl (.noting rfl (.noting rfl
      ((traverseExpr_surveys _ receiver).bind fun _ => argumentParts_surveys address 0 args)))
  | .property receiver _ _ =>
    .node rfl (.noting rfl (.noting rfl (traverseExpr_surveys _ receiver)))

theorem elementParts_surveys (address : Address) (index : Nat) : (values : List Expr) →
    Surveys program [] (values.map fun value => (Node.expr value).here) []
      (Trace.visitParts (elementParts (Trace.full none).toExprHandlers address index values))
  | [] => .nothing ()
  | value :: rest =>
    (traverseExpr_surveys _ value).bind fun _ => elementParts_surveys address (index + 1) rest

theorem argumentParts_surveys (address : Address) (index : Nat) : (args : List Arg) →
    Surveys program [] ((args.map Arg.value).map fun value => (Node.expr value).here) []
      (Trace.visitParts (argumentParts (Trace.full none).toExprHandlers address index args))
  | [] => .nothing ()
  | ⟨_, value⟩ :: rest =>
    (traverseExpr_surveys _ value).bind fun _ => argumentParts_surveys address (index + 1) rest

end

end Exprs

section Trees

variable {program : Program}

/-- The visit of a declaration notes it and surveys its first value. -/
theorem traverseVarDecl_surveys {id : VarId} {decl : VarDecl}
    (found : program.decl? id = some decl) :
    Surveys program [] [(Node.varDecl decl).here] [id]
      (traverseVarDecl (Trace.full none) decl) := by
  have own : (some id).bind program.decl? = (Node.varDecl decl).varDecl? := found
  refine .declaring own (.noting rfl (.map _ ?_))
  unfold traverseInit
  cases first : decl.init with
  | none => simpa [Node.parts, first] using Surveys.nothing none
  | some init =>
      have visited : Surveys program [] [(Node.expr init).here] [] _ :=
        traverseExpr_surveys (.ofRoot (.initializer decl.id)) init
      simpa [Node.parts, first] using visited.map some

/-- Handles that stand for their declarations, one after the other. -/
theorem forM_handles {ids : List VarId} {view : VarDecl → Node} {visit : VarId → Visit Trace PUnit}
    (valid : ∀ id ∈ ids, (program.decl? id).isSome)
    (h : ∀ id decl, program.decl? id = some decl →
      Surveys program [] [(view decl).here] [id] (visit id)) :
    Surveys program [] (((ids.filterMap program.decl?).map view).map Node.here) ids
      (ids.forM visit) := by
  induction ids with
  | nil => exact .nothing _
  | cons id rest ih =>
      simp only [List.forall_mem_cons] at valid
      obtain ⟨decl, found⟩ := Option.isSome_iff_exists.1 valid.1
      rw [List.filterMap_cons_some found]
      exact (h id decl found).bind fun _ => ih valid.2

/-- A handle is visited by visiting its declaration. -/
theorem traverseHandle_of_decl {id : VarId} {decl : VarDecl}
    (found : program.decl? id = some decl) :
    Surveys program [] [(Node.varDecl decl).here] [id]
      (traverseHandle (Trace.full none) program id) := by
  have visited := traverseVarDecl_surveys found
  simpa [traverseHandle, Program.decl, found, Visit.ofExcept] using visited

/-- A handle stands for its declaration. -/
theorem traverseHandle_surveys {id : VarId} (valid : (program.decl? id).isSome) :
    Surveys program [] ((Node.varDecls program [id]).map Node.here) [id]
      (traverseHandle (Trace.full none) program id) := by
  obtain ⟨decl, found⟩ := Option.isSome_iff_exists.1 valid
  simpa [Node.varDecls, found] using traverseHandle_of_decl found

mutual

/-- The visit of a statement surveys it. -/
theorem traverseStmt_surveys (address : Address) :
    (stmt : Stmt) → (∀ id ∈ stmt.handles, (program.decl? id).isSome) →
      Surveys program [] [(Node.stmt stmt).here] stmt.handles
        (traverseStmt (Trace.full none) program address stmt)
  | .block body, valid => .node rfl (.noting rfl (traverseBlock_surveys _ body valid))
  | .returns value _, _ => .node rfl (.noting rfl (.noting rfl (traverseExpr_surveys _ value)))
  | .branch branches otherwise _, valid => by
    have ⟨inBranches, inOtherwise⟩ := List.forall_mem_append.1 valid
    exact .node rfl (.noting rfl (.noting rfl
      ((traverseBranches_surveys address 0 branches inBranches).bind fun _ =>
        traverseOtherwise_surveys address otherwise inOtherwise)))
  | .forLoop init condition step body _, valid => by
    have ⟨inHeader, inBody⟩ := List.forall_mem_cons.1 valid
    exact .node rfl (.noting rfl (.noting rfl
      ((traverseHandle_surveys inHeader).bind fun _ =>
        ((traverseExpr_surveys _ condition).map _).bind fun _ =>
          ((traverseExpr_surveys _ step).map _).bind fun _ =>
            (traverseBlock_surveys _ body inBody).inLoop _)))
  | .whileLoop condition body _, valid =>
    .node rfl (.noting rfl (.noting rfl
      (((traverseExpr_surveys _ condition).map _).bind fun _ =>
        (traverseBlock_surveys _ body valid).inLoop _)))
  | .expression value, _ => .node rfl (.noting rfl (.noting rfl (traverseExpr_surveys _ value)))
  | .declare decl _, valid =>
    .node rfl (.noting rfl (.noting rfl
      (traverseHandle_surveys (valid decl List.mem_cons_self))))
  | .breakLoop _, _ => .node rfl (.noting rfl (.noting rfl (.nothing ())))
  | .continueLoop _, _ => .node rfl (.noting rfl (.noting rfl (.nothing ())))

/-- The visit of a block surveys it. -/
theorem traverseBlock_surveys (address : Address) :
    (block : Block) → (∀ id ∈ block.handles, (program.decl? id).isSome) →
      Surveys program [] [(Node.block block).here] block.handles
        (traverseBlock (Trace.full none) program address block)
  | ⟨body, _⟩, valid =>
    .node rfl (.noting rfl (.closing rfl
      ((traverseStmts_surveys address 0 body valid).inBlock _)))

theorem traverseStmts_surveys (address : Address) (index : Nat) :
    (stmts : List Stmt) → (∀ id ∈ Stmt.listHandles stmts, (program.decl? id).isSome) →
      Surveys program [] ((stmts.map Node.stmt).map Node.here) (Stmt.listHandles stmts)
        (traverseStmts (Trace.full none) program address index stmts)
  | [], _ => .nothing ()
  | stmt :: rest, valid => by
    have ⟨inStmt, inRest⟩ := List.forall_mem_append.1 valid
    exact (traverseStmt_surveys _ stmt inStmt).bind fun _ =>
      traverseStmts_surveys address (index + 1) rest inRest

theorem traverseBranches_surveys (address : Address)
    (index : Nat) :
    (branches : List Branch) → (∀ id ∈ Branch.listHandles branches, (program.decl? id).isSome) →
      Surveys program []
        (branches.flatMap fun branch =>
          [(Node.expr branch.condition).here, (Node.block branch.body).here])
        (Branch.listHandles branches)
        (traverseBranches (Trace.full none) program address index branches)
  | [], _ => .nothing ()
  | ⟨condition, body⟩ :: rest, valid => by
    have ⟨inBody, inRest⟩ := List.forall_mem_append.1 valid
    exact ((traverseExpr_surveys _ condition).map _).bind fun _ =>
      (traverseBlock_surveys _ body inBody).bind fun _ =>
        traverseBranches_surveys address (index + 1) rest inRest

theorem traverseOtherwise_surveys (address : Address) :
    (otherwise : Option Block) →
      (∀ id ∈ Block.optionHandles otherwise, (program.decl? id).isSome) →
        Surveys program [] (otherwise.toList.map fun body => (Node.block body).here)
          (Block.optionHandles otherwise)
          (traverseOtherwise (Trace.full none) program address otherwise)
  | none, _ => .nothing ()
  | some body, valid => traverseBlock_surveys _ body valid

end

theorem traverseParam_surveys (param : Param)
    (valid : (program.decl? param.decl).isSome) :
    Surveys program [] [(Node.param param).here] [param.decl]
      (traverseParam (Trace.full none) program param) :=
  .node rfl (.noting rfl (traverseHandle_surveys valid))

theorem traverseSignature_surveys (signature : Signature)
    (valid : ∀ id ∈ signature.params.map Param.decl, (program.decl? id).isSome) :
    Surveys program [] [(Node.signature signature).here] (signature.params.map Param.decl)
      (traverseSignature (Trace.full none) program signature) := by
  simp only [List.forall_mem_map] at valid
  have params := Surveys.forM fun param member =>
    traverseParam_surveys param (valid param member)
  simp only [← List.map_eq_flatMap] at params
  exact .node rfl (.noting rfl params)

theorem traverseFunction_surveys (root : Root)
    (function : Function) (valid : ∀ id ∈ function.handles, (program.decl? id).isSome) :
    Surveys program [] [(Node.function function).here] function.handles
      (traverseFunction (Trace.full none) program root function) := by
  have ⟨inSignature, inBody⟩ := List.forall_mem_append.1 valid
  have parts : Surveys program [] ([Node.signature function.signature,
      Node.block function.body].map Node.here) _ _ :=
    (traverseSignature_surveys function.signature inSignature).bind fun _ =>
      traverseBlock_surveys (.ofRoot root) function.body inBody
  exact .node rfl (.noting rfl (.closing rfl (parts.inFunction function)))

theorem traverseRecord_surveys (index : Nat) (record : RecordDecl)
    (valid : ∀ id ∈ record.handles, (program.decl? id).isSome) :
    Surveys program [] [(Node.record record).here] record.handles
      (traverseRecord (Trace.full none) program index record) := by
  have ⟨inProperties, inMethods⟩ := List.forall_mem_append.1 valid
  have properties : Surveys program [] ((Node.varDecls program record.properties).map Node.here)
      record.properties (record.properties.forM (traverseHandle (Trace.full none) program)) :=
    forM_handles inProperties fun _ _ found => traverseHandle_of_decl found
  have methods : Surveys program []
      (record.methods.zipIdx.map fun item => (Node.function item.1).here)
      (record.methods.flatMap Function.handles)
      (record.methods.zipIdx.forM fun item =>
        traverseFunction (Trace.full none) program (.method index item.2) item.1) :=
    .forM_zipIdx fun method member methodIndex =>
      traverseFunction_surveys (.method index methodIndex) method fun id held =>
        inMethods id (List.mem_flatMap.2 ⟨method, member, held⟩)
  have members := properties.bind fun _ => methods
  have same : (record.methods.zipIdx.map fun item => (Node.function item.1).here) =
      (record.methods.map Node.function).map Node.here := by
    rw [Surveys.map_fst_zipIdx fun method => (Node.function method).here, List.map_map]
    rfl
  rw [same, ← List.map_append] at members
  exact .node rfl (.noting rfl (.closing rfl (members.inRecord record)))

theorem traverseGlobal_surveys {id : VarId} {decl : VarDecl}
    (found : program.decl? id = some decl) :
    Surveys program [] [(Node.item (.var decl)).here] [id] (do
      traverseDecl (Trace.full none) program (.var (← Visit.ofExcept (program.decl id)))) := by
  have visited : Surveys program [] [(Node.item (.var decl)).here] [id]
      (traverseDecl (Trace.full none) program (.var decl)) :=
    .node rfl (.noting rfl (traverseVarDecl_surveys found))
  simpa [Program.decl, found, Visit.ofExcept] using visited

theorem traverseRecords_surveys
    (valid : ∀ record ∈ program.records, ∀ id ∈ record.handles, (program.decl? id).isSome) :
    Surveys program []
      (program.records.zipIdx.map fun item => (Node.item (.record item.2 item.1)).here)
      (program.records.flatMap RecordDecl.handles)
      (program.records.zipIdx.forM fun (record, index) =>
        traverseDecl (Trace.full none) program (.record index record)) :=
  .forM_zipIdx fun record member index =>
    .node rfl (.noting rfl (traverseRecord_surveys index record (valid record member)))

theorem traverseFunctions_surveys
    (valid : ∀ function ∈ program.functions, ∀ id ∈ function.handles,
      (program.decl? id).isSome) :
    Surveys program []
      (program.functions.zipIdx.map fun item =>
        (Node.item (.function (.function item.2) item.1)).here)
      (program.functions.flatMap Function.handles)
      (program.functions.zipIdx.forM fun (function, index) =>
        traverseDecl (Trace.full none) program (.function (.function index) function)) :=
  .forM_zipIdx fun function member index =>
    .node rfl (.noting rfl
      (traverseFunction_surveys (.function index) function (valid function member)))

theorem traverseMain_surveys
    (valid : ∀ function ∈ program.main.toList, ∀ id ∈ function.handles,
      (program.decl? id).isSome) :
    Surveys program []
      (program.main.toList.flatMap fun function => [(Node.item (.function .main function)).here])
      (program.main.toList.flatMap Function.handles)
      (program.main.toList.forM fun function =>
        traverseDecl (Trace.full none) program (.function .main function)) :=
  .forM fun function member =>
    .node rfl (.noting rfl (traverseFunction_surveys .main function (valid function member)))

theorem traverseStatements_surveys
    (valid : ∀ id ∈ Stmt.listHandles program.statements, (program.decl? id).isSome) :
    Surveys program [] (program.statements.zipIdx.map fun item => (Node.stmt item.1).here)
      (program.statements.flatMap Stmt.handles)
      (program.statements.zipIdx.forM fun (stmt, index) =>
        traverseStmt (Trace.full none) program (.ofRoot (.statement index)) stmt) := by
  rw [Stmt.listHandles_eq_flatMap] at valid
  exact .forM_zipIdx fun stmt member index =>
    traverseStmt_surveys (.ofRoot (.statement index)) stmt fun id held =>
      valid id (List.mem_flatMap.2 ⟨stmt, member, held⟩)

/-- The visit of a whole program surveys all that stands at its top level. -/
theorem traverseProgram_surveys (coherent : program.Coherent) :
    Surveys program [] (Node.program.parts program) program.handles
      (traverseProgram (Trace.full none) program) := by
  have valid : ∀ id ∈ program.handles, (program.decl? id).isSome :=
    fun _ => coherent.mem_handles.1
  simp only [Program.handles, List.forall_mem_append, List.forall_mem_flatMap] at valid
  obtain ⟨⟨⟨⟨inGlobals, inRecords⟩, inFunctions⟩, inMain⟩, inStatements⟩ := valid
  have surveyed := (forM_handles inGlobals fun _ _ => traverseGlobal_surveys).bind fun _ =>
    (traverseRecords_surveys inRecords).bind fun _ =>
      (traverseFunctions_surveys inFunctions).bind fun _ =>
        (traverseMain_surveys inMain).bind fun _ => traverseStatements_surveys inStatements
  rw [← Stmt.listHandles_eq_flatMap, ← List.map_eq_flatMap,
    Surveys.map_fst_zipIdx fun stmt => (Node.stmt stmt).here] at surveyed
  simp only [Program.handles, List.append_assoc]
  convert surveyed using 1
  · simp [Node.parts, Node.items, Function.comp_def]
  · rfl

end Trees

/-- Handles that are told apart stand for declarations that are. -/
theorem Program.Coherent.nodup_decls {program : Program} (coherent : program.Coherent) :
    (program.handles.filterMap program.decl?).Nodup := by
  refine coherent.nodup_handles.filterMap fun id other decl found found' => ?_
  rw [← coherent.id_eq found, coherent.id_eq found']

/-- What is seen of some items at most once each is seen of one item only. -/
theorem eq_of_nodup_filterMap {α β : Type} {items : List α} {view : α → Option β}
    (distinct : (items.filterMap view).Nodup) {item other : α} (listed : item ∈ items)
    (listed' : other ∈ items) {seen : β} (same : view item = some seen)
    (same' : view other = some seen) : item = other := by
  by_contra differ
  let apart (item other : α) : Prop :=
    ∀ seen, view item = some seen → ∀ seen', view other = some seen' → seen ≠ seen'
  have symmetric : Std.Symm apart :=
    ⟨fun _ _ h seen same seen' same' => (h seen' same' seen same).symm⟩
  have pairwise : items.Pairwise apart := List.pairwise_filterMap.1 distinct
  exact pairwise.forall listed listed' differ seen same seen same' rfl

section Listings

variable {program : Program} {sightings : List Sighting}
  (enumerates : Enumerates program 0 (Node.program.parts program) sightings)

include enumerates

/-- The sightings of a whole program are what is found at paths that lead somewhere. -/
theorem Enumerates.mem_iff_nodeAt? {sighting : Sighting} : sighting ∈ sightings ↔
      sighting.path ≠ [] ∧
        program.nodeAt? sighting.path = some (sighting.node, sighting.outer) := by
  rw [enumerates.complete, sights_parts_iff]
  rfl

theorem Enumerates.mem_paths {path : List Nat} :
    path ∈ [] :: sightings.map Sighting.path ↔ (program.nodeAt? path).isSome := by
  rw [List.mem_cons, List.mem_map]
  constructor
  · rintro (rfl | ⟨sighting, member, rfl⟩)
    · rfl
    · simp [(enumerates.mem_iff_nodeAt?.1 member).2]
  · intro found
    by_cases empty : path = []
    · exact .inl empty
    · obtain ⟨⟨node, outer⟩, found⟩ := Option.isSome_iff_exists.1 found
      have member : ⟨path, node, outer⟩ ∈ sightings :=
        enumerates.mem_iff_nodeAt?.2 ⟨empty, found⟩
      exact .inr ⟨_, member, rfl⟩

theorem Enumerates.entriesAt_eq :
    ([] :: sightings.map Sighting.path).flatMap program.entriesAt =
      sightings.flatMap (Sighting.entries []) := by
  have root : program.entriesAt [] = [] := rfl
  have each : ∀ sighting ∈ sightings,
      program.entriesAt sighting.path = sighting.entries [] := by
    intro sighting member
    simp [Program.entriesAt, (enumerates.mem_iff_nodeAt?.1 member).2, Sighting.entries]
  rw [List.flatMap_cons, root, List.nil_append, List.flatMap_map]
  exact List.flatMap_congr each

/-- A declaration that is listed once is found at one path. -/
theorem Enumerates.existsUnique_path
    (coherent : program.Coherent)
    (declared : sightings.filterMap (fun sighting => sighting.node.varDecl?) =
      program.handles.filterMap program.decl?) {id : VarId} {decl : VarDecl}
    (found : program.decl? id = some decl) :
    ∃! path, ∃ outer, program.nodeAt? path = some (.varDecl decl, outer) := by
  have held : id ∈ program.handles := coherent.mem_handles.2 (by simp [found])
  have member : decl ∈ sightings.filterMap fun sighting => sighting.node.varDecl? := by
    rw [declared]
    exact List.mem_filterMap.2 ⟨id, held, found⟩
  have distinct : (sightings.filterMap fun sighting => sighting.node.varDecl?).Nodup := by
    rw [declared]
    exact coherent.nodup_decls
  obtain ⟨⟨path, node, outer⟩, listed, same⟩ := List.mem_filterMap.1 member
  obtain rfl : node = .varDecl decl := by
    cases node <;> cases same
    rfl
  refine ⟨path, ⟨outer, (enumerates.mem_iff_nodeAt?.1 listed).2⟩, ?_⟩
  rintro other ⟨outer', there⟩
  have nonempty : other ≠ [] := by
    rintro rfl
    cases there
  have listed' : ⟨other, .varDecl decl, outer'⟩ ∈ sightings :=
    enumerates.mem_iff_nodeAt?.2 ⟨nonempty, there⟩
  exact congrArg Sighting.path (eq_of_nodup_filterMap distinct listed' listed rfl same)

end Listings

namespace Program

/-- A full trace of a program that has been read comes by every node once, in the order of the paths
that lead to the nodes, and notes what the nodes stand inside of. Each declaration is come by at one
path. -/
theorem fullTrace_complete {source file : String} {program : Program}
    (read : Program.ofSource source file = .ok program) :
    ∃ (paths : List (List Nat)) (trace : Trace),
      paths.Pairwise (· < ·) ∧
      (∀ path, path ∈ paths ↔ (program.nodeAt? path).isSome) ∧
      Trace.run (traverseProgram (Trace.full none) program) = (.ok (), trace, {}) ∧
      trace.openings = paths.flatMap program.entriesAt ∧
      ∀ id decl, program.decl? id = some decl →
        ∃! path, ∃ outer, program.nodeAt? path = some (.varDecl decl, outer) := by
  have coherent := coherent_of_ofSource read
  obtain ⟨⟨⟩, trace, sightings, ran, enumerates, declared, noted⟩ :=
    traverseProgram_surveys coherent 0 [] { inner := #[] } rfl
  refine ⟨[] :: sightings.map Sighting.path, trace, ?_, fun path => enumerates.mem_paths, ?_, ?_,
    fun id decl found => enumerates.existsUnique_path coherent declared found⟩
  · refine List.pairwise_cons.2 ⟨?_, enumerates.sorted⟩
    rintro _ member
    obtain ⟨sighting, listed, rfl⟩ := List.mem_map.1 member
    obtain ⟨-, -⟩ := (enumerates.complete sighting).1 listed
    exact List.nil_lt_cons _ _
  · have same : (traverseProgram (Trace.full none) program).run { inner := #[] } = _ := ran
    rw [Trace.run, same]
  · rw [noted, enumerates.entriesAt_eq]
    rfl

/-- The trace of a program with a method, a loop in it and a free statement. -/
theorem fullTrace_complete_methods : ∃ program,
    Program.ofSource
      ("hotpot Pot\n    size: int = 1\n    def grow(by: int): int\n" ++
        "        for i: int = 0, i < by, i = i + 1:\n            size = size + i\n" ++
        "        return size\nprint(text: [1, 2])\n") "pot" = .ok program ∧
    ∃ (paths : List (List Nat)) (trace : Trace),
      paths.Pairwise (· < ·) ∧
      (∀ path, path ∈ paths ↔ (program.nodeAt? path).isSome) ∧
      Trace.run (traverseProgram (Trace.full none) program) = (.ok (), trace, {}) ∧
      trace.openings = paths.flatMap program.entriesAt ∧
      ∀ id decl, program.decl? id = some decl →
        ∃! path, ∃ outer, program.nodeAt? path = some (.varDecl decl, outer) := by
  have reads : (Program.ofSource
      ("hotpot Pot\n    size: int = 1\n    def grow(by: int): int\n" ++
        "        for i: int = 0, i < by, i = i + 1:\n            size = size + i\n" ++
        "        return size\nprint(text: [1, 2])\n") "pot").isOk = true := by
    decide +kernel
  obtain ⟨program, read⟩ := exists_ok_of_isOk reads
  exact ⟨program, read, fullTrace_complete read⟩

end Program

end Offside
