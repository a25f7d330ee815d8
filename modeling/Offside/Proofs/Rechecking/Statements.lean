import Offside.Proofs.Rechecking.Expressions

/-! # Statements cell by cell

From expressions, the comparison of the two visits goes on to declarations, statements, functions
and record types, and in the end to the whole program.
-/

namespace Offside

namespace Cells

variable {annotations : Annotations} {given : Prop} {state : TraversalState TypingState}
  {program : Program} {lookup : LocalLookup} {α : Type}

theorem withPending_fills {β γ : Type} {visit : Rules.Check β} {filling : Rules.Check γ}
    {related : β → γ → Annotations → Prop} (element : Option DataType)
    (h : ∀ state, Fills annotations given state visit filling related) :
    Fills annotations given state (Rules.withPending element visit)
      (Rules.withPending element filling) related :=
  (h _).between rfl (fun _ => rfl) fun _ kept => kept

theorem traverseInit_fills (decl : VarDecl) (state : TraversalState TypingState) :
    Fills annotations True state (traverseInit (Rules.exprs program lookup) decl)
      (traverseInit (exprs annotations program lookup) decl)
      fun typed? address? held => ∀ init, decl.init = some init → ∃ typed address,
        typed? = some typed ∧ address? = some address ∧ Tells init typed address held := by
  unfold traverseInit
  cases decl.init with
  | none => exact .pure fun _ => nofun
  | some init =>
      refine (traverseExpr_fills _ init state).bind fun typed address after => .pure ?_
      intro holds other same
      cases same
      exact ⟨typed, address, rfl, rfl, holds.2.2⟩

theorem silent_declareLocal (name : String) (id : VarId) :
    Silent (Rules.declareLocal name id) := by
  rintro ⟨context, environments, pending, findings⟩
  cases environments <;> exact ⟨rfl, rfl⟩

/-- What is done about a declaration behind its first value. -/
theorem declaring_fills (seen : Bool) (decl : VarDecl) :
    Fills annotations given state
      (do
        let scope := Rules.scopeOf (← Visit.context)
        Rules.note (.scope decl.id scope decl.name decl.span.start)
        match seen, scope with
        | true, .global | true, .local _ => Rules.declareLocal decl.name decl.id
        | _, _ => pure ())
      (do
        let scope := Rules.scopeOf (← Visit.context)
        fill annotations (.scope decl.id scope decl.name decl.span.start)
        match seen, scope with
        | true, .global | true, .local _ => Rules.declareLocal decl.name decl.id
        | _, _ => pure ())
      fun _ _ held => held.scope? decl.id = some (Rules.scopeOf state.context) := by
  refine .context_bind <| .read_bind state.context (fun _ => rfl) <|
    (Fills.fill (.scope decl.id (Rules.scopeOf state.context) decl.name decl.span.start)).bind
      fun _ _ mid => .same ?_ ?_
  · split
    · exact silent_declareLocal _ _
    · exact silent_declareLocal _ _
    · exact silent_pure _
  · rintro ⟨-, -, set⟩ after grown
    exact (held_keptBy grown).scope set

/-- The visit of a declaration leaves its scope in its cell. -/
theorem varDecl_fills (seen : Bool) (decl : VarDecl) :
    Fills annotations given state
      (Rules.varDecl program seen decl (traverseInit (Rules.exprs program lookup) decl))
      (varDecl annotations program seen decl
        (traverseInit (exprs annotations program lookup) decl))
      fun _ _ held => held.scope? decl.id = some (Rules.scopeOf state.context) := by
  refine .same_bind (silent_requireKnown _ _ _) fun _ mid => ?_
  refine (withPending_fills _ fun state => (traverseInit_fills decl state).whatever).bind
    fun typed? address? after => ?_
  dsimp only
  cases first : decl.init with
  | none =>
      refine (declaring_fills seen decl).mono id ?_
      rintro ⟨⟨-, grown⟩, grown', -⟩ _ _ held set
      rwa [grown'.context, grown.context] at set
  | some init =>
      -- There is a first value, so both visits have something of it to go on with.
      match typed?, address? with
      | none, _ =>
          refine .vacuous ?_ (declaring_fills seen decl)
          rintro ⟨-, -, tells⟩
          obtain ⟨typed, address, ⟨⟩, -⟩ := tells init rfl
      | some typed, none =>
          refine .vacuous ?_ (Fills.same_bind (silent_requireAgreement _ _ _) fun _ last =>
            (declaring_fills seen decl).mono id fun _ _ _ _ _ => trivial)
          rintro ⟨-, -, tells⟩
          obtain ⟨typed, address, -, ⟨⟩, -⟩ := tells init rfl
      | some typed, some address =>
          refine (requireAgreement_fills ?_).bind fun _ _ last =>
            (declaring_fills seen decl).mono id ?_
          · rintro ⟨-, -, tells⟩
            obtain ⟨_, _, ⟨⟩, ⟨⟩, type, -⟩ := tells init rfl
            exact type
          · rintro ⟨⟨⟨-, grown⟩, grown', -⟩, grown'', -⟩ _ _ held set
            rwa [grown''.context, grown'.context, grown.context] at set

/-- Two visits without results, of which the second fills in what the first finds out. -/
def Alike (annotations : Annotations) (visit filling : Rules.Check Unit) : Prop :=
  ∀ state, Fills annotations True state visit filling fun _ _ _ => True

namespace Alike

variable {visit visit' filling filling' : Rules.Check Unit}

theorem bind {next next' : Unit → Rules.Check Unit} (h : Alike annotations visit filling)
    (h' : ∀ done, Alike annotations (next done) (next' done)) :
    Alike annotations (visit >>= next) (filling >>= next') :=
  fun state => (h state).bind fun _ _ after => (h' () after).whatever

theorem same {action : Rules.Check Unit} (silent : Silent action) :
    Alike annotations action action :=
  fun _ => .same silent fun _ _ _ => trivial

theorem discard {β γ : Type} [Inhabited γ] {visit : Rules.Check β} {filling : Rules.Check γ}
    {related : β → γ → Annotations → Prop}
    (h : ∀ state, Fills annotations True state visit filling related) :
    Alike annotations (Functor.discard visit) (Functor.discard filling) :=
  fun state => (h state).discard

/-- Changes around two visits that findings have no part in. -/
theorem between {before : TraversalState TypingState → TraversalState TypingState}
    {after : TraversalState TypingState → TraversalState TypingState → TraversalState TypingState}
    (h : Alike annotations visit filling)
    (enters : ∀ state, (before state).inner.findings = state.inner.findings)
    (leaves : ∀ saved state, (after saved state).inner.findings = state.inner.findings)
    (around : ∀ saved state, state.context = (before saved).context →
      (after saved state).context = saved.context) :
    Alike annotations (Visit.between before after visit) (Visit.between before after filling) :=
  fun state => (h (before state)).between (enters state) (leaves state) (around state)

theorem inFunction (function : Option Function) (h : Alike annotations visit filling) :
    Alike annotations (Visit.inFunction function visit) (Visit.inFunction function filling) :=
  h.between (fun _ => rfl) (fun _ _ => rfl) fun _ _ kept => by simp only [kept]

theorem inRecord (record : Option RecordDecl) (h : Alike annotations visit filling) :
    Alike annotations (Visit.inRecord record visit) (Visit.inRecord record filling) :=
  h.between (fun _ => rfl) (fun _ _ => rfl) fun _ _ kept => by simp only [kept]

theorem inBlock (block : Option Block) (h : Alike annotations visit filling) :
    Alike annotations (Visit.inBlock block visit) (Visit.inBlock block filling) :=
  h.between (fun _ => rfl) (fun _ _ => rfl) fun _ _ kept => by simp only [kept]

theorem inLoop (loop : Option Stmt) (h : Alike annotations visit filling) :
    Alike annotations (Visit.inLoop loop visit) (Visit.inLoop loop filling) :=
  h.between (fun _ => rfl) (fun _ _ => rfl) fun _ _ kept => by simp only [kept]

theorem inNewEnvironment (h : Alike annotations visit filling) :
    Alike annotations (Rules.inNewEnvironment visit) (Rules.inNewEnvironment filling) :=
  h.between (fun _ => rfl) (fun _ _ => rfl) fun _ _ kept => kept

theorem forM {visit filling : α → Rules.Check Unit} (items : List α)
    (h : ∀ item, Alike annotations (visit item) (filling item)) :
    Alike annotations (items.forM visit) (items.forM filling) := by
  induction items with
  | nil => exact same (silent_pure _)
  | cons item rest ih => exact (h item).bind fun _ => ih

end Alike

theorem traverseHandle_fills (handle : VarId) :
    Alike annotations (traverseHandle (Offside.rules program lookup) program handle)
      (traverseHandle (rules annotations program lookup) program handle) := by
  intro state
  unfold traverseHandle
  cases program.decl handle with
  | error error => exact ⟨⟨rfl, List.prefix_rfl⟩, fun _ fresh => .fails fresh⟩
  | ok decl => exact (varDecl_fills true decl).mono id fun _ _ _ _ _ => trivial

theorem traverseParam_fills (param : Param) :
    Alike annotations (traverseParam (Offside.rules program lookup) program param)
      (traverseParam (rules annotations program lookup) program param) := by
  intro state
  change Fills annotations True state (Rules.param program lookup param)
    (Cells.param annotations program lookup param) _
  unfold Rules.param Cells.param
  cases program.decl param.decl with
  | error error => exact ⟨⟨rfl, List.prefix_rfl⟩, fun _ fresh => .fails fresh⟩
  | ok decl =>
      -- The scope that has been noted stands in the cell, and it is that of what surrounds.
      refine (varDecl_fills false decl).bind fun _ _ after => .context_bind <|
        .read_bind after.inner (fun _ => rfl) ?_
      have scope : (True ∧ state.GrownTo after ∧ (held annotations after.inner).scope? decl.id =
          some (Rules.scopeOf state.context)) →
          (held annotations after.inner).scope? decl.id =
            some (Rules.scopeOf after.context) := by
        rintro ⟨-, grown, set⟩
        rwa [grown.context]
      refine .congr (fun holds => by rw [scope holds]) ?_
      cases Rules.scopeOf after.context with
      | «local» => exact .pure fun _ => trivial
      | global | property => exact .fail _ _

theorem returns_fills (span : Span) (address : Address) (value : Expr) :
    Alike annotations (Rules.returns (exprPart (Rules.exprs program lookup) address value) span)
      (returns annotations (exprPart (exprs annotations program lookup) address value) span) := by
  intro state
  refine .context_bind <| .read_bind state.context (fun _ => rfl) ?_
  cases state.context.function with
  | none => exact .fail _ _
  | some function =>
      refine (traverseExpr_fills address value state).bind fun typed at' after =>
        .read_bind typed.type ?_ <|
          .same (silent_ite _ (silent_fail _ _) (silent_pure _)) fun _ _ _ => trivial
      rintro ⟨-, -, tells⟩
      exact run_typeAt tells.1

mutual

/-- The visit of a statement fills in the cells of what the rules find out about it. -/
theorem traverseStmt_fills (address : Address) : (stmt : Stmt) →
    Alike annotations (traverseStmt (Offside.rules program lookup) program address stmt)
      (traverseStmt (rules annotations program lookup) program address stmt)
  | .block body => traverseBlock_fills _ body
  | .returns value _ => returns_fills _ _ value
  | .branch branches otherwise _ =>
    (traverseBranches_fill address 0 branches).bind fun _ =>
      traverseOtherwise_fills address otherwise
  | .forLoop init condition step body _ =>
    .inNewEnvironment <| (traverseHandle_fills init).bind fun _ =>
      (Alike.discard (traverseExpr_fills _ condition)).bind fun _ =>
        (Alike.discard (traverseExpr_fills _ step)).bind fun _ =>
          (traverseBlock_fills _ body).inLoop _
  | .whileLoop condition body _ =>
    (Alike.discard (traverseExpr_fills _ condition)).bind fun _ =>
      (traverseBlock_fills _ body).inLoop _
  | .expression value => .discard (traverseExpr_fills _ value)
  | .declare decl _ => traverseHandle_fills decl
  | .breakLoop _ | .continueLoop _ =>
    .same <| silent_bind silent_context fun _ =>
      silent_ite _ (silent_fail _ _) (silent_pure _)

theorem traverseBlock_fills (address : Address) : (block : Block) →
    Alike annotations (traverseBlock (Offside.rules program lookup) program address block)
      (traverseBlock (rules annotations program lookup) program address block)
  | ⟨body, _⟩ => .inNewEnvironment ((traverseStmts_fill address 0 body).inBlock _)

theorem traverseStmts_fill (address : Address) (index : Nat) : (stmts : List Stmt) →
    Alike annotations (traverseStmts (Offside.rules program lookup) program address index stmts)
      (traverseStmts (rules annotations program lookup) program address index stmts)
  | [] => .same (silent_pure _)
  | stmt :: rest =>
    (traverseStmt_fills _ stmt).bind fun _ => traverseStmts_fill address (index + 1) rest

theorem traverseBranches_fill (address : Address) (index : Nat) : (branches : List Branch) →
    Alike annotations
      (traverseBranches (Offside.rules program lookup) program address index branches)
      (traverseBranches (rules annotations program lookup) program address index branches)
  | [] => .same (silent_pure _)
  | ⟨condition, body⟩ :: rest =>
    (Alike.discard (traverseExpr_fills _ condition)).bind fun _ =>
      (traverseBlock_fills _ body).bind fun _ =>
        traverseBranches_fill address (index + 1) rest

theorem traverseOtherwise_fills (address : Address) : (otherwise : Option Block) →
    Alike annotations
      (traverseOtherwise (Offside.rules program lookup) program address otherwise)
      (traverseOtherwise (rules annotations program lookup) program address otherwise)
  | none => .same (silent_pure _)
  | some body => traverseBlock_fills _ body

end

theorem traverseFunction_fills (root : Root) (function : Function) :
    Alike annotations
      (traverseFunction (Offside.rules program lookup) program root function)
      (traverseFunction (rules annotations program lookup) program root function) :=
  (Alike.same (silent_requireKnown _ _ _)).bind fun _ =>
    (Alike.inFunction _ <| (Alike.forM _ traverseParam_fills).bind fun _ =>
      traverseBlock_fills _ function.body).bind fun _ =>
        .same (silent_ite _ (silent_fail _ _) (silent_pure _))

theorem silent_parent (record : RecordDecl) : Silent (Rules.parent program record) := by
  unfold Rules.parent
  split
  · exact silent_pure _
  · exact silent_ite _ (silent_fail _ _) (silent_pure _)

theorem traverseRecord_fills (index : Nat) (record : RecordDecl) :
    Alike annotations (traverseRecord (Offside.rules program lookup) program index record)
      (traverseRecord (rules annotations program lookup) program index record) :=
  (Alike.same (silent_parent record)).bind fun _ =>
    .inRecord _ <| (Alike.forM _ traverseHandle_fills).bind fun _ =>
      .forM _ fun (method, _) => traverseFunction_fills _ method

theorem traverseProgram_fills :
    Alike annotations (traverseProgram (Offside.rules program lookup) program)
      (traverseProgram (rules annotations program lookup) program) :=
  (Alike.forM _ traverseHandle_fills).bind fun _ =>
    (Alike.forM _ fun (record, index) => traverseRecord_fills index record).bind fun _ =>
    (Alike.forM _ fun (function, _) => traverseFunction_fills _ function).bind fun _ =>
    (Alike.forM _ fun function => traverseFunction_fills _ function).bind fun _ =>
    .forM _ fun (stmt, _) => traverseStmt_fills _ stmt

end Cells

end Offside
