import Offside.Proofs.Typing.Expressions

/-! # Statements and declarations are judged by the rules

The environments of the checker follow the enclosures of the place that is visited: a declaration
adds to the innermost environment what it adds to the innermost enclosure, and an environment is
dropped where an enclosure ends.
-/

namespace Offside

open Rules

variable {program : Program} {lookup : LocalLookup} {place inner mid after : Place}
  {pending : Option DataType} {sites : List Site} {cells : List Cell} {α : Type}
  {holds : α → Prop} {fails : Prop} {action : Check α}

section Surroundings

theorem Judges.moved (h : Judges program lookup place mid pending sites cells holds fails action)
    (same : ∀ state, mid.Matches program none state → after.Matches program none state) :
    Judges program lookup place after pending sites cells holds fails action := by
  intro state hstate
  refine (h state hstate).mono ?_ fun _ _ => id
  rintro value final ⟨held, hfinal, notes⟩
  exact ⟨held, same final hfinal, notes⟩

/-- Whatever is changed around an action, it is judged as the action, if the changes lead to the
place of the action and back, and leave the findings alone. -/
theorem judges_between {pending' : Option DataType}
    {before : TraversalState TypingState → TraversalState TypingState}
    {restore : TraversalState TypingState → TraversalState TypingState → TraversalState TypingState}
    (h : Judges program lookup inner mid pending' sites cells holds fails action)
    (enter : ∀ state, place.Matches program pending state →
      inner.Matches program pending' (before state) ∧
      (before state).inner.findings = state.inner.findings)
    (leave : ∀ state final, place.Matches program pending state →
      mid.Matches program none final → after.Matches program none (restore state final))
    (kept : ∀ state final, (restore state final).inner.findings = final.inner.findings) :
    Judges program lookup place after pending sites cells holds fails
      (Visit.between before restore action) := by
  intro state hstate
  have judged := h (before state) (enter state hstate).1
  have notes : ∀ {cells final}, Notes program lookup sites cells (before state) final →
      Notes program lookup sites cells state (restore state final) := by
    rintro cells final ⟨findings, grown, rest⟩
    exact ⟨findings, by rw [kept, grown, (enter state hstate).2], rest⟩
  unfold Action.Ensures at judged ⊢
  rw [Visit.run_between]
  generalize action.run.run (before state) = outcome at judged ⊢
  match outcome, judged with
  | (.ok value, final), ⟨held, hfinal, noted⟩ =>
      exact ⟨held, leave state final hstate hfinal, notes noted⟩
  | (.error error, final), ⟨failed, semantic, filled, hfilled, noted⟩ =>
      exact ⟨failed, semantic, filled, hfilled, notes noted⟩

theorem judges_withPending {element : Option DataType}
    (h : Judges program lookup place place element sites cells holds fails action) :
    Judges program lookup place place none sites cells holds fails (withPending element action) :=
  judges_between h
    (fun _ m => ⟨⟨m.declared, m.function, m.record, m.inLoop, m.environments, rfl⟩, rfl⟩)
    (fun _ _ _ m => ⟨m.declared, m.function, m.record, m.inLoop, m.environments, rfl⟩)
    fun _ _ => rfl

theorem judges_inFunction {function : Function}
    (h : Judges program lookup (place.inFunction function) (place.inFunction function) none sites
      cells holds fails action) :
    Judges program lookup place place none sites cells holds fails
      (Visit.inFunction (some function) action) :=
  judges_between h
    (fun _ m => ⟨⟨m.declared, rfl, m.record, m.inLoop, m.environments, m.pending⟩, rfl⟩)
    (fun _ _ m m' => ⟨m'.declared, m.function, m'.record, m'.inLoop, m'.environments, m'.pending⟩)
    fun _ _ => rfl

theorem judges_inRecord {record : RecordDecl} (hrecord : record ∈ program.records)
    (h : Judges program lookup (place.inRecord record) (place.inRecord record) none sites cells
      holds fails action) :
    Judges program lookup place place none sites cells holds fails
      (Visit.inRecord (some record) action) :=
  judges_between h
    (fun _ m => ⟨⟨by simpa [Place.Declared, Place.inRecord] using hrecord, m.function, rfl,
      m.inLoop, m.environments, m.pending⟩, rfl⟩)
    (fun _ _ m m' => ⟨m.declared, m'.function, m.record, m'.inLoop, m'.environments, m'.pending⟩)
    fun _ _ => rfl

theorem judges_inBlock {block : Option Block}
    (h : Judges program lookup place after none sites cells holds fails action) :
    Judges program lookup place after none sites cells holds fails
      (Visit.inBlock block action) :=
  judges_between h
    (fun _ m => ⟨⟨m.declared, m.function, m.record, m.inLoop, m.environments, m.pending⟩, rfl⟩)
    (fun _ _ _ m => ⟨m.declared, m.function, m.record, m.inLoop, m.environments, m.pending⟩)
    fun _ _ => rfl

theorem judges_inLoop {loop : Stmt}
    (h : Judges program lookup place.repeated place.repeated none sites cells holds fails action) :
    Judges program lookup place place none sites cells holds fails
      (Visit.inLoop (some loop) action) :=
  judges_between h
    (fun _ m => ⟨⟨m.declared, m.function, m.record, rfl, m.environments, m.pending⟩, rfl⟩)
    (fun _ _ m m' => ⟨m'.declared, m'.function, m'.record, m.inLoop, m'.environments, m'.pending⟩)
    fun _ _ => rfl

theorem judges_inNewEnvironment (enclosure final : Enclosure) (empty : enclosure.declared = [])
    (h : Judges program lookup (place.within enclosure) (place.within final) none sites cells holds
      fails action) :
    Judges program lookup place place none sites cells holds fails (inNewEnvironment action) := by
  refine judges_between h (fun state m => ⟨⟨m.declared, m.function, m.record, m.inLoop, ?_,
    m.pending⟩, rfl⟩) (fun state last m m' => ⟨m.declared, m'.function, m'.record, m'.inLoop, ?_,
    m'.pending⟩) fun _ _ => rfl
  · simp [m.environments, Place.environments, Place.within, Enclosure.environment, empty]
  · simp [m'.environments, Place.environments, Place.within]

end Surroundings

section Declarations

variable {decl : VarDecl}

theorem declaredElement?_eq (decl : VarDecl) :
    declaredElement? decl = decl.init.bind (Expr.pending (some decl.type)) := by
  unfold declaredElement?
  cases decl.init with
  | none => rfl
  | some init => cases decl.type <;> simp [Expr.pending, DataType.element?]

theorem init_judged (coherent : program.Coherent) (hplace : place.Declared program) :
    Judges program lookup place place none (decl.sites place)
      (((decl.init.map fun init => init.sites place (.ofRoot (.initializer decl.id))
        (some decl.type)).getD []).flatMap Site.cells)
      (fun typed? => ∀ init, decl.init = some init → ∃ typed, typed? = some typed ∧
        Teaches program lookup place (some decl.type) init typed)
      (¬ decl.WellTyped program lookup place)
      (withPending (declaredElement? decl) (traverseInit (exprs program lookup) decl)) := by
  refine judges_withPending ?_
  rw [declaredElement?_eq]
  unfold traverseInit
  cases hinit : decl.init with
  | none => exact .pure (by simp)
  | some init =>
      refine ((init.judged coherent hplace (some decl.type) _).mono ?_ (fun _ => id)
        fun untyped typed => ?_).bind_last (fun typed learned => .pure ?_) id
      · simp [VarDecl.sites, hinit]
      · obtain ⟨type, typed, -⟩ := typed.init init hinit
        exact untyped type typed
      · rintro _ ⟨⟩
        exact ⟨typed, rfl, learned⟩

theorem varDecl_judged (coherent : program.Coherent) (hplace : place.Declared program)
    {seen : Bool}
    (hdeclare : Judges program lookup place after none (decl.sites place) [] (fun _ => True) False
      (match seen, place.scope with
        | true, .global | true, .local _ => declareLocal decl.name decl.id
        | _, _ => pure ())) :
    Judges program lookup place after none (decl.sites place)
      ((decl.sites place).flatMap Site.cells) (fun _ => decl.WellTyped program lookup place)
      (¬ decl.WellTyped program lookup place)
      (Rules.varDecl program seen decl (traverseInit (exprs program lookup) decl)) := by
  have finish : ∀ known : decl.WellTyped program lookup place,
      Judges program lookup place after none (decl.sites place) [.scope decl.id]
        (fun _ => decl.WellTyped program lookup place) (¬ decl.WellTyped program lookup place)
        (do
          let scope := scopeOf (← Visit.context)
          note (.scope decl.id scope decl.name decl.span.start)
          match seen, scope with
          | true, .global | true, .local _ => declareLocal decl.name decl.id
          | _, _ => pure ()) := by
    intro known
    refine judges_context.bind_nil ?_ False.elim
    rintro context ⟨hfunction, hrecord, -⟩
    have hscope : scopeOf context = place.scope := by
      cases inFunction : place.function <;> cases inRecord : place.record <;>
        simp [scopeOf, Place.scope, hfunction, hrecord, inFunction, inRecord]
    simp only [hscope]
    exact (judges_note (.decl place decl.id) (by simp [VarDecl.sites]) rfl .scope).bind_last
      (fun _ _ => hdeclare.mono (List.Subset.refl _) (fun _ _ => known) False.elim) False.elim
  unfold Rules.varDecl
  refine judges_requireKnown.bind_nil (fun _ known => ?_) fun unknown typed => unknown typed.known
  have cells : (decl.sites place).flatMap Site.cells =
      ((decl.init.map fun init => init.sites place (.ofRoot (.initializer decl.id))
        (some decl.type)).getD []).flatMap Site.cells ++ [.scope decl.id] := by
    cases hinit : decl.init <;> simp [VarDecl.sites, hinit, Site.cells]
  rw [cells]
  refine (init_judged coherent hplace).bind (fun typed? learned => ?_) id
  cases hinit : decl.init with
  | none => exact finish ⟨known, by simp [hinit]⟩
  | some init =>
      obtain ⟨typed, rfl, learns⟩ := learned init hinit
      refine judges_requireAgreement.bind_nil (fun _ agrees => finish ⟨known, ?_⟩) ?_
      · rintro _ same
        cases hinit.symm.trans same
        exact ⟨typed.type, learns.type, agrees⟩
      · intro disagrees wellTyped
        obtain ⟨type, typed, agrees⟩ := wellTyped.init init hinit
        exact disagrees (learns.type.unique coherent hplace typed ▸ agrees)

/-- A declaration behind which there is no enclosure, or one that has declared it too. -/
inductive Place.Declares (id : VarId) : Place → Place → Prop where
  | nowhere {place : Place} : place.enclosures = [] → Declares id place place
  | innermost {place : Place} {enclosure : Enclosure} (grown : Enclosure) :
    grown.declared = enclosure.declared ++ [id] →
    Declares id (place.within enclosure) (place.within grown)

theorem declareLocal_judged (hdecl : program.decl? decl.id = some decl)
    (declares : place.Declares decl.id after) :
    Judges program lookup place after none sites [] (fun _ => True) False
      (declareLocal decl.name decl.id) := by
  intro state m
  refine ⟨trivial, ?_, ?_⟩
  · cases declares with
    | nowhere none =>
        have empty : state.inner.environments = [] := by
          simp [m.environments, Place.environments, none]
        refine ⟨m.declared, m.function, m.record, m.inLoop, ?_, ?_⟩ <;>
          simp [empty, m.environments.symm.trans empty, m.pending]
    | innermost _ grown =>
        have open_ := m.environments
        simp only [Place.environments, Place.within, List.map_cons] at open_
        refine ⟨m.declared, m.function, m.record, m.inLoop, ?_, ?_⟩
        · simp [open_, Place.environments, Place.within, Environment.declare,
            Enclosure.environment, grown, hdecl]
        · simp [open_, m.pending]
  · refine ⟨[], ?_, rfl, by simp⟩
    cases h : state.inner.environments <;> simp [h]

/-- The declaration with a valid handle is judged by the rules, and is seen behind it unless it is a
property. -/
theorem handle_judged (coherent : program.Coherent) (hplace : place.Declared program) {id : VarId}
    (valid : (program.decl? id).isSome) (declares : place.Declares id after)
    (property : ∀ record, place.scope = .property record → place.enclosures = []) :
    Judges program lookup place after none (id.sites program place)
      ((id.sites program place).flatMap Site.cells)
      (fun _ => id.WellTyped program lookup place) (¬ id.WellTyped program lookup place)
      (traverseHandle (rules program lookup) program id) := by
  obtain ⟨decl, hdecl⟩ := Option.isSome_iff_exists.1 valid
  have hid := coherent.id_eq hdecl
  have hsites : id.sites program place = decl.sites place := by simp [VarId.sites, hdecl]
  have hhandle : traverseHandle (rules program lookup) program id =
      Rules.varDecl program true decl (traverseInit (exprs program lookup) decl) := by
    simp only [traverseHandle, Program.decl, hdecl, Visit.ofExcept, pure_bind]
    rfl
  rw [hsites, hhandle]
  rw [← hid] at declares
  refine (varDecl_judged coherent hplace ?_).mono (List.Subset.refl _)
    (fun _ typed => ⟨decl, hdecl, typed⟩) ?_
  · split
    · exact declareLocal_judged (hid ▸ hdecl) declares
    · exact declareLocal_judged (hid ▸ hdecl) declares
    · next notGlobal notLocal =>
      cases hscope : place.scope with
      | global => exact absurd hscope (notGlobal rfl)
      | «local» function => exact absurd hscope (notLocal function rfl)
      | property record =>
          have none := property record hscope
          cases declares with
          | nowhere => exact .pure trivial
          | innermost => cases none
  · rintro untyped ⟨other, hother, typed⟩
    cases hdecl.symm.trans hother
    exact untyped typed

end Declarations

section Statements

variable {stmt : Stmt} {address : Address}

@[simp] theorem Place.scope_within (place : Place) (enclosure : Enclosure) :
    (place.within enclosure).scope = place.scope := rfl

@[simp] theorem Place.scope_repeated (place : Place) : place.repeated.scope = place.scope := rfl

theorem Place.Declared.within (hplace : place.Declared program) (enclosure : Enclosure) :
    (place.within enclosure).Declared program := hplace

theorem Place.Declared.inFunction (hplace : place.Declared program) (function : Function) :
    (place.inFunction function).Declared program := hplace

theorem Place.Declared.repeated (hplace : place.Declared program) :
    place.repeated.Declared program := hplace

/-- The place behind a statement of a block, or of a program. -/
inductive Place.Past (stmt : Stmt) : Place → Place → Prop where
  | nowhere {place : Place} : place.enclosures = [] → Past stmt place place
  | block {place : Place} {before : List Stmt} :
    Past stmt (place.within (.block before)) (place.within (.block (before ++ [stmt])))

theorem Place.Past.declares {id : VarId} {span : Span}
    (past : place.Past (.declare id span) after) : place.Declares id after := by
  cases past with
  | nowhere none => exact .nowhere none
  | block => exact .innermost _ (by simp [Enclosure.declared, Stmt.declared?])

/-- Behind a statement that declares nothing itself, names refer to what they did before it. -/
theorem Judges.past (past : place.Past stmt after) (silent : stmt.declared? = none)
    (h : Judges program lookup place place pending sites cells holds fails action) :
    Judges program lookup place after pending sites cells holds fails action := by
  cases past with
  | nowhere => exact h
  | block =>
      refine h.moved fun state m => ⟨m.declared, m.function, m.record, m.inLoop, ?_, m.pending⟩
      rw [m.environments]
      simp [Place.environments, Place.within, Enclosure.environment, Enclosure.declared, silent]

theorem insideLoop_judged {cause : ErrorCause} {span : Span}
    (semantic : cause.category = .semantic) :
    Judges program lookup place place none sites [] (fun _ => place.inLoop = true)
      (¬ place.inLoop = true) (insideLoop cause span) := by
  refine judges_context.bind_nil ?_ False.elim
  rintro context ⟨-, -, hloop⟩
  have looped : context.loop.isNone = !place.inLoop := by
    rw [← hloop]
    cases context.loop <;> rfl
  rw [looped]
  cases place.inLoop with
  | true => exact .pure rfl
  | false => exact .fail semantic (by simp)

theorem returns_judged (coherent : program.Coherent) (hplace : place.Declared program)
    {value : Expr} {span : Span} :
    Judges program lookup place place none (value.sites place address none)
      ((value.sites place address none).flatMap Site.cells)
      (fun _ => (Stmt.returns value span).WellTyped program lookup place)
      (¬ (Stmt.returns value span).WellTyped program lookup place)
      (Rules.returns (exprPart (exprs program lookup) address value) span) := by
  refine judges_context.bind_nil ?_ False.elim
  rintro context ⟨hfunction, -, -⟩
  rw [hfunction]
  cases hplacefunction : place.function with
  | none =>
      refine .fail rfl fun typed => ?_
      cases typed with
      | returns hfunction => rw [hplacefunction] at hfunction; cases hfunction
  | some function =>
      refine ((value.judged coherent hplace none address).part (List.Subset.refl _)
        fun untyped typed => ?_).bind_last (fun typed learned => ?_) id
      · cases typed with
        | returns _ typed _ => exact untyped _ typed
      · split
        · next disagrees =>
          refine .fail rfl fun wellTyped => ?_
          cases wellTyped with
          | returns hfunction typed' agrees =>
              cases hplacefunction.symm.trans hfunction
              cases learned.type.unique coherent hplace typed'
              simp [agrees] at disagrees
        · next agrees => exact .pure (.returns hplacefunction learned.type (by simpa using agrees))

/-- The visit of an expression as a part of a statement. -/
theorem expr_judged (coherent : program.Coherent) (hplace : place.Declared program) (expr : Expr)
    (address : Address) (subset : expr.sites place address none ⊆ sites)
    (hfails : ¬ expr.WellTyped program lookup place → fails) :
    Judges program lookup place place none sites
      ((expr.sites place address none).flatMap Site.cells)
      (fun _ => expr.WellTyped program lookup place) fails
      (discard (traverseExpr (exprs program lookup) address expr)) := by
  refine ((expr.judged coherent hplace none address).part subset
    fun untyped => hfails ?_).discard.mono (List.Subset.refl _) ?_ id
  · rintro ⟨type, typed⟩
    exact untyped type typed
  · rintro _ ⟨typed, learned⟩
    exact ⟨typed.type, learned.type⟩

/-- The rule for blocks goes from one statement to the next. -/
theorem Block.wellTyped_iff {body : List Stmt} {span : Span} :
    Block.WellTyped program lookup place ⟨body, span⟩ ↔
      ∀ before stmt rest, body = before ++ stmt :: rest →
        Stmt.WellTyped program lookup (place.within (.block before)) stmt := by
  constructor
  · intro typed
    cases typed with
    | mk typed => exact typed
  · exact .mk

end Statements

variable {address : Address}

mutual

/-- Every statement is judged by the rules, wherever it stands. -/
theorem Stmt.judged {place after : Place} (coherent : program.Coherent)
    (hplace : place.Declared program) (inside : ∀ record, place.scope ≠ .property record)
    (address : Address) (stmt : Stmt)
    (valid : ∀ id ∈ stmt.handles, (program.decl? id).isSome) (past : place.Past stmt after) :
    Judges program lookup place after none (stmt.sites program place address)
      ((stmt.sites program place address).flatMap Site.cells)
      (fun _ => stmt.WellTyped program lookup place) (¬ stmt.WellTyped program lookup place)
      (traverseStmt (rules program lookup) program address stmt) := by
  cases stmt with
  | block body =>
      simp only [traverseStmt, Stmt.sites, Stmt.handles] at valid ⊢
      refine ((Block.judged coherent hplace inside _ body valid).mono (List.Subset.refl _)
        (fun _ => .block) ?_).past past rfl
      intro untyped typed
      cases typed with
      | block typed => exact untyped typed
  | returns value span =>
      simp only [traverseStmt, Stmt.sites]
      exact (returns_judged coherent hplace).past past rfl
  | branch branches otherwise span =>
      simp only [traverseStmt, Stmt.sites, Stmt.handles, List.flatMap_append,
        List.forall_mem_append] at valid ⊢
      refine Judges.past past rfl ?_
      refine ((Branch.list_judged coherent hplace inside address 0 branches valid.1).mono (by simp)
        (fun _ => id) fun untyped typed => ?_).bind (fun _ htyped => ?_) id
      · cases typed with
        | branch conditions bodies _ => exact untyped ⟨conditions, bodies⟩
      refine (Block.option_judged coherent hplace inside _ otherwise valid.2).mono (by simp)
        (fun _ typed => .branch htyped.1 htyped.2 typed) fun untyped typed => ?_
      cases typed with
      | branch _ _ typed => exact untyped typed
  | forLoop init condition step body span =>
      simp only [traverseStmt, Stmt.sites, Stmt.handles, List.flatMap_append,
        List.forall_mem_cons, List.append_assoc] at valid ⊢
      refine Judges.past past rfl ?_
      have hheader := hplace.within (.header (some init))
      refine judges_inNewEnvironment (.header none) (.header (some init)) rfl ?_
      refine ((handle_judged coherent (hplace.within _) valid.1
        (.innermost (.header (some init)) rfl)
        fun record same => absurd same (inside record)).mono (by simp)
        (fun _ => id) fun untyped typed => ?_).bind (fun _ hinit => ?_) id
      · cases typed with
        | forLoop typed => exact untyped typed
      refine (expr_judged coherent hheader condition (address.part (.condition 0)) (by simp)
        fun untyped typed => ?_).bind (fun _ hcondition => ?_) id
      · cases typed with
        | forLoop _ typed => exact untyped typed
      refine (expr_judged coherent hheader step (address.part .update)
        (fun _ member => by simp [member]) fun untyped typed => ?_).bind (fun _ hstep => ?_) id
      · cases typed with
        | forLoop _ _ typed => exact untyped typed
      refine judges_inLoop ((Block.judged coherent hheader.repeated inside
        (address.part (.body 0)) body valid.2).mono (fun _ member => by simp [member])
        (fun _ typed => .forLoop hinit hcondition hstep typed) fun untyped typed => ?_)
      cases typed with
      | forLoop _ _ _ typed => exact untyped typed
  | whileLoop condition body span =>
      simp only [traverseStmt, Stmt.sites, Stmt.handles, List.flatMap_append] at valid ⊢
      refine Judges.past past rfl ?_
      refine (expr_judged coherent hplace condition _ (by simp) fun untyped typed => ?_).bind
        (fun _ hcondition => ?_) id
      · cases typed with
        | whileLoop typed => exact untyped typed
      refine judges_inLoop ((Block.judged coherent hplace.repeated inside _ body valid).mono
        (by simp) (fun _ typed => .whileLoop hcondition typed) fun untyped typed => ?_)
      cases typed with
      | whileLoop _ typed => exact untyped typed
  | expression value =>
      simp only [traverseStmt, Stmt.sites]
      refine Judges.past past rfl ((expr_judged coherent hplace value _ (List.Subset.refl _)
        fun untyped typed => ?_).mono (List.Subset.refl _) (fun _ => .expression) id)
      cases typed with
      | expression typed => exact untyped typed
  | declare decl span =>
      simp only [traverseStmt, Stmt.sites, Stmt.handles, List.forall_mem_singleton] at valid ⊢
      refine (handle_judged coherent hplace valid past.declares fun record same =>
        absurd same (inside record)).mono (List.Subset.refl _) (fun _ => .declare)
        fun untyped typed => ?_
      cases typed with
      | declare typed => exact untyped typed
  | breakLoop span =>
      simp only [traverseStmt, Stmt.sites]
      refine Judges.past past rfl ((insideLoop_judged rfl).mono (List.Subset.refl _)
        (fun _ => .breakLoop) fun outside typed => ?_)
      cases typed with
      | breakLoop looped => exact outside looped
  | continueLoop span =>
      simp only [traverseStmt, Stmt.sites]
      refine Judges.past past rfl ((insideLoop_judged rfl).mono (List.Subset.refl _)
        (fun _ => .continueLoop) fun outside typed => ?_)
      cases typed with
      | continueLoop looped => exact outside looped
termination_by sizeOf stmt

theorem Block.judged {place : Place} (coherent : program.Coherent)
    (hplace : place.Declared program) (inside : ∀ record, place.scope ≠ .property record)
    (address : Address) (block : Block)
    (valid : ∀ id ∈ block.handles, (program.decl? id).isSome) :
    Judges program lookup place place none (block.sites program place address)
      ((block.sites program place address).flatMap Site.cells)
      (fun _ => block.WellTyped program lookup place) (¬ block.WellTyped program lookup place)
      (traverseBlock (rules program lookup) program address block) := by
  cases block with
  | mk body span =>
      simp only [traverseBlock, Block.sites, Block.handles, Block.wellTyped_iff] at valid ⊢
      refine judges_inNewEnvironment (.block []) (.block ([] ++ body)) rfl (judges_inBlock ?_)
      exact Stmt.list_judged coherent hplace inside address [] body valid
termination_by sizeOf block

theorem Stmt.list_judged {place : Place} (coherent : program.Coherent)
    (hplace : place.Declared program) (inside : ∀ record, place.scope ≠ .property record)
    (address : Address) (before rest : List Stmt)
    (valid : ∀ id ∈ Stmt.listHandles rest, (program.decl? id).isSome) :
    Judges program lookup (place.within (.block before)) (place.within (.block (before ++ rest)))
      none (Stmt.listSites program place address before rest)
      ((Stmt.listSites program place address before rest).flatMap Site.cells)
      (fun _ => ∀ between stmt others, rest = between ++ stmt :: others →
        Stmt.WellTyped program lookup (place.within (.block (before ++ between))) stmt)
      (¬ ∀ between stmt others, rest = between ++ stmt :: others →
        Stmt.WellTyped program lookup (place.within (.block (before ++ between))) stmt)
      (traverseStmts (rules program lookup) program address before.length rest) := by
  cases rest with
  | nil =>
      simp only [traverseStmts, Stmt.listSites, List.append_nil]
      exact .pure (by simp)
  | cons stmt rest =>
      simp only [traverseStmts, Stmt.listSites, Stmt.listHandles, List.flatMap_append,
        List.forall_mem_append] at valid ⊢
      refine ((Stmt.judged coherent (hplace.within _) inside _ stmt
        valid.1 .block).mono (by simp) (fun _ => id) fun untyped typed => ?_).bind
        (fun _ htyped => ?_) id
      · exact untyped (by simpa using typed [] stmt rest rfl)
      have others := Stmt.list_judged coherent hplace inside address (before ++ [stmt]) rest
        valid.2
      simp only [List.length_append, List.length_singleton, List.append_assoc,
        List.singleton_append] at others
      refine others.mono (by simp) (fun _ typed between other behind same => ?_)
        fun untyped typed => untyped fun between other behind same => ?_
      · cases between with
        | nil =>
            cases same
            simpa using htyped
        | cons first between =>
            cases same
            exact typed between other behind rfl
      · exact typed (stmt :: between) other behind (by rw [same]; rfl)
termination_by sizeOf rest

theorem Branch.list_judged {place : Place} (coherent : program.Coherent)
    (hplace : place.Declared program) (inside : ∀ record, place.scope ≠ .property record)
    (address : Address) (index : Nat)
    (branches : List Branch)
    (valid : ∀ id ∈ Branch.listHandles branches, (program.decl? id).isSome) :
    Judges program lookup place place none (Branch.listSites program place address index branches)
      ((Branch.listSites program place address index branches).flatMap Site.cells)
      (fun _ => (∀ branch ∈ branches, branch.condition.WellTyped program lookup place) ∧
        ∀ branch ∈ branches, branch.body.WellTyped program lookup place)
      (¬ ((∀ branch ∈ branches, branch.condition.WellTyped program lookup place) ∧
        ∀ branch ∈ branches, branch.body.WellTyped program lookup place))
      (traverseBranches (rules program lookup) program address index branches) := by
  cases branches with
  | nil =>
      simp only [traverseBranches, Branch.listSites]
      exact .pure (by simp)
  | cons branch rest =>
      cases branch with
      | mk condition body =>
          simp only [traverseBranches, Branch.listSites, Branch.listHandles, List.flatMap_append,
            List.forall_mem_append, List.forall_mem_cons, List.append_assoc] at valid ⊢
          refine (expr_judged coherent hplace condition _ (by simp) fun untyped typed =>
            untyped typed.1.1).bind (fun _ hcondition => ?_) id
          refine ((Block.judged coherent hplace inside _ body valid.1).mono (by simp) (fun _ => id)
            fun untyped typed => untyped typed.2.1).bind (fun _ hbody => ?_) id
          exact (Branch.list_judged coherent hplace inside address (index + 1) rest valid.2).mono
            (by simp) (fun _ typed => ⟨⟨hcondition, typed.1⟩, hbody, typed.2⟩)
            fun untyped typed => untyped ⟨typed.1.2, typed.2.2⟩
termination_by sizeOf branches

theorem Block.option_judged {place : Place} (coherent : program.Coherent)
    (hplace : place.Declared program) (inside : ∀ record, place.scope ≠ .property record)
    (address : Address) (otherwise : Option Block)
    (valid : ∀ id ∈ Block.optionHandles otherwise, (program.decl? id).isSome) :
    Judges program lookup place place none
      (Block.optionSites program place (address.part .otherwise) otherwise)
      ((Block.optionSites program place (address.part .otherwise) otherwise).flatMap Site.cells)
      (fun _ => ∀ body ∈ otherwise, body.WellTyped program lookup place)
      (¬ ∀ body ∈ otherwise, body.WellTyped program lookup place)
      (traverseOtherwise (rules program lookup) program address otherwise) := by
  cases otherwise with
  | none =>
      simp only [traverseOtherwise, Block.optionSites]
      exact .pure (by simp)
  | some body =>
      simp only [traverseOtherwise, Block.optionSites, Block.optionHandles, Option.mem_def,
        Option.some.injEq, forall_eq'] at valid ⊢
      exact Block.judged coherent hplace inside _ body valid
termination_by sizeOf otherwise

end

end Offside
