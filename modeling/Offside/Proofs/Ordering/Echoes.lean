import Offside.Proofs.Outcome
import Offside.Typing.Rules
import Mathlib.Data.List.Forall2

/-! # Visits that echo each other

What the rules do depends neither on what has been found out before nor on where a tree hangs. So a
visit of a tree that hangs elsewhere, started with other findings, echoes the visit of the tree: it
ends in the same way and adds the same findings, but for the place where the tree hangs.
-/

namespace Offside

/-- The address of a node whose tree hangs elsewhere. -/
def Address.rerooted (move : Root → Root) (address : Address) : Address :=
  { address with root := move address.root }

/-- A finding about a node whose tree hangs elsewhere. -/
def Finding.rerooted (move : Root → Root) : Finding → Finding
  | .type address found position => .type (address.rerooted move) found position
  | .link address decl name position => .link (address.rerooted move) decl name position
  | .constructor address => .constructor (address.rerooted move)
  | .scope decl found name position => .scope decl found name position

/-- What the rules remember, had certain things been found out before. -/
def TypingState.echoed (base : Array Finding) (move : Root → Root) (state : TypingState) :
    TypingState :=
  { state with findings := base ++ state.findings.map (Finding.rerooted move) }

/-- The state of a visit, had certain things been found out before. -/
def TraversalState.echoed (base : Array Finding) (move : Root → Root)
    (state : TraversalState TypingState) : TraversalState TypingState :=
  { state with inner := state.inner.echoed base move }

namespace Rules

/-- Wherever it is started, a visit leaves what surrounds it as it is. Started with more findings,
the other one ends in the same way and adds the same findings about trees that hang elsewhere. -/
def Echoes {α : Type} (base : Array Finding) (move : Root → Root) (visit echo : Check α) : Prop :=
  ∀ state, (visit.run.run state).2.context = state.context ∧
    echo.run.run (state.echoed base move) =
      ((visit.run.run state).1, (visit.run.run state).2.echoed base move)

variable {base : Array Finding} {move : Root → Root} {α β : Type}

namespace Echoes

theorem pure (value : α) : Echoes base move (Pure.pure value) (Pure.pure value) :=
  fun _ => ⟨rfl, rfl⟩

theorem fail (cause : ErrorCause) (position : Position) :
    Echoes base move (Visit.fail cause position : Check α) (Visit.fail cause position) :=
  fun _ => ⟨rfl, rfl⟩

theorem context : Echoes base move Visit.context Visit.context :=
  fun _ => ⟨rfl, rfl⟩

theorem ofExcept (result : Except Error α) :
    Echoes base move (Visit.ofExcept result) (Visit.ofExcept result) := by
  cases result with
  | error error => exact fun _ => ⟨rfl, rfl⟩
  | ok value => exact fun _ => ⟨rfl, rfl⟩

theorem bind {visit echo : Check α} {next next' : α → Check β} (h : Echoes base move visit echo)
    (h' : ∀ value, Echoes base move (next value) (next' value)) :
    Echoes base move (visit >>= next) (echo >>= next') := by
  intro state
  obtain ⟨around, same⟩ := h state
  rw [Action.run_bind, Action.run_bind, same]
  generalize visit.run.run state = outcome at around ⊢
  match outcome, around with
  | (.ok value, mid), around =>
      obtain ⟨around', same'⟩ := h' value mid
      exact ⟨around'.trans around, same'⟩
  | (.error error, mid), around => exact ⟨around, rfl⟩

theorem map {visit echo : Check α} (view : α → β) (h : Echoes base move visit echo) :
    Echoes base move (view <$> visit) (view <$> echo) := by
  rw [map_eq_pure_bind, map_eq_pure_bind]
  exact h.bind fun value => pure (view value)

/-- What has been found out before is not looked at. -/
theorem inner_bind {next next' : TypingState → Check β}
    (h : ∀ inner, Echoes base move (next inner) (next' (inner.echoed base move))) :
    Echoes base move (Visit.inner >>= next) (Visit.inner >>= next') :=
  fun state => h state.inner state

theorem ite (condition : Prop) [Decidable condition] {visit visit' echo echo' : Check α}
    (h : Echoes base move visit echo) (h' : Echoes base move visit' echo') :
    Echoes base move (if condition then visit else visit') (if condition then echo else echo') := by
  split
  · exact h
  · exact h'

/-- Changes that are undone behind a visit, and that findings have no part in. -/
theorem between {visit echo : Check α}
    {before : TraversalState TypingState → TraversalState TypingState}
    {after : TraversalState TypingState → TraversalState TypingState → TraversalState TypingState}
    (h : Echoes base move visit echo)
    (enters : ∀ state, before (state.echoed base move) = (before state).echoed base move)
    (leaves : ∀ saved state, after (saved.echoed base move) (state.echoed base move) =
      (after saved state).echoed base move)
    (around : ∀ saved state, state.context = (before saved).context →
      (after saved state).context = saved.context) :
    Echoes base move (Visit.between before after visit) (Visit.between before after echo) := by
  intro state
  obtain ⟨kept, same⟩ := h (before state)
  rw [Visit.run_between, Visit.run_between, enters, same, leaves]
  exact ⟨around state _ kept, rfl⟩

theorem inFunction {visit echo : Check α} (function : Option Function)
    (h : Echoes base move visit echo) :
    Echoes base move (Visit.inFunction function visit) (Visit.inFunction function echo) :=
  h.between (fun _ => rfl) (fun _ _ => rfl) fun _ _ kept => by simp only [kept]

theorem inRecord {visit echo : Check α} (record : Option RecordDecl)
    (h : Echoes base move visit echo) :
    Echoes base move (Visit.inRecord record visit) (Visit.inRecord record echo) :=
  h.between (fun _ => rfl) (fun _ _ => rfl) fun _ _ kept => by simp only [kept]

theorem inBlock {visit echo : Check α} (block : Option Block)
    (h : Echoes base move visit echo) :
    Echoes base move (Visit.inBlock block visit) (Visit.inBlock block echo) :=
  h.between (fun _ => rfl) (fun _ _ => rfl) fun _ _ kept => by simp only [kept]

theorem inLoop {visit echo : Check α} (loop : Option Stmt) (h : Echoes base move visit echo) :
    Echoes base move (Visit.inLoop loop visit) (Visit.inLoop loop echo) :=
  h.between (fun _ => rfl) (fun _ _ => rfl) fun _ _ kept => by simp only [kept]

theorem inNewEnvironment {visit echo : Check α} (h : Echoes base move visit echo) :
    Echoes base move (Rules.inNewEnvironment visit) (Rules.inNewEnvironment echo) :=
  h.between (fun _ => rfl) (fun _ _ => rfl) fun _ _ kept => kept

theorem withPending {visit echo : Check α} (element : Option DataType)
    (h : Echoes base move visit echo) :
    Echoes base move (Rules.withPending element visit) (Rules.withPending element echo) :=
  h.between (fun _ => rfl) (fun _ _ => rfl) fun _ _ kept => kept

theorem note (finding : Finding) :
    Echoes base move (Rules.note finding) (Rules.note (finding.rerooted move)) := by
  refine fun state => ⟨rfl, ?_⟩
  have grown : base ++ (state.inner.findings.push finding).map (Finding.rerooted move) =
      (base ++ state.inner.findings.map (Finding.rerooted move)).push (finding.rerooted move) := by
    rw [Array.map_push, Array.append_push]
  simp only [Rules.note, Visit.modifyInner, Action.run_modify, TraversalState.echoed,
    TypingState.echoed, grown]

theorem settle (address : Address) (span : Span) (type : DataType) :
    Echoes base move (Rules.settle address span type)
      (Rules.settle (address.rerooted move) span type) :=
  (note (.type address type span.start)).bind fun _ => pure _

theorem requireKnown (program : Program) (type : DataType) (span : Span) :
    Echoes base move (Rules.requireKnown program type span)
      (Rules.requireKnown program type span) :=
  ite _ (pure ()) (fail _ _)

theorem requireAgreement (expr : Expr) (type expected : DataType) :
    Echoes base move (Rules.requireAgreement expr type expected)
      (Rules.requireAgreement expr type expected) :=
  ite _ (pure ()) (fail _ _)

theorem setPending (element : Option DataType) :
    Echoes base move (Rules.setPending element) (Rules.setPending element) :=
  fun _ => ⟨rfl, rfl⟩

theorem takePending : Echoes base move Rules.takePending Rules.takePending :=
  fun _ => ⟨rfl, rfl⟩

theorem declareLocal (name : String) (decl : VarId) :
    Echoes base move (Rules.declareLocal name decl) (Rules.declareLocal name decl) := by
  refine fun state => ⟨rfl, ?_⟩
  obtain ⟨context, environments, pending, findings⟩ := state
  cases environments <;> rfl

end Echoes

/-- Parts of two visits that are of the same expression and echo each other. -/
def PartEchoes (base : Array Finding) (move : Root → Root) (part echo : Part TypingState Typed) :
    Prop :=
  part.expr = echo.expr ∧ Echoes base move part.visit echo.visit

section Handlers

variable (program : Program) (lookup : LocalLookup) {address : Address}
  {part echo left right left' right' : Part TypingState Typed}
  {parts echoes : List (Part TypingState Typed)}

theorem elements_echoes (inner : Option DataType)
    (h : List.Forall₂ (PartEchoes base move) parts echoes) :
    Echoes base move (elements inner parts) (elements inner echoes) := by
  induction h with
  | nil => exact .pure _
  | @cons part echo _ _ first _ ih =>
      obtain ⟨same, visits⟩ := first
      simp only [elements, same]
      have visited := visits.bind fun typed =>
        ih.bind fun rest => .pure ((echo.expr, typed.type) :: rest)
      exact .ite _ ((Echoes.setPending inner).bind fun _ => visited) visited

theorem arguments_echoes (h : List.Forall₂ (PartEchoes base move) parts echoes) :
    Echoes base move (arguments parts) (arguments echoes) := by
  induction h with
  | nil => exact .pure _
  | cons first _ ih => exact (first.2.map _).bind fun _ => ih

theorem binaryType_echoes (operator : Operator) (left right : Expr)
    (leftType rightType : DataType) :
    Echoes base move (binaryType operator left right leftType rightType)
      (binaryType operator left right leftType rightType) := by
  unfold binaryType
  cases operator.operatorClass with
  | arithmetic | assignment | comparison =>
      exact (Echoes.requireAgreement _ _ _).bind fun _ => .pure _
  | logical =>
      exact (Echoes.requireAgreement _ _ _).bind fun _ =>
        (Echoes.requireAgreement _ _ _).bind fun _ => .pure _

theorem unaryType_echoes (operator : Operator) (operand : Expr) (type : DataType) :
    Echoes base move (unaryType operator operand type) (unaryType operator operand type) := by
  unfold unaryType
  split
  · exact (Echoes.requireAgreement _ _ _).bind fun _ => .pure _
  · exact .pure _

theorem agreements_echoes (element : DataType) (typed : List (Expr × DataType)) :
    Echoes base move (typed.forM fun (value, type) => requireAgreement value type element)
      (typed.forM fun (value, type) => requireAgreement value type element) := by
  induction typed with
  | nil => exact .pure _
  | cons first rest ih => exact (Echoes.requireAgreement _ _ _).bind fun _ => ih

theorem array_echoes (span : Span) (h : List.Forall₂ (PartEchoes base move) parts echoes) :
    Echoes base move ((exprs program lookup).array address parts span)
      ((exprs program lookup).array (address.rerooted move) echoes span) :=
  Echoes.takePending.bind fun _ => (elements_echoes _ h).bind fun typed =>
    (agreements_echoes _ typed).bind fun _ => .settle _ _ _

theorem reference_echoes (name : String) (span : Span) :
    Echoes base move ((exprs program lookup).reference address name span)
      ((exprs program lookup).reference (address.rerooted move) name span) := by
  refine Echoes.context.bind fun context => .inner_bind fun inner => ?_
  simp only [TypingState.echoed]
  split
  · exact .fail _ _
  · exact (Echoes.note _).bind fun _ => (Echoes.settle _ _ _).bind fun _ => .pure _

theorem binary_echoes (operator : Operator) (span : Span) (h : PartEchoes base move left left')
    (h' : PartEchoes base move right right') :
    Echoes base move ((exprs program lookup).binary address operator left right span)
      ((exprs program lookup).binary (address.rerooted move) operator left' right' span) := by
  simp only [exprs, h.1, h'.1]
  exact h.2.bind fun _ => h'.2.bind fun _ =>
    (binaryType_echoes _ _ _ _ _).bind fun _ => .settle _ _ _

theorem unary_echoes (operator : Operator) (span : Span) (h : PartEchoes base move part echo) :
    Echoes base move ((exprs program lookup).unary address operator part span)
      ((exprs program lookup).unary (address.rerooted move) operator echo span) := by
  simp only [exprs, h.1]
  exact h.2.bind fun _ => (unaryType_echoes _ _ _).bind fun _ => .settle _ _ _

theorem call_echoes (callee : Name) (span : Span)
    (h : List.Forall₂ (PartEchoes base move) parts echoes) :
    Echoes base move ((exprs program lookup).call address callee parts span)
      ((exprs program lookup).call (address.rerooted move) callee echoes span) := by
  refine (arguments_echoes h).bind fun _ => .ite _ ?_ ?_
  · exact (Echoes.note _).bind fun _ => .settle _ _ _
  · refine Echoes.context.bind fun context => ?_
    split
    · exact .settle _ _ _
    · exact .fail _ _

theorem method_echoes (callee : Name) (span : Span) (h : PartEchoes base move part echo)
    (h' : List.Forall₂ (PartEchoes base move) parts echoes) :
    Echoes base move ((exprs program lookup).method address part callee parts span)
      ((exprs program lookup).method (address.rerooted move) echo callee echoes span) := by
  simp only [exprs, h.1]
  refine h.2.bind fun typed => (arguments_echoes h').bind fun _ => ?_
  split
  · exact .fail _ _
  · split
    · exact .settle _ _ _
    · exact .fail _ _

theorem property_echoes (member : Name) (span : Span) (h : PartEchoes base move part echo) :
    Echoes base move ((exprs program lookup).property address part member span)
      ((exprs program lookup).property (address.rerooted move) echo member span) := by
  refine h.2.bind fun typed => ?_
  split
  · exact .settle _ _ _
  · exact .fail _ _

theorem varDecl_echoes (seen : Bool) (decl : VarDecl) {init init' : Check (Option Typed)}
    (h : Echoes base move init init') :
    Echoes base move (varDecl program seen decl init) (varDecl program seen decl init') := by
  refine (Echoes.requireKnown _ _ _).bind fun _ => (h.withPending _).bind fun typed? => ?_
  split
  on_goal 1 => refine (Echoes.requireAgreement _ _ _).bind fun _ => ?_
  -- With or without a first value, the scope is noted, and the name is declared if it is to be seen.
  all_goals
    refine Echoes.context.bind fun context => (Echoes.note _).bind fun _ => ?_
    split
    · exact .declareLocal _ _
    · exact .declareLocal _ _
    · exact .pure _

theorem parent_echoes (record : RecordDecl) :
    Echoes base move (parent program record) (parent program record) := by
  unfold parent
  split
  · exact .pure _
  · exact .ite _ (.fail _ _) (.pure _)

theorem function_echoes (function : Function) {visit visit' : Check Unit}
    (h : Echoes base move visit visit') :
    Echoes base move (Rules.function program function visit)
      (Rules.function program function visit') :=
  (Echoes.requireKnown _ _ _).bind fun _ => h.bind fun _ => .ite _ (.fail _ _) (.pure _)

theorem returns_echoes (span : Span) (h : PartEchoes base move part echo) :
    Echoes base move (returns part span) (returns echo span) := by
  refine Echoes.context.bind fun context => ?_
  split
  · exact .fail _ _
  · rw [h.1]
    exact h.2.bind fun _ => .ite _ (.fail _ _) (.pure _)

theorem insideLoop_echoes (cause : ErrorCause) (span : Span) :
    Echoes base move (insideLoop cause span) (insideLoop cause span) :=
  Echoes.context.bind fun _ => .ite _ (.fail _ _) (.pure _)

end Handlers

section Trees

variable {program other : Program} {lookup : LocalLookup}

mutual

/-- The visit of an expression is echoed by that of the expression at another root. -/
theorem traverseExpr_echoes (address : Address) : (expr : Expr) →
    Echoes base move (traverseExpr (exprs program lookup) address expr)
      (traverseExpr (exprs program lookup) (address.rerooted move) expr)
  | .literal .. => .settle _ _ _
  | .array values _ => array_echoes program lookup _ (elementParts_echo address 0 values)
  | .reference .. => reference_echoes program lookup _ _
  | .binary _ left right _ =>
    binary_echoes program lookup _ _ ⟨rfl, traverseExpr_echoes _ left⟩
      ⟨rfl, traverseExpr_echoes _ right⟩
  | .unary _ operand _ => unary_echoes program lookup _ _ ⟨rfl, traverseExpr_echoes _ operand⟩
  | .call _ args _ => call_echoes program lookup _ _ (argumentParts_echo address 0 args)
  | .method receiver _ args _ =>
    method_echoes program lookup _ _ ⟨rfl, traverseExpr_echoes _ receiver⟩
      (argumentParts_echo address 0 args)
  | .property receiver _ _ =>
    property_echoes program lookup _ _ ⟨rfl, traverseExpr_echoes _ receiver⟩

theorem elementParts_echo (address : Address) (index : Nat) : (values : List Expr) →
    List.Forall₂ (PartEchoes base move) (elementParts (exprs program lookup) address index values)
      (elementParts (exprs program lookup) (address.rerooted move) index values)
  | [] => .nil
  | value :: rest =>
    .cons ⟨rfl, traverseExpr_echoes _ value⟩ (elementParts_echo address (index + 1) rest)

theorem argumentParts_echo (address : Address) (index : Nat) : (args : List Arg) →
    List.Forall₂ (PartEchoes base move) (argumentParts (exprs program lookup) address index args)
      (argumentParts (exprs program lookup) (address.rerooted move) index args)
  | [] => .nil
  | ⟨_, value⟩ :: rest =>
    .cons ⟨rfl, traverseExpr_echoes _ value⟩ (argumentParts_echo address (index + 1) rest)

end

/-- First values of variables hang where they hung, and handles stand for the same declarations. -/
structure Reroots (move : Root → Root) (program other : Program) : Prop where
  initializer : ∀ id, move (.initializer id) = .initializer id
  decls : other.decls = program.decls

theorem traverseInit_echoes (reroots : Reroots move program other) (decl : VarDecl) :
    Echoes base move (traverseInit (exprs program lookup) decl)
      (traverseInit (exprs program lookup) decl) := by
  unfold traverseInit
  cases decl.init with
  | none => exact .pure _
  | some init =>
      have same : (Address.ofRoot (.initializer decl.id)).rerooted move =
          .ofRoot (.initializer decl.id) := by
        rw [Address.rerooted, Address.ofRoot, reroots.initializer]
      have visited : Echoes base move _ (traverseExpr (exprs program lookup)
          ((Address.ofRoot (.initializer decl.id)).rerooted move) init) :=
        traverseExpr_echoes _ init
      rw [same] at visited
      exact visited.bind fun typed => .pure _

theorem traverseVarDecl_echoes (reroots : Reroots move program other) (decl : VarDecl) :
    Echoes base move (traverseVarDecl (rules program lookup) decl)
      (traverseVarDecl (rules program lookup) decl) :=
  varDecl_echoes program true decl (traverseInit_echoes reroots decl)

theorem traverseHandle_echoes (reroots : Reroots move program other) (id : VarId) :
    Echoes base move (traverseHandle (rules program lookup) program id)
      (traverseHandle (rules program lookup) other id) := by
  have same : other.decl id = program.decl id := by
    unfold Program.decl Program.decl?
    rw [reroots.decls]
  unfold traverseHandle
  rw [same]
  exact (Echoes.ofExcept _).bind fun decl => traverseVarDecl_echoes reroots decl

mutual

/-- The visit of a statement is echoed by that of the statement at another root. -/
theorem traverseStmt_echoes (reroots : Reroots move program other) (address : Address) :
    (stmt : Stmt) →
    Echoes base move (traverseStmt (rules program lookup) program address stmt)
      (traverseStmt (rules program lookup) other (address.rerooted move) stmt)
  | .block body => traverseBlock_echoes reroots _ body
  | .returns value _ => returns_echoes _ ⟨rfl, traverseExpr_echoes _ value⟩
  | .branch branches otherwise _ =>
    (traverseBranches_echoes reroots address 0 branches).bind fun _ =>
      traverseOtherwise_echoes reroots address otherwise
  | .forLoop init condition step body _ =>
    .inNewEnvironment <| (traverseHandle_echoes reroots init).bind fun _ =>
      ((traverseExpr_echoes _ condition).map _).bind fun _ =>
        ((traverseExpr_echoes _ step).map _).bind fun _ =>
          (traverseBlock_echoes reroots _ body).inLoop _
  | .whileLoop condition body _ =>
    ((traverseExpr_echoes _ condition).map _).bind fun _ =>
      (traverseBlock_echoes reroots _ body).inLoop _
  | .expression value => (traverseExpr_echoes _ value).map _
  | .declare decl _ => traverseHandle_echoes reroots decl
  | .breakLoop _ => insideLoop_echoes _ _
  | .continueLoop _ => insideLoop_echoes _ _

theorem traverseBlock_echoes (reroots : Reroots move program other) (address : Address) :
    (block : Block) →
    Echoes base move (traverseBlock (rules program lookup) program address block)
      (traverseBlock (rules program lookup) other (address.rerooted move) block)
  | ⟨body, _⟩ => .inNewEnvironment ((traverseStmts_echoes reroots address 0 body).inBlock _)

theorem traverseStmts_echoes (reroots : Reroots move program other) (address : Address)
    (index : Nat) : (stmts : List Stmt) →
    Echoes base move (traverseStmts (rules program lookup) program address index stmts)
      (traverseStmts (rules program lookup) other (address.rerooted move) index stmts)
  | [] => .pure _
  | stmt :: rest =>
    (traverseStmt_echoes reroots _ stmt).bind fun _ =>
      traverseStmts_echoes reroots address (index + 1) rest

theorem traverseBranches_echoes (reroots : Reroots move program other) (address : Address)
    (index : Nat) : (branches : List Branch) →
    Echoes base move (traverseBranches (rules program lookup) program address index branches)
      (traverseBranches (rules program lookup) other (address.rerooted move) index branches)
  | [] => .pure _
  | ⟨condition, body⟩ :: rest =>
    ((traverseExpr_echoes _ condition).map _).bind fun _ =>
      (traverseBlock_echoes reroots _ body).bind fun _ =>
        traverseBranches_echoes reroots address (index + 1) rest

theorem traverseOtherwise_echoes (reroots : Reroots move program other) (address : Address) :
    (otherwise : Option Block) →
    Echoes base move (traverseOtherwise (rules program lookup) program address otherwise)
      (traverseOtherwise (rules program lookup) other (address.rerooted move) otherwise)
  | none => .pure _
  | some body => traverseBlock_echoes reroots _ body

end

theorem traverseParam_echoes (reroots : Reroots move program other) (param : Param) :
    Echoes base move (traverseParam (rules program lookup) program param)
      (traverseParam (rules program lookup) other param) := by
  refine (Echoes.ofExcept _).bind fun decl =>
    (varDecl_echoes program false decl (traverseInit_echoes reroots decl)).bind fun _ =>
      Echoes.context.bind fun context => ?_
  split
  · exact .pure _
  · exact .fail _ _

theorem forM_echoes {visit echo : α → Check PUnit} (items : List α)
    (h : ∀ item, Echoes base move (visit item) (echo item)) :
    Echoes base move (items.forM visit) (items.forM echo) := by
  induction items with
  | nil => exact .pure _
  | cons item rest ih => exact (h item).bind fun _ => ih

theorem traverseFunction_echoes (reroots : Reroots move program other) (root : Root)
    (function : Function) :
    Echoes base move (traverseFunction (rules program lookup) program root function)
      (traverseFunction (rules program lookup) other (move root) function) :=
  function_echoes program function <| .inFunction _ <|
    (forM_echoes function.signature.params fun param => traverseParam_echoes reroots param).bind
      fun _ => traverseBlock_echoes reroots _ function.body

/-- The visit of a record type is echoed by that of the record type at another index. -/
theorem traverseRecord_echoes (reroots : Reroots move program other) {index index' : Nat}
    (methods : ∀ method, move (.method index method) = .method index' method)
    (record : RecordDecl) :
    Echoes base move (traverseRecord (rules program lookup) program index record)
      (traverseRecord (rules program lookup) other index' record) := by
  refine (parent_echoes program record).bind fun _ => .inRecord _ <|
    (forM_echoes record.properties fun id => traverseHandle_echoes reroots id).bind fun _ =>
      forM_echoes record.methods.zipIdx fun (method, methodIndex) => ?_
  have visited : Echoes base move
      (traverseFunction (rules program lookup) program (.method index methodIndex) method) _ :=
    traverseFunction_echoes reroots _ method
  rw [methods] at visited
  exact visited

end Trees

end Rules

end Offside
