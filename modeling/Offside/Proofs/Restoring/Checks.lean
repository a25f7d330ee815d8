import Offside.Proofs.Restoring.Environments

/-! # Environments are given back

A block, a loop, a function or a record type leaves the environments as it finds them, and no type
is pending where a declaration is visited or left: by induction over the trees, the alarm of a
watched check is never raised.
-/

namespace Offside

namespace Rules

section Trees

variable (program : Program) (lookup : LocalLookup) (stop : TypingState → Option Error)
  (alarm : Error)

theorem declareSeen_calm (decl : VarDecl) : Keeps 1 (declareSeen decl) := by
  refine Calm.context.bind fun context => ?_
  have declares : Keeps 1 (declareLocal decl.name decl.id) := by
    intro state idle
    obtain ⟨context, environments, pending, findings⟩ := state
    cases environments <;> exact ⟨rfl, idle, rfl, rfl⟩
  cases scopeOf context with
  | global => exact declares
  | «local» function => exact declares
  | property record => exact .pure ()

theorem traverseVarDecl_calm (decl : VarDecl) :
    Calm 1 (traverseVarDecl (watched program lookup stop (some alarm)) decl)
      (traverseVarDecl (watched program lookup stop none) decl) :=
  Calm.alarmed alarm
    (((varDecl_calm decl).interrupted stop).weaken.bind fun _ => declareSeen_calm decl)
    fun idle leaves => leaves.nonePending idle

theorem traverseHandle_calm (id : VarId) :
    Calm 1 (traverseHandle (watched program lookup stop (some alarm)) program id)
      (traverseHandle (watched program lookup stop none) program id) :=
  (Calm.ofExcept (program.decl id)).bind fun decl =>
    traverseVarDecl_calm program lookup stop alarm decl

mutual

/-- Visiting a statement declares variables in the innermost block only. -/
theorem traverseStmt_calm (address : Address) : (stmt : Stmt) →
    Calm 1 (traverseStmt (watched program lookup stop (some alarm)) program address stmt)
      (traverseStmt (watched program lookup stop none) program address stmt)
  | .block body => (traverseBlock_calm _ body).weaken
  | .returns value span => by
    refine Calm.context.bind fun context => ?_
    split
    · exact .fail _ _
    · refine (traverseExpr_calm _ value).bind fun typed => ?_
      split
      · exact .fail _ _
      · exact .pure _
  | .branch branches otherwise _ =>
    (traverseBranches_calm address 0 branches).bind fun _ =>
      traverseOtherwise_calm address otherwise
  | .forLoop init condition step body _ =>
    Calm.weaken <| Calm.alarmed alarm
      (Calm.inNewEnvironment <|
        (traverseHandle_calm program lookup stop alarm init).bind fun _ =>
          (traverseExpr_calm _ condition).discard.bind fun _ =>
            (traverseExpr_calm _ step).discard.bind fun _ =>
              (traverseBlock_calm _ body).weaken.between (fun _ => rfl) fun _ _ => rfl)
      fun _ leaves => leaves.givesBack
  | .whileLoop condition body _ =>
    (traverseExpr_calm _ condition).discard.bind fun _ =>
      (traverseBlock_calm _ body).weaken.between (fun _ => rfl) fun _ _ => rfl
  | .expression value => (traverseExpr_calm _ value).discard
  | .declare decl _ => traverseHandle_calm program lookup stop alarm decl
  | .breakLoop _ | .continueLoop _ => Calm.context.bind fun context => by
    split
    · exact .fail _ _
    · exact .pure _

/-- Visiting a block leaves the environments as they are. -/
theorem traverseBlock_calm (address : Address) : (block : Block) →
    Calm 0 (traverseBlock (watched program lookup stop (some alarm)) program address block)
      (traverseBlock (watched program lookup stop none) program address block)
  | ⟨body, _⟩ =>
    Calm.alarmed alarm
      (Calm.inNewEnvironment <|
        (traverseStmts_calm address 0 body).between (fun _ => rfl) fun _ _ => rfl)
      fun _ leaves => leaves.givesBack

theorem traverseStmts_calm (address : Address) (index : Nat) : (stmts : List Stmt) →
    Calm 1 (traverseStmts (watched program lookup stop (some alarm)) program address index stmts)
      (traverseStmts (watched program lookup stop none) program address index stmts)
  | [] => .pure ()
  | stmt :: rest =>
    (traverseStmt_calm _ stmt).bind fun _ => traverseStmts_calm address (index + 1) rest

theorem traverseBranches_calm (address : Address) (index : Nat) : (branches : List Branch) →
    Calm 1
      (traverseBranches (watched program lookup stop (some alarm)) program address index branches)
      (traverseBranches (watched program lookup stop none) program address index branches)
  | [] => .pure ()
  | ⟨condition, body⟩ :: rest =>
    (traverseExpr_calm _ condition).discard.bind fun _ =>
      (traverseBlock_calm _ body).weaken.bind fun _ =>
        traverseBranches_calm address (index + 1) rest

theorem traverseOtherwise_calm (address : Address) : (otherwise : Option Block) →
    Calm 1 (traverseOtherwise (watched program lookup stop (some alarm)) program address otherwise)
      (traverseOtherwise (watched program lookup stop none) program address otherwise)
  | none => .pure ()
  | some body => (traverseBlock_calm _ body).weaken

end

theorem traverseParam_calm (param : Param) :
    Calm 0 (traverseParam (watched program lookup stop (some alarm)) program param)
      (traverseParam (watched program lookup stop none) program param) := by
  refine Calm.alarmed alarm ?_ fun idle leaves => leaves.nonePending idle
  refine (Calm.ofExcept (program.decl param.decl)).bind fun decl =>
    ((varDecl_calm decl).interrupted stop).bind fun _ => Calm.context.bind fun context => ?_
  split
  · exact .pure _
  · exact .fail _ _

theorem traverseSignature_calm (signature : Signature) :
    Calm 0 (traverseSignature (watched program lookup stop (some alarm)) program signature)
      (traverseSignature (watched program lookup stop none) program signature) :=
  Calm.forM fun param _ => traverseParam_calm program lookup stop alarm param

/-- Visiting a function leaves the environments as they are. -/
theorem traverseFunction_calm (root : Root) (function : Function) :
    Calm 0 (traverseFunction (watched program lookup stop (some alarm)) program root function)
      (traverseFunction (watched program lookup stop none) program root function) := by
  refine Calm.alarmed alarm ?_ fun _ leaves => leaves.givesBack
  refine (requireKnown_calm _ _).bind fun _ => Calm.bind ?_ fun _ => ?_
  · exact Calm.between (fun _ => rfl) (fun _ _ => rfl)
      ((traverseSignature_calm program lookup stop alarm function.signature).bind fun _ =>
        traverseBlock_calm program lookup stop alarm _ function.body)
  · split
    · exact .fail _ _
    · exact .pure _

/-- Outside of everything, the first of two actions does what the second does, and no environment is
there behind them. -/
def CalmOutside (loud quiet : Check Unit) : Prop :=
  ∀ state, state.inner.pendingElement = none → state.inner.environments = [] →
    loud.run.run state = quiet.run.run state ∧
      (quiet.run.run state).2.inner.pendingElement = none ∧
      (quiet.run.run state).2.inner.environments = []

namespace CalmOutside

variable {loud quiet : Check Unit}

/-- There is no innermost environment that could change. -/
theorem of_calm {changed : Nat} (h : Calm changed loud quiet) : CalmOutside loud quiet := by
  intro state idle outside
  obtain ⟨same, taken, size, -⟩ := h state idle
  rw [outside, List.length_nil, List.length_eq_zero_iff] at size
  exact ⟨same, taken, size⟩

theorem bind {next next' : Unit → Check Unit} (h : CalmOutside loud quiet)
    (h' : ∀ value, CalmOutside (next value) (next' value)) :
    CalmOutside (loud >>= next) (quiet >>= next') := by
  intro state idle outside
  obtain ⟨same, taken, left⟩ := h state idle outside
  rw [Action.run_bind, Action.run_bind, same]
  generalize quiet.run.run state = outcome at taken left ⊢
  match outcome, taken, left with
  | (.ok value, mid), taken, left => exact h' value mid taken left
  | (.error error, mid), taken, left => exact ⟨rfl, taken, left⟩

theorem forM {β : Type} {items : List β} {visit visit' : β → Check Unit}
    (h : ∀ item, CalmOutside (visit item) (visit' item)) :
    CalmOutside (items.forM visit) (items.forM visit') := by
  induction items with
  | nil => exact of_calm (.pure () : Calm 0 _ _)
  | cons item rest ih => exact (h item).bind fun _ => ih

end CalmOutside

/-- The properties of a record type are declared outside of everything, so in no environment. -/
theorem traverseRecord_calm (index : Nat) (record : RecordDecl) :
    CalmOutside (traverseRecord (watched program lookup stop (some alarm)) program index record)
      (traverseRecord (watched program lookup stop none) program index record) := by
  have members : Calm 1
      ((rules program lookup).record record
        (visitMembers (watched program lookup stop (some alarm)) program index record))
      ((rules program lookup).record record
        (visitMembers (watched program lookup stop none) program index record)) := by
    refine Calm.bind ?_ fun _ => Calm.between (fun _ => rfl) (fun _ _ => rfl) <|
      (Calm.forM fun id _ => traverseHandle_calm program lookup stop alarm id).bind fun _ =>
        Calm.forM fun method _ =>
          (traverseFunction_calm program lookup stop alarm _ method.1).weaken
    unfold parent
    cases record.parent with
    | none => exact .pure _
    | some name => exact .ite (.fail _ _) (.pure _)
  intro state idle outside
  obtain ⟨same, taken, left⟩ := CalmOutside.of_calm members state idle outside
  exact ⟨run_alarmed same (decide_eq_true (left.trans outside.symm)), taken, left⟩

theorem traverseDecl_calm (decl : Declaration) :
    CalmOutside (traverseDecl (watched program lookup stop (some alarm)) program decl)
      (traverseDecl (watched program lookup stop none) program decl) := by
  cases decl with
  | var decl => exact .of_calm (traverseVarDecl_calm program lookup stop alarm decl)
  | param param => exact .of_calm (traverseParam_calm program lookup stop alarm param)
  | signature signature =>
      exact .of_calm (traverseSignature_calm program lookup stop alarm signature)
  | function root function =>
      exact .of_calm (traverseFunction_calm program lookup stop alarm root function)
  | record index record => exact traverseRecord_calm program lookup stop alarm index record

/-- The alarm of a watched check is never raised. -/
theorem traverseProgram_calm :
    CalmOutside (traverseProgram (watched program lookup stop (some alarm)) program)
      (traverseProgram (watched program lookup stop none) program) := by
  have decl := traverseDecl_calm program lookup stop alarm
  have globals (id : VarId) : CalmOutside
      (Visit.ofExcept (program.decl id) >>= fun decl =>
        traverseDecl (watched program lookup stop (some alarm)) program (.var decl))
      (Visit.ofExcept (program.decl id) >>= fun decl =>
        traverseDecl (watched program lookup stop none) program (.var decl)) := by
    cases program.decl id with
    | error error => exact .of_calm (.throw error : Calm 0 _ _)
    | ok found => exact decl (.var found)
  refine (CalmOutside.forM globals).bind fun _ => CalmOutside.bind (.forM fun record => ?_)
    fun _ => CalmOutside.bind (.forM fun function => ?_)
      fun _ => CalmOutside.bind (.forM fun function => ?_) fun _ => .forM fun stmt => ?_
  · exact decl (.record record.2 record.1)
  · exact decl (.function (.function function.2) function.1)
  · exact decl (.function .main function)
  · exact .of_calm (traverseStmt_calm program lookup stop alarm _ stmt.1)

end Trees

end Rules

end Offside
