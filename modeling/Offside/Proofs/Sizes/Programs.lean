import Offside.Proofs.Sizes.Visits
import Offside.Typing.Analysis

/-! # Checks do not depend on sizes

The check of a program without sizes goes the way of the check of the program. So two programs that
differ in the sizes of numbers alone are both accepted or refused at the same place for the same
reason, and what is found out about them differs in sizes alone.
-/

namespace Offside

namespace Rules

variable {program : Program} {lookup : LocalLookup}

section Trees

mutual

/-- The visit of an expression in a program without sizes is a shadow of that in the program. -/
theorem traverseExpr_shadows (address : Address) : (expr : Expr) →
    Shadows Typed.unsized (traverseExpr (exprs program lookup) address expr)
      (traverseExpr (exprs program.unsized lookup) address expr)
  | .literal value span => literal_shadows program lookup value span
  | .array values _ => array_shadows program lookup _ (elementParts_shadow address 0 values)
  | .reference .. => reference_shadows program lookup _ _
  | .binary _ left right _ =>
    binary_shadows program lookup _ _ ⟨rfl, traverseExpr_shadows _ left⟩
      ⟨rfl, traverseExpr_shadows _ right⟩
  | .unary _ operand _ => unary_shadows program lookup _ _ ⟨rfl, traverseExpr_shadows _ operand⟩
  | .call _ args _ => call_shadows program lookup _ _ (argumentParts_shadow address 0 args)
  | .method receiver _ args _ =>
    method_shadows program lookup _ _ ⟨rfl, traverseExpr_shadows _ receiver⟩
      (argumentParts_shadow address 0 args)
  | .property receiver _ _ =>
    property_shadows program lookup _ _ ⟨rfl, traverseExpr_shadows _ receiver⟩

theorem elementParts_shadow (address : Address) (index : Nat) : (values : List Expr) →
    List.Forall₂ PartShadows (elementParts (exprs program lookup) address index values)
      (elementParts (exprs program.unsized lookup) address index values)
  | [] => .nil
  | value :: rest =>
    .cons ⟨rfl, traverseExpr_shadows _ value⟩ (elementParts_shadow address (index + 1) rest)

theorem argumentParts_shadow (address : Address) (index : Nat) : (args : List Arg) →
    List.Forall₂ PartShadows (argumentParts (exprs program lookup) address index args)
      (argumentParts (exprs program.unsized lookup) address index args)
  | [] => .nil
  | ⟨_, value⟩ :: rest =>
    .cons ⟨rfl, traverseExpr_shadows _ value⟩ (argumentParts_shadow address (index + 1) rest)

end

theorem traverseInit_shadows (decl : VarDecl) :
    Shadows (Option.map Typed.unsized) (traverseInit (exprs program lookup) decl)
      (traverseInit (exprs program.unsized lookup) decl.unsized) := by
  obtain ⟨id, name, type, init, span⟩ := decl
  cases init with
  | none => exact .pure none
  | some init => exact (traverseExpr_shadows _ init).bind fun typed => .pure (some typed)

theorem traverseHandle_shadows (handle : VarId) :
    Shadows id (traverseHandle (rules program lookup) program handle)
      (traverseHandle (rules program.unsized lookup) program.unsized handle) :=
  (Shadows.decl program handle).bind fun decl =>
    varDecl_shadows program true decl (traverseInit_shadows decl)

mutual

/-- The visit of a statement in a program without sizes is a shadow of that in the program. -/
theorem traverseStmt_shadows (address : Address) : (stmt : Stmt) →
    Shadows id (traverseStmt (rules program lookup) program address stmt)
      (traverseStmt (rules program.unsized lookup) program.unsized address stmt)
  | .block body => traverseBlock_shadows _ body
  | .returns value _ => returns_shadows _ ⟨rfl, traverseExpr_shadows _ value⟩
  | .branch branches otherwise _ =>
    (traverseBranches_shadow address 0 branches).bind fun _ =>
      traverseOtherwise_shadows address otherwise
  | .forLoop init condition step body _ =>
    .inNewEnvironment <| (traverseHandle_shadows init).bind fun _ =>
      (traverseExpr_shadows _ condition).discard.bind fun _ =>
        (traverseExpr_shadows _ step).discard.bind fun _ =>
          (traverseBlock_shadows _ body).inLoop _
  | .whileLoop condition body _ =>
    (traverseExpr_shadows _ condition).discard.bind fun _ =>
      (traverseBlock_shadows _ body).inLoop _
  | .expression value => (traverseExpr_shadows _ value).discard
  | .declare decl _ => traverseHandle_shadows decl
  | .breakLoop _ => insideLoop_shadows _ _
  | .continueLoop _ => insideLoop_shadows _ _

theorem traverseBlock_shadows (address : Address) : (block : Block) →
    Shadows id (traverseBlock (rules program lookup) program address block)
      (traverseBlock (rules program.unsized lookup) program.unsized address block)
  | ⟨body, _⟩ => .inNewEnvironment ((traverseStmts_shadow address 0 body).inBlock _)

theorem traverseStmts_shadow (address : Address) (index : Nat) : (stmts : List Stmt) →
    Shadows id (traverseStmts (rules program lookup) program address index stmts)
      (traverseStmts (rules program.unsized lookup) program.unsized address index stmts)
  | [] => .pure _
  | stmt :: rest =>
    (traverseStmt_shadows _ stmt).bind fun _ => traverseStmts_shadow address (index + 1) rest

theorem traverseBranches_shadow (address : Address) (index : Nat) : (branches : List Branch) →
    Shadows id (traverseBranches (rules program lookup) program address index branches)
      (traverseBranches (rules program.unsized lookup) program.unsized address index branches)
  | [] => .pure _
  | ⟨condition, body⟩ :: rest =>
    (traverseExpr_shadows _ condition).discard.bind fun _ =>
      (traverseBlock_shadows _ body).bind fun _ =>
        traverseBranches_shadow address (index + 1) rest

theorem traverseOtherwise_shadows (address : Address) : (otherwise : Option Block) →
    Shadows id (traverseOtherwise (rules program lookup) program address otherwise)
      (traverseOtherwise (rules program.unsized lookup) program.unsized address otherwise)
  | none => .pure _
  | some body => traverseBlock_shadows _ body

end

theorem traverseParam_shadows (param : Param) :
    Shadows id (traverseParam (rules program lookup) program param)
      (traverseParam (rules program.unsized lookup) program.unsized param) := by
  refine (Shadows.decl program param.decl).bind fun decl =>
    (varDecl_shadows program false decl (traverseInit_shadows decl)).bind fun _ =>
      Shadows.context.bind fun context => ?_
  rw [scopeOf_unsized]
  cases scopeOf context with
  | «local» => exact .pure _
  | _ => exact .fail _ _

theorem traverseFunction_shadows (root : Root) (function : Function) :
    Shadows id (traverseFunction (rules program lookup) program root function)
      (traverseFunction (rules program.unsized lookup) program.unsized root function.unsized) :=
  function_shadows program function <| .inFunction function <|
    (Shadows.forM (List.map_id _).symm traverseParam_shadows).bind fun _ =>
      traverseBlock_shadows _ function.body

theorem traverseRecord_shadows (index : Nat) (record : RecordDecl) :
    Shadows id (traverseRecord (rules program lookup) program index record)
      (traverseRecord (rules program.unsized lookup) program.unsized index record.unsized) :=
  (parent_shadows program record).bind fun _ => .inRecord record <|
    (Shadows.forM (List.map_id _).symm traverseHandle_shadows).bind fun _ =>
      .forM List.zipIdx_map fun (method, _) => traverseFunction_shadows _ method

/-- The visit of a program without sizes is a shadow of that of the program. -/
theorem traverseProgram_shadows :
    Shadows id (traverseProgram (rules program lookup) program)
      (traverseProgram (rules program.unsized lookup) program.unsized) := by
  have main : program.unsized.main.toList = program.main.toList.map Function.unsized :=
    Option.toList_map ..
  exact (Shadows.forM (List.map_id _).symm traverseHandle_shadows).bind fun _ =>
    (Shadows.forM List.zipIdx_map fun (record, index) => traverseRecord_shadows index record).bind
      fun _ =>
    (Shadows.forM List.zipIdx_map fun (function, _) => traverseFunction_shadows _ function).bind
      fun _ =>
    (Shadows.forM main fun function => traverseFunction_shadows _ function).bind fun _ =>
    .forM (List.map_id _).symm fun (stmt, _) => traverseStmt_shadows _ stmt

end Trees

end Rules

/-- An analysis without the sizes of numbers. -/
def Analysis.unsized (analysis : Analysis) : Analysis :=
  ⟨analysis.findings.map Finding.unsized, unsizedOutcome id analysis.outcome⟩

/-- Annotations without the sizes of numbers. -/
def Annotations.unsized (annotations : Annotations) : Annotations :=
  { annotations with types := annotations.types.map (Prod.map id DataType.unsized) }

theorem Analysis.ofProgram_unsized (program : Program) (lookup : LocalLookup) :
    ofProgram program.unsized lookup = (ofProgram program lookup).unsized := by
  have run (program : Program) : ofProgram program lookup =
      let outcome := (traverseProgram (rules program lookup) program).run.run { inner := {} }
      ⟨outcome.2.inner.findings.toList, outcome.1⟩ := rfl
  have started : ({ inner := {} } : TraversalState TypingState).unsized = { inner := {} } := by
    simp [TraversalState.unsized, TypingState.unsized, Context.unsized]
  have shadows : _ = (unsizedOutcome id _, _) :=
    @Rules.traverseProgram_shadows program lookup { inner := {} }
  rw [started] at shadows
  rw [run, run, shadows]
  simp [unsized, TraversalState.unsized, TypingState.unsized]

namespace Annotations

variable (annotations : Annotations)

theorem type?_unsized (address : Address) :
    annotations.unsized.type? address = (annotations.type? address).map DataType.unsized := by
  unfold type? unsized
  induction annotations.types with
  | nil => rfl
  | cons first rest ih =>
      obtain ⟨place, type⟩ := first
      simp only [List.map_cons, Prod.map, id, List.lookup_cons]
      cases address == place with
      | true => rfl
      | false => exact ih

/-- A finding can be entered whatever the sizes are, and is entered in the same place. -/
theorem enter_unsized (finding : Finding) :
    annotations.unsized.enter finding.unsized =
      unsizedOutcome unsized (annotations.enter finding) := by
  cases finding with
  | type address type position =>
      simp only [enter, Finding.unsized, type?_unsized, Option.isSome_map,
        apply_ite (unsizedOutcome unsized)]
      rfl
  | _ =>
      simp only [enter, apply_ite (unsizedOutcome unsized)]
      rfl

theorem enterAll_unsized (findings : List Finding) :
    annotations.unsized.enterAll (findings.map Finding.unsized) =
      ((annotations.enterAll findings).1.unsized,
        unsizedOutcome id (annotations.enterAll findings).2) := by
  induction findings generalizing annotations with
  | nil => rfl
  | cons finding rest ih =>
      rw [List.map_cons, enterAll, enterAll, enter_unsized]
      cases annotations.enter finding with
      | error error => rfl
      | ok annotations => exact ih annotations

end Annotations

namespace Program

theorem check_unsized (program : Program) (lookup : LocalLookup) (annotations : Annotations) :
    program.unsized.check lookup annotations.unsized =
      ((program.check lookup annotations).1.unsized,
        unsizedOutcome id (program.check lookup annotations).2) := by
  unfold check Analysis.enterInto
  rw [Analysis.ofProgram_unsized]
  simp only [Analysis.unsized, Annotations.enterAll_unsized]
  generalize annotations.enterAll (Analysis.ofProgram program lookup).findings = entered
  obtain ⟨after, error | ⟨⟩⟩ := entered <;> rfl

/-- Outcomes that are the same without sizes are both good, or both errors with the same cause but
for types. -/
theorem alike_of_unsizedOutcome_eq {outcome outcome' : Except Error Unit}
    (same : unsizedOutcome id outcome = unsizedOutcome id outcome') :
    outcome = .ok () ∧ outcome' = .ok () ∨
      ∃ error error', outcome = .error error ∧ outcome' = .error error' ∧
        error.position = error'.position ∧ error.cause.name = error'.cause.name ∧
        error.cause.unsized = error'.cause.unsized := by
  rcases outcome with error | ⟨⟩ <;> rcases outcome' with error' | ⟨⟩
  · have same : error.unsized = error'.unsized := Except.error.inj same
    have position : error.unsized.position = error'.unsized.position := by rw [same]
    have cause : error.unsized.cause = error'.unsized.cause := by rw [same]
    refine .inr ⟨error, error', rfl, rfl, position, ?_, cause⟩
    rw [← error.cause.name_unsized, ← error'.cause.name_unsized]
    exact congrArg ErrorCause.name cause
  · cases same
  · cases same
  · exact .inl ⟨rfl, rfl⟩

/-- What a check finds out about a program is found out about another that differs in sizes, too. -/
theorem check_resized_found {program other : Program} (resized : program.Resized other)
    (lookup : LocalLookup) :
    (program.check lookup).1.unsized = (other.check lookup).1.unsized ∧
      unsizedOutcome id (program.check lookup).2 = unsizedOutcome id (other.check lookup).2 := by
  have found := program.check_unsized lookup {}
  rw [(resized_iff program other).1 resized, other.check_unsized lookup {}] at found
  exact Prod.mk.inj found.symm

/-- Types agree if and only if they are the same without the sizes of numbers. That is an
equivalence that arrays and functions keep, and the check respects it. Of two programs that are the
same but for types in declarations and signatures, which agree, either both pass the check or both
fail it at the same place with the same cause, but for types. Everything that is found out about one
of them is found out about the other, with types that agree. -/
theorem check_resized :
    (∀ type other : DataType, type.agrees other = true ↔ type.unsized = other.unsized) ∧
    (Equivalence fun type other : DataType => type.agrees other = true) ∧
    (∀ type other : DataType,
      type.agrees other = true → (DataType.array type).agrees (.array other) = true) ∧
    (∀ params params' returns returns',
      List.Forall₂ (fun type other : DataType => type.agrees other = true) params params' →
      returns.agrees returns' = true →
      (DataType.function params returns).agrees (.function params' returns') = true) ∧
    ∀ (program other : Program) (lookup : LocalLookup), program.Resized other →
      ((program.check lookup).2 = .ok () ∧ (other.check lookup).2 = .ok () ∨
        ∃ error error', (program.check lookup).2 = .error error ∧
          (other.check lookup).2 = .error error' ∧ error.position = error'.position ∧
          error.cause.name = error'.cause.name ∧ error.cause.unsized = error'.cause.unsized) ∧
      (∀ address,
        Option.Rel (fun type other : DataType => type.agrees other = true)
          ((program.check lookup).1.type? address) ((other.check lookup).1.type? address) ∧
        (program.check lookup).1.link? address = (other.check lookup).1.link? address ∧
        (program.check lookup).1.isConstructor address =
          (other.check lookup).1.isConstructor address) ∧
      ∀ id, (program.check lookup).1.scope? id = (other.check lookup).1.scope? id := by
  refine ⟨DataType.agrees_iff, DataType.equivalence_agrees, fun _ _ agrees => agrees, ?_, ?_⟩
  · intro params params' returns returns' agree agrees
    rw [DataType.agrees, Bool.and_eq_true]
    exact ⟨(DataType.agreesAll_iff_forall₂ params params').2 agree, agrees⟩
  · intro program other lookup resized
    obtain ⟨found, ends⟩ := check_resized_found resized lookup
    generalize program.check lookup = first at found ends ⊢
    generalize other.check lookup = second at found ends ⊢
    refine ⟨?_, fun address => ⟨?_, ?_, ?_⟩, fun id => ?_⟩
    · exact alike_of_unsizedOutcome_eq ends
    · have types := congrArg (fun annotations => annotations.type? address) found
      rw [Annotations.type?_unsized, Annotations.type?_unsized] at types
      exact (rel_iff_map_eq DataType.agrees_iff _ _).2 types
    · exact congrArg (fun annotations => annotations.link? address) found
    · exact congrArg (fun annotations => annotations.isConstructor address) found
    · exact congrArg (fun annotations => annotations.scope? id) found

/-- A function with numbers of single precision is refused where it would be with numbers of double
precision, which the message tells of instead. -/
theorem check_resized_scale : ∃ program error error',
    Program.ofSource "def scale(xs: [float]): [float]\n    return [xs, [1.5]]\n" "pots" =
      .ok program ∧ program.Resized program.unsized ∧
    (program.check .innermost).2 = .error error ∧
    (program.unsized.check .innermost).2 = .error error' ∧
    error.cause.message = "cannot return [[float]] from function \"scale\"" ∧
    error'.cause.message = "cannot return [[double]] from function \"scale\"" ∧
    error.position = error'.position ∧ error.cause.name = error'.cause.name := by
  have ends : (Program.ofSource
      "def scale(xs: [float]): [float]\n    return [xs, [1.5]]\n" "pots").toOption.map
        (fun program =>
          ((program.check .innermost).2.mapError fun error => error.cause.message,
            (program.unsized.check .innermost).2.mapError fun error => error.cause.message)) =
      some (.error "cannot return [[float]] from function \"scale\"",
        .error "cannot return [[double]] from function \"scale\"") := by
    decide +kernel
  obtain ⟨program, read, messages⟩ := exists_ok_of_map_toOption ends
  obtain ⟨message, message'⟩ := Prod.mk.inj messages
  have resized := program.resized_unsized
  obtain ⟨passes, -⟩ | ⟨error, error', failed, failed', position, name, -⟩ :=
    (check_resized.2.2.2.2 program program.unsized .innermost resized).1
  · rw [passes] at message
    cases message
  · rw [failed] at message
    rw [failed'] at message'
    exact ⟨program, error, error', read, resized, failed, failed', Except.error.inj message,
      Except.error.inj message', position, name⟩

end Program

end Offside
