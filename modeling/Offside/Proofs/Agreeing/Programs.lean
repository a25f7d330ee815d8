import Offside.Proofs.Agreeing.Visits
import Offside.Proofs.Typing.Sources

/-! # Programs that the two lookups agree on

If no body of a program is ambiguous and the program passes the check while the innermost
declaration counts, the check finds out the same if the last declaration in the body counts.
-/

namespace Offside

namespace Rules

variable {program : Program} {around : Option Function} {depth : Nat} {α : Type}

section Trees

mutual

/-- An expression that can be visited while the innermost declaration counts is visited likewise if
the last one in the body does. -/
theorem traverseExpr_agrees (coherent : program.Coherent)
    (inside : ∀ function, around = some function → function.Unambiguous program)
    (address : Address) : (expr : Expr) →
    Agrees program around depth (traverseExpr (exprs program .innermost) address expr)
      (traverseExpr (exprs program .lastInBody) address expr)
  | .literal .. => .settle _ _ _
  | .array values _ => array_agrees _ (elementParts_agree coherent inside address 0 values)
  | .reference .. => reference_agrees coherent inside _ _
  | .binary _ left right _ =>
    binary_agrees _ _ ⟨rfl, traverseExpr_agrees coherent inside _ left⟩
      ⟨rfl, traverseExpr_agrees coherent inside _ right⟩
  | .unary _ operand _ => unary_agrees _ _ ⟨rfl, traverseExpr_agrees coherent inside _ operand⟩
  | .call _ args _ => call_agrees _ _ (argumentParts_agree coherent inside address 0 args)
  | .method receiver _ args _ =>
    method_agrees _ _ ⟨rfl, traverseExpr_agrees coherent inside _ receiver⟩
      (argumentParts_agree coherent inside address 0 args)
  | .property receiver _ _ =>
    property_agrees _ _ ⟨rfl, traverseExpr_agrees coherent inside _ receiver⟩

theorem elementParts_agree (coherent : program.Coherent)
    (inside : ∀ function, around = some function → function.Unambiguous program)
    (address : Address) (index : Nat) : (values : List Expr) →
    List.Forall₂ (PartAgrees program around depth)
      (elementParts (exprs program .innermost) address index values)
      (elementParts (exprs program .lastInBody) address index values)
  | [] => .nil
  | value :: rest =>
    .cons ⟨rfl, traverseExpr_agrees coherent inside _ value⟩
      (elementParts_agree coherent inside address (index + 1) rest)

theorem argumentParts_agree (coherent : program.Coherent)
    (inside : ∀ function, around = some function → function.Unambiguous program)
    (address : Address) (index : Nat) : (args : List Arg) →
    List.Forall₂ (PartAgrees program around depth)
      (argumentParts (exprs program .innermost) address index args)
      (argumentParts (exprs program .lastInBody) address index args)
  | [] => .nil
  | ⟨_, value⟩ :: rest =>
    .cons ⟨rfl, traverseExpr_agrees coherent inside _ value⟩
      (argumentParts_agree coherent inside address (index + 1) rest)

end

variable (coherent : program.Coherent)
  (inside : ∀ function, around = some function → function.Unambiguous program)

include coherent inside

theorem traverseInit_agrees (decl : VarDecl) :
    Agrees program around depth (traverseInit (exprs program .innermost) decl)
      (traverseInit (exprs program .lastInBody) decl) := by
  unfold traverseInit
  cases decl.init with
  | none => exact .pure _
  | some init => exact (traverseExpr_agrees coherent inside _ init).bind fun _ => .pure _

/-- The visit of a declaration, which must be in the body of the function around it if it is to be
seen. -/
theorem varDecl_agrees {id : VarId} {decl : VarDecl} (found : program.decl? id = some decl)
    {seen : Bool} (owned : seen = true → Function.Owns around [id]) :
    Agrees program around depth
      (varDecl program seen decl (traverseInit (exprs program .innermost) decl))
      (varDecl program seen decl (traverseInit (exprs program .lastInBody) decl)) := by
  have declares : program.declares decl.name decl.id = true := by
    rw [Program.declares, coherent.id_eq found, found]
    exact beq_self_eq_true decl.name
  have owned : seen = true → Function.Owns around [decl.id] := coherent.id_eq found ▸ owned
  refine (Agrees.requireKnown _ _).bind fun _ =>
    ((traverseInit_agrees coherent inside decl).withPending _).bind fun typed? => ?_
  split
  on_goal 1 => refine (Agrees.requireAgreement _ _ _).bind fun _ => ?_
  -- With or without a first value, the scope is noted and the name declared if it is to be seen.
  all_goals
    refine .context_bind fun context _ => (Agrees.note _).bind fun _ => ?_
    split
    · exact .declareLocal (owned rfl) declares
    · exact .declareLocal (owned rfl) declares
    · exact .pure _

theorem traverseHandle_agrees {id : VarId} (owned : Function.Owns around [id]) :
    Agrees program around depth (traverseHandle (rules program .innermost) program id)
      (traverseHandle (rules program .lastInBody) program id) := by
  unfold traverseHandle Program.decl
  cases found : program.decl? id with
  | none => exact .fail _ _
  | some decl => exact varDecl_agrees coherent inside found fun _ => owned

theorem returns_agree (address : Address) (value : Expr) {span : Span} :
    Agrees program around depth
      (returns (exprPart (exprs program .innermost) address value) span)
      (returns (exprPart (exprs program .lastInBody) address value) span) := by
  refine .context_bind fun context _ => ?_
  split
  · exact .fail _ _
  · exact (traverseExpr_agrees coherent inside address value).bind fun _ =>
      .ite _ (.fail _ _) (.pure _)

theorem traverseParam_agrees (param : Param) :
    Agrees program around depth (traverseParam (rules program .innermost) program param)
      (traverseParam (rules program .lastInBody) program param) := by
  change Agrees _ _ _ (Rules.param program .innermost param)
    (Rules.param program .lastInBody param)
  unfold Rules.param Program.decl
  cases found : program.decl? param.decl with
  | none => exact .fail _ _
  | some decl =>
      have visited : Agrees program around depth (varDecl program false decl _)
          (varDecl program false decl _) := varDecl_agrees coherent inside found nofun
      refine visited.bind fun _ => .context_bind fun context _ => ?_
      split
      · exact .pure _
      · exact .fail _ _

omit coherent inside

mutual

/-- A statement that can be visited while the innermost declaration counts is visited likewise if
the last one in the body does. -/
theorem traverseStmt_agrees (coherent : program.Coherent)
    (inside : ∀ function, around = some function → function.Unambiguous program)
    (address : Address) {depth : Nat} : (stmt : Stmt) → Function.Owns around stmt.handles →
    Agrees program around depth (traverseStmt (rules program .innermost) program address stmt)
      (traverseStmt (rules program .lastInBody) program address stmt)
  | .block body, owned => traverseBlock_agrees coherent inside _ body owned
  | .returns value _, _ => returns_agree coherent inside _ value
  | .branch branches otherwise _, owned =>
    (traverseBranches_agree coherent inside address 0 branches owned.left).bind fun _ =>
      traverseOtherwise_agrees coherent inside address otherwise owned.right
  | .forLoop _ condition step body _, owned =>
    .inNewEnvironment <| (traverseHandle_agrees coherent inside owned.head).bind fun _ =>
      ((traverseExpr_agrees coherent inside _ condition).map _).bind fun _ =>
        ((traverseExpr_agrees coherent inside _ step).map _).bind fun _ =>
          (traverseBlock_agrees coherent inside _ body owned.tail).inLoop _
  | .whileLoop condition body _, owned =>
    ((traverseExpr_agrees coherent inside _ condition).map _).bind fun _ =>
      (traverseBlock_agrees coherent inside _ body owned).inLoop _
  | .expression value, _ => (traverseExpr_agrees coherent inside _ value).map _
  | .declare _ _, owned => traverseHandle_agrees coherent inside owned
  | .breakLoop _, _ | .continueLoop _, _ =>
    .context_bind fun _ _ => .ite _ (.fail _ _) (.pure _)

theorem traverseBlock_agrees (coherent : program.Coherent)
    (inside : ∀ function, around = some function → function.Unambiguous program)
    (address : Address) {depth : Nat} : (block : Block) → Function.Owns around block.handles →
    Agrees program around depth (traverseBlock (rules program .innermost) program address block)
      (traverseBlock (rules program .lastInBody) program address block)
  | ⟨body, _⟩, owned =>
    .inNewEnvironment ((traverseStmts_agree coherent inside address 0 body owned).inBlock _)

theorem traverseStmts_agree (coherent : program.Coherent)
    (inside : ∀ function, around = some function → function.Unambiguous program)
    (address : Address) {depth : Nat} (index : Nat) : (stmts : List Stmt) →
    Function.Owns around (Stmt.listHandles stmts) →
    Agrees program around depth
      (traverseStmts (rules program .innermost) program address index stmts)
      (traverseStmts (rules program .lastInBody) program address index stmts)
  | [], _ => .pure _
  | stmt :: rest, owned =>
    (traverseStmt_agrees coherent inside _ stmt owned.left).bind fun _ =>
      traverseStmts_agree coherent inside address (index + 1) rest owned.right

theorem traverseBranches_agree (coherent : program.Coherent)
    (inside : ∀ function, around = some function → function.Unambiguous program)
    (address : Address) {depth : Nat} (index : Nat) : (branches : List Branch) →
    Function.Owns around (Branch.listHandles branches) →
    Agrees program around depth
      (traverseBranches (rules program .innermost) program address index branches)
      (traverseBranches (rules program .lastInBody) program address index branches)
  | [], _ => .pure _
  | ⟨condition, body⟩ :: rest, owned =>
    ((traverseExpr_agrees coherent inside _ condition).map _).bind fun _ =>
      (traverseBlock_agrees coherent inside _ body owned.left).bind fun _ =>
        traverseBranches_agree coherent inside address (index + 1) rest owned.right

theorem traverseOtherwise_agrees (coherent : program.Coherent)
    (inside : ∀ function, around = some function → function.Unambiguous program)
    (address : Address) {depth : Nat} : (otherwise : Option Block) →
    Function.Owns around (Block.optionHandles otherwise) →
    Agrees program around depth
      (traverseOtherwise (rules program .innermost) program address otherwise)
      (traverseOtherwise (rules program .lastInBody) program address otherwise)
  | none, _ => .pure _
  | some body, owned => traverseBlock_agrees coherent inside _ body owned

end

end Trees

section Parts

variable (coherent : program.Coherent)

include coherent

theorem traverseFunction_agrees (root : Root) {function : Function}
    (unambiguous : function.Unambiguous program) :
    Agrees program none 0 (traverseFunction (rules program .innermost) program root function)
      (traverseFunction (rules program .lastInBody) program root function) := by
  have inside : ∀ other, some function = some other → other.Unambiguous program := by
    intro other same
    cases same
    exact unambiguous
  have owned : Function.Owns (some function) function.body.handles := by
    intro other same
    cases same
    exact List.Subset.refl _
  have parts : Agrees program none 0
      (Visit.inFunction (some function) do
        traverseSignature (rules program .innermost) program function.signature
        traverseBlock (rules program .innermost) program (.ofRoot root) function.body)
      (Visit.inFunction (some function) do
        traverseSignature (rules program .lastInBody) program function.signature
        traverseBlock (rules program .lastInBody) program (.ofRoot root) function.body) :=
    .inFunction function <|
      (Agrees.forM fun param _ => traverseParam_agrees coherent inside param).bind fun _ =>
        traverseBlock_agrees coherent inside _ function.body owned
  exact (Agrees.requireKnown _ _).bind fun _ => parts.bind fun _ => .ite _ (.fail _ _) (.pure _)

theorem traverseRecord_agrees (index : Nat) {record : RecordDecl}
    (unambiguous : ∀ method ∈ record.methods, method.Unambiguous program) :
    Agrees program none 0 (traverseRecord (rules program .innermost) program index record)
      (traverseRecord (rules program .lastInBody) program index record) := by
  have parent : Agrees program none 0 (Rules.parent program record)
      (Rules.parent program record) := by
    unfold Rules.parent
    split
    · exact .pure _
    · exact .ite _ (.fail _ _) (.pure _)
  have outside : ∀ function : Function, none = some function → function.Unambiguous program := by
    intro _ inside
    cases inside
  exact parent.bind fun _ => .inRecord _ <|
    (Agrees.forM fun _ _ => traverseHandle_agrees coherent outside .outside).bind
      fun _ => .forM fun entry listed =>
        traverseFunction_agrees coherent _
          (unambiguous entry.1 (List.fst_mem_of_mem_zipIdx listed))

/-- The check of a program without ambiguous bodies goes the same way under both lookups, if it
passes while the innermost declaration counts. -/
theorem traverseProgram_agrees (unambiguous : program.Unambiguous) :
    Agrees program none 0 (traverseProgram (rules program .innermost) program)
      (traverseProgram (rules program .lastInBody) program) := by
  simp only [Program.Unambiguous, Program.bodies, List.forall_mem_append,
    List.forall_mem_flatMap] at unambiguous
  obtain ⟨⟨methods, functions⟩, main⟩ := unambiguous
  have outside : ∀ function : Function, none = some function → function.Unambiguous program := by
    intro _ inside
    cases inside
  refine (Agrees.forM fun id _ => ?_).bind fun _ => ?_
  · exact traverseHandle_agrees coherent outside .outside
  refine (Agrees.forM fun entry listed => ?_).bind fun _ => ?_
  · exact traverseRecord_agrees coherent entry.2
      (methods entry.1 (List.fst_mem_of_mem_zipIdx listed))
  refine (Agrees.forM fun entry listed => ?_).bind fun _ => ?_
  · exact traverseFunction_agrees coherent _
      (functions entry.1 (List.fst_mem_of_mem_zipIdx listed))
  refine (Agrees.forM fun function listed => ?_).bind fun _ => ?_
  · exact traverseFunction_agrees coherent _ (main function listed)
  refine Agrees.forM fun entry _ => ?_
  exact traverseStmt_agrees coherent outside _ entry.1 .outside

end Parts

end Rules

namespace Program

variable {source file : String} {program : Program}

/-- An analysis that ends well while the innermost declaration counts is the analysis under the
other lookup, too. -/
theorem ofProgram_lastInBody (coherent : program.Coherent) (unambiguous : program.Unambiguous)
    (passes : (Analysis.ofProgram program .innermost).outcome = .ok ()) :
    Analysis.ofProgram program .lastInBody = Analysis.ofProgram program .innermost := by
  have outside : Function.Surrounds program none 0 { inner := {} } := ⟨rfl, rfl, nofun⟩
  have agrees := Rules.traverseProgram_agrees coherent unambiguous _ outside
  have run (lookup : LocalLookup) : Analysis.ofProgram program lookup =
      let outcome := (traverseProgram (rules program lookup) program).run.run { inner := {} }
      ⟨outcome.2.inner.findings.toList, outcome.1⟩ := rfl
  unfold Action.Ensures at agrees
  rw [run] at passes
  rw [run, run]
  generalize (traverseProgram (rules program .innermost) program).run.run { inner := {} } = first
    at agrees passes ⊢
  obtain ⟨error | ⟨⟩, final⟩ := first
  · cases passes
  · rw [agrees.1]

/-- A check that passes while the innermost declaration counts passes under the other lookup, too,
and enters the same. -/
theorem check_lastInBody (coherent : program.Coherent) (unambiguous : program.Unambiguous)
    (passes : (program.check .innermost).2 = .ok ()) :
    program.check .lastInBody = program.check .innermost := by
  have ends : (Analysis.ofProgram program .innermost).outcome = .ok () := by
    unfold check Analysis.enterInto at passes
    split at passes
    · exact passes
    · cases passes
  unfold check
  rw [ofProgram_lastInBody coherent unambiguous ends]

/-- The two lookups agree on a program whose bodies declare no name twice and no name of a global
variable. If it passes the check while the innermost declaration before a reference counts, it
passes while the last one in the body does, and all is found out alike. -/
theorem check_lastInBody_agrees (read : Program.ofSource source file = .ok program)
    (unambiguous : program.Unambiguous) (passes : (program.check .innermost).2 = .ok ()) :
    (program.check .lastInBody).2 = .ok () ∧
      (∀ address,
        (program.check .lastInBody).1.type? address = (program.check .innermost).1.type? address ∧
        (program.check .lastInBody).1.link? address = (program.check .innermost).1.link? address ∧
        (program.check .lastInBody).1.isConstructor address =
          (program.check .innermost).1.isConstructor address) ∧
      ∀ id,
        (program.check .lastInBody).1.scope? id = (program.check .innermost).1.scope? id := by
  rw [check_lastInBody (coherent_of_ofSource read) unambiguous passes]
  exact ⟨passes, fun _ => ⟨rfl, rfl, rfl⟩, fun _ => rfl⟩

/-- A function may declare variables in the header of a loop and inside of it, and another function
may declare the same names. -/
theorem check_lastInBody_agrees_sum : ∃ program,
    Program.ofSource
      ("base: int = 3\ndef sum(to: int): int\n    total: int = base\n" ++
        "    for i: int = 0, i < to, i += 1:\n        more: int = total + i\n" ++
        "        total = more\n    return total\n" ++
        "def more(total: int): int\n    i: int = total\n    return i + base\n") "sum" =
      .ok program ∧
    program.Unambiguous ∧ (program.check .innermost).2 = .ok () ∧
    (program.check .lastInBody).2 = .ok () := by
  have passes : (Program.checkSource
      ("base: int = 3\ndef sum(to: int): int\n    total: int = base\n" ++
        "    for i: int = 0, i < to, i += 1:\n        more: int = total + i\n" ++
        "        total = more\n    return total\n" ++
        "def more(total: int): int\n    i: int = total\n    return i + base\n") "sum").toOption.map
      (fun checked => decide checked.1.Unambiguous) = some true := by
    decide +kernel
  obtain ⟨⟨program, annotations⟩, checked, unambiguous⟩ := exists_ok_of_map_toOption passes
  obtain ⟨read, ok⟩ := Program.of_checkSource checked
  have unambiguous : program.Unambiguous := of_decide_eq_true unambiguous
  have innermost : (program.check .innermost).2 = .ok () := by rw [ok]
  exact ⟨program, read, unambiguous, innermost,
    (check_lastInBody_agrees read unambiguous innermost).1⟩

end Program

end Offside
