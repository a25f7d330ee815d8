import Offside.Syntax.Program
import Mathlib.Data.List.Nodup

/-! # Handles in programs

The trees of a program hold handles of variable declarations. A program is coherent if each of its
declarations is held in exactly one place, and if no two record types have the same name.
-/

namespace Offside

mutual

/-- The handles in a statement, in the order of the source. -/
def Stmt.handles : Stmt → List VarId
  | .block body => Block.handles body
  | .branch branches otherwise _ =>
    Branch.listHandles branches ++ Block.optionHandles otherwise
  | .forLoop init _ _ body _ => init :: Block.handles body
  | .whileLoop _ body _ => Block.handles body
  | .declare decl _ => [decl]
  | .returns .. | .expression _ | .breakLoop _ | .continueLoop _ => []

/-- The handles in a block. -/
def Block.handles : Block → List VarId
  | ⟨body, _⟩ => Stmt.listHandles body

/-- The handles in some statements. -/
def Stmt.listHandles : List Stmt → List VarId
  | [] => []
  | stmt :: rest => Stmt.handles stmt ++ Stmt.listHandles rest

/-- The handles in some branches. -/
def Branch.listHandles : List Branch → List VarId
  | [] => []
  | ⟨_, body⟩ :: rest => Block.handles body ++ Branch.listHandles rest

/-- The handles in a block that may be missing. -/
def Block.optionHandles : Option Block → List VarId
  | none => []
  | some body => Block.handles body

end

theorem Stmt.listHandles_eq_flatMap (stmts : List Stmt) :
    Stmt.listHandles stmts = stmts.flatMap Stmt.handles := by
  induction stmts with
  | nil => rfl
  | cons stmt rest ih => rw [Stmt.listHandles, ih, List.flatMap_cons]

theorem Branch.listHandles_eq_flatMap (branches : List Branch) :
    Branch.listHandles branches = branches.flatMap fun branch => branch.body.handles := by
  induction branches with
  | nil => rfl
  | cons branch rest ih =>
      cases branch with
      | mk condition body => rw [Branch.listHandles, ih, List.flatMap_cons]

/-- The handles in a function: those of its parameters, and then those in its body. -/
def Function.handles (function : Function) : List VarId :=
  function.signature.params.map Param.decl ++ function.body.handles

/-- The handles in a record type: those of its properties, and then those in its methods. -/
def RecordDecl.handles (record : RecordDecl) : List VarId :=
  record.properties ++ record.methods.flatMap Function.handles

namespace Program

/-- The handles in a program, in the order in which its parts are listed. -/
def handles (program : Program) : List VarId :=
  program.globals ++ program.records.flatMap RecordDecl.handles ++
    program.functions.flatMap Function.handles ++ program.main.toList.flatMap Function.handles ++
    Stmt.listHandles program.statements

/-- The handles that the declarations of a program have, in order. -/
def validHandles (program : Program) : List VarId :=
  (List.range program.decls.size).map VarId.mk

/-- Every declaration has the handle that it is found under and is held in exactly one place, and
record types are told apart by their names. -/
structure Coherent (program : Program) : Prop where
  id_eq : ∀ {id decl}, program.decl? id = some decl → decl.id = id
  handles_perm : program.handles.Perm program.validHandles
  recordNames_nodup : (program.records.map RecordDecl.name).Nodup

variable {program : Program} {id : VarId}

theorem mem_validHandles : id ∈ program.validHandles ↔ (program.decl? id).isSome := by
  cases id with | mk index => simp [validHandles, decl?]

namespace Coherent

theorem mem_handles (coherent : program.Coherent) :
    id ∈ program.handles ↔ (program.decl? id).isSome := by
  rw [coherent.handles_perm.mem_iff, mem_validHandles]

theorem nodup_handles (coherent : program.Coherent) : program.handles.Nodup := by
  refine coherent.handles_perm.nodup_iff.2 (List.Nodup.map ?_ List.nodup_range)
  intro a b same
  cases same
  rfl

end Coherent

/-- The first record type with the name of a given one is that one, if names are not repeated. -/
theorem find?_name_of_mem {records : List RecordDecl} {record : RecordDecl}
    (names : (records.map RecordDecl.name).Nodup) (member : record ∈ records) :
    records.find? (fun other => other.name == record.name) = some record := by
  induction records with
  | nil => cases member
  | cons first rest ih =>
      rw [List.map_cons, List.nodup_cons] at names
      rcases List.mem_cons.1 member with rfl | member
      · simp
      · have other : first.name ≠ record.name := by
          intro same
          exact names.1 (same ▸ List.mem_map_of_mem member)
        simpa [List.find?_cons, other] using ih names.2 member

theorem Coherent.record?_name (coherent : program.Coherent) {record : RecordDecl}
    (member : record ∈ program.records) : program.record? record.name = some record :=
  find?_name_of_mem coherent.recordNames_nodup member

end Program

end Offside
