import Offside.Proofs.Flow.Execution
import Offside.Proofs.Typing.Sources

/-! # Runs of checked bodies

In a program that has passed the check, a loop is left or goes on with its next round only from
inside it, and a function that returns something is run to the end of its body by no run: each run
that ends does so at a `return`, with a value of the right type.
-/

namespace Offside

variable {program : Program} {lookup : LocalLookup} {place inner : Place} {address : Address}
  {exit : Exit}

/-- Code at a place may be run to an exit: loops are left from inside, and values are returned from
where they stand in the program, with a type that agrees with that of the function. -/
inductive Exit.Lawful (program : Program) (lookup : LocalLookup) (place : Place) : Exit → Prop where
  | falls : Lawful program lookup place .falls
  | breaks : place.inLoop = true → Lawful program lookup place .breaks
  | continues : place.inLoop = true → Lawful program lookup place .continues
  | returns {function inner address value type} :
    place.function = some function → .expr address inner none value ∈ program.sites →
    HasType program lookup inner none value type → type.agrees function.signature.returnType →
    Lawful program lookup place (.returns address value)

/-- An exit is lawful further out in the same function, unless it is from a loop inside. -/
theorem Exit.Lawful.outward (lawful : exit.Lawful program lookup inner)
    (function : inner.function = place.function) (inLoop : inner.inLoop = place.inLoop) :
    exit.Lawful program lookup place := by
  cases lawful with
  | falls => exact .falls
  | breaks inside => exact .breaks (inLoop ▸ inside)
  | continues inside => exact .continues (inLoop ▸ inside)
  | returns around listed typed agrees => exact .returns (function ▸ around) listed typed agrees

/-- Code is well typed at a place of a program, at an address of it. The rounds of a loop are those
of its body inside the loop. -/
def Code.Checked (program : Program) (lookup : LocalLookup) (address : Address) (place : Place) :
    Code → Prop
  | .stmt single => single.WellTyped program lookup place ∧
    single.sites program place address ⊆ program.sites
  | .block whole => whole.WellTyped program lookup place ∧
    whole.sites program place address ⊆ program.sites
  | .rest index stmts => ∃ before : List Stmt, before.length = index ∧
    (∀ middle single behind, stmts = middle ++ single :: behind →
      single.WellTyped program lookup (place.within (.block (before ++ middle)))) ∧
    Stmt.listSites program place address before stmts ⊆ program.sites
  | .rounds inside => inside.WellTyped program lookup place.repeated ∧
    inside.sites program place.repeated address ⊆ program.sites

theorem Branch.sites_subset {branches : List Branch} {branch : Branch} (first : Nat) {index : Nat}
    (found : branches[index]? = some branch) :
    branch.body.sites program place (address.part (.body (first + index))) ⊆
      Branch.listSites program place address first branches := by
  induction branches generalizing first index with
  | nil => simp at found
  | cons other rest ih =>
      obtain ⟨condition, body⟩ := other
      rw [Branch.listSites]
      cases index with
      | zero =>
          rw [List.getElem?_cons_zero, Option.some.injEq] at found
          subst found
          simp
      | succ index =>
          rw [List.getElem?_cons_succ] at found
          have later := ih (first + 1) found
          rw [Nat.add_assoc, Nat.add_comm 1] at later
          intro site member
          exact List.mem_append_right _ (later member)

/-- A run of checked code ends with a lawful exit. -/
theorem Code.Runs.lawful {code : Code} (run : Code.Runs address code exit)
    (checked : code.Checked program lookup address place) : exit.Lawful program lookup place := by
  induction run generalizing place with
  | block _ ih =>
      obtain ⟨typed, listed⟩ := checked
      cases typed with
      | block typed => exact ih ⟨typed, listed⟩
  | @returns _ value span =>
      obtain ⟨typed, listed⟩ := checked
      cases typed with
      | returns around typed agrees =>
          refine .returns around (listed ?_) typed agrees
          rw [Stmt.sites]
          cases value <;> simp [Expr.sites]
  | @branch address index branch branches _ _ _ found _ ih =>
      obtain ⟨typed, listed⟩ := checked
      cases typed with
      | branch _ typed _ =>
          have here : branch.body.sites program place (address.part (.body (0 + index))) ⊆
              Branch.listSites program place address 0 branches := Branch.sites_subset 0 found
          rw [Nat.zero_add] at here
          exact ih ⟨typed _ (List.mem_of_getElem? found),
            List.Subset.trans here (List.append_subset.1 listed).1⟩
  | otherwise _ ih =>
      obtain ⟨typed, listed⟩ := checked
      cases typed with
      | branch _ _ typed => exact ih ⟨typed _ rfl, (List.append_subset.1 listed).2⟩
  | forLoop _ ih =>
      obtain ⟨typed, listed⟩ := checked
      cases typed with
      | forLoop _ _ _ typed =>
          exact (ih ⟨typed, (List.append_subset.1 listed).2⟩).outward rfl rfl
  | whileLoop _ ih =>
      obtain ⟨typed, listed⟩ := checked
      cases typed with
      | whileLoop _ typed => exact ih ⟨typed, (List.append_subset.1 listed).2⟩
  | breakLoop =>
      cases checked.1 with
      | breakLoop inside => exact .breaks inside
  | continueLoop =>
      cases checked.1 with
      | continueLoop inside => exact .continues inside
  | body _ ih =>
      obtain ⟨typed, listed⟩ := checked
      cases typed with
      | mk typed => exact ih ⟨[], rfl, typed, listed⟩
  | @next _ _ stmt rest _ _ _ _ ih =>
      obtain ⟨before, length, typed, listed⟩ := checked
      apply ih
      refine ⟨before ++ [stmt], by simp [length], ?_, (List.append_subset.1 listed).2⟩
      intro middle single behind same
      rw [List.append_assoc]
      exact typed (stmt :: middle) single behind (by rw [same]; rfl)
  | @leaves _ _ stmt rest _ _ _ ih =>
      obtain ⟨before, rfl, typed, listed⟩ := checked
      have here := typed [] stmt rest rfl
      rw [List.append_nil] at here
      exact (ih ⟨here, (List.append_subset.1 listed).1⟩).outward rfl rfl
  | again _ _ _ _ ih => exact ih checked
  | returnsInside _ ih =>
      -- A `break` or `continue` of the body would be of this loop, but a `return` is not.
      cases ih checked with
      | returns around listed typed agrees => exact .returns around listed typed agrees
  | noBranch | expression | declare | nil | stops | breaks => exact .falls

/-- A function of a well-typed program is well typed where it stands, outside of all loops. -/
theorem Program.BodyAt.wellTyped {root : Root} {function : Function}
    (hangs : program.BodyAt root function) (typed : program.WellTyped lookup) :
    ∃ place : Place, place.inLoop = false ∧ function.WellTyped program lookup place ∧
      function.sites program place root ⊆ program.sites := by
  cases hangs with
  | @function index _ found =>
      refine ⟨{}, rfl, typed.functions function (List.mem_of_getElem? found), ?_⟩
      intro site listed
      simp only [Program.sites, List.mem_append, List.mem_flatMap]
      exact .inl (.inl (.inr ⟨(function, index), List.mem_zipIdx_iff_getElem?.2 found, listed⟩))
  | main found =>
      refine ⟨{}, rfl, typed.main function found, ?_⟩
      intro site listed
      simp only [Program.sites, List.mem_append, List.mem_flatMap, Option.mem_toList]
      exact .inl (.inr ⟨function, found, listed⟩)
  | @method index methodIndex record _ found found' =>
      have listed := List.mem_of_getElem? found
      refine ⟨Place.inRecord {} record, rfl,
        (typed.records record listed).methods function (List.mem_of_getElem? found'), ?_⟩
      intro site member
      simp only [Program.sites, RecordDecl.sites, List.mem_append, List.mem_flatMap]
      exact .inl (.inl (.inl (.inr ⟨(record, index), List.mem_zipIdx_iff_getElem?.2 found,
        .inr ⟨(function, methodIndex), List.mem_zipIdx_iff_getElem?.2 found', member⟩⟩)))

theorem Program.wellTyped_of_checkSource {source file : String} {annotations : Annotations}
    (h : Program.checkSource source file lookup = .ok (program, annotations)) :
    program.WellTyped lookup := by
  obtain ⟨read, checked⟩ := Program.of_checkSource h
  rcases Program.check_cases (Program.coherent_of_ofSource read) lookup with
    ⟨typed, -⟩ | ⟨-, _, error, same, -⟩
  · exact typed
  · rw [checked] at same
    cases same

/-- In a program that has passed the check, a run of the body of a function ends at a `return` whose
value has been given a type that agrees with the one that the function returns. Only if that is null
may a run reach the end of the body instead. -/
theorem Program.run_body_returns {source file : String} {annotations : Annotations}
    (h : Program.checkSource source file lookup = .ok (program, annotations)) :
    ∀ root function, program.BodyAt root function →
      ∀ exit, Code.Runs (.ofRoot root) (.block function.body) exit →
        (∃ address value type, exit = .returns address value ∧
          annotations.type? address = some type ∧
          type.agrees function.signature.returnType) ∨
        exit = .falls ∧ function.signature.returnType.isNull = true := by
  intro root function hangs exit run
  have annotated := Program.annotated_of_checkSource h
  obtain ⟨place, outside, typed, listed⟩ :=
    hangs.wellTyped (Program.wellTyped_of_checkSource h)
  have lawful : exit.Lawful program lookup (place.inFunction function) :=
    run.lawful ⟨typed.body, (List.append_subset.1 listed).2⟩
  cases lawful with
  | falls =>
      rcases typed.returns with null | returns
      · exact .inr ⟨rfl, null⟩
      · exact absurd rfl (run.not_falls returns)
  | breaks inside | continues inside =>
      rw [Place.inFunction, outside] at inside
      cases inside
  | @returns _ _ address value type around member typed agrees =>
      obtain ⟨found, noted, unique⟩ := annotated.type _ _ _ _ member
      cases (unique type).1 typed
      cases around
      exact .inl ⟨address, value, type, rfl, noted, agrees⟩

/-- A method that may leave its loop, go on with it or return from inside it ends at a `return`. -/
theorem Program.run_body_returns_from_loop : ∃ program annotations,
    Program.checkSource
      ("hotpot Pot\n    size: int = 1\n    def grow(by: int): int\n        while true:\n" ++
      "            if by == 0:\n                break\n            elif by < 0:\n" ++
      "                continue\n            else:\n                return size\n" ++
      "        if size < by:\n            return by\n        else:\n            return size\n")
      "pot" .lastInBody = .ok (program, annotations) ∧
    ∀ root function, program.BodyAt root function →
      ∀ exit, Code.Runs (.ofRoot root) (.block function.body) exit →
        (∃ address value type, exit = .returns address value ∧
          annotations.type? address = some type ∧
          type.agrees function.signature.returnType) ∨
        exit = .falls ∧ function.signature.returnType.isNull = true := by
  have passes : (Program.checkSource
      ("hotpot Pot\n    size: int = 1\n    def grow(by: int): int\n        while true:\n" ++
      "            if by == 0:\n                break\n            elif by < 0:\n" ++
      "                continue\n            else:\n                return size\n" ++
      "        if size < by:\n            return by\n        else:\n            return size\n")
      "pot" .lastInBody).isOk = true := by
    decide +kernel
  obtain ⟨⟨program, annotations⟩, checked⟩ := exists_ok_of_isOk passes
  exact ⟨program, annotations, checked, Program.run_body_returns checked⟩

end Offside
