import Offside.Proofs.Rechecking.Statements

/-! # Checking again

A check that fills in cells as it goes, and reads them, comes to what entering the findings comes to
behind an analysis. So what a second check does is decided by the cells that the first one has
filled in.
-/

namespace Offside

namespace Program

/-- Whatever the annotations hold before it, a check that fills in the cells one by one, and reads
them, leaves the same in them as entering the findings of the analysis does, and ends in the same
way. -/
theorem checkCells_eq_check (program : Program) (lookup : LocalLookup)
    (annotations : Annotations) :
    program.checkCells lookup annotations = program.check lookup annotations := by
  have visits : Cells.Alike annotations (traverseProgram (rules program lookup) program)
      (traverseProgram (Cells.rules annotations program lookup) program) :=
    Cells.traverseProgram_fills
  have ends := (visits { inner := {} }).2 trivial rfl
  have cells : program.checkCells lookup annotations =
      let outcome :=
        (traverseProgram (Cells.rules annotations program lookup) program).run.run { inner := {} }
      (Cells.held annotations outcome.2.inner, outcome.1) := rfl
  have check : program.check lookup annotations =
      let outcome := (traverseProgram (rules program lookup) program).run.run { inner := {} }
      Analysis.enterInto ⟨outcome.2.inner.findings.toList, outcome.1⟩ annotations := rfl
  rw [cells, check]
  generalize (traverseProgram (rules program lookup) program).run.run { inner := {} } = noted
    at ends ⊢
  generalize (traverseProgram (Cells.rules annotations program lookup) program).run.run
    { inner := {} } = filled at ends ⊢
  cases ends with
  | @returns _ _ final all =>
      have entered : annotations.enterAll final.inner.findings.toList =
          (Cells.held annotations final.inner, .ok ()) := Prod.ext rfl all
      simp only [Analysis.enterInto, entered]
  | @fails _ final all =>
      have entered : annotations.enterAll final.inner.findings.toList =
          (Cells.held annotations final.inner, .ok ()) := Prod.ext rfl all
      simp only [Analysis.enterInto, entered]
  | @stops _ final stopped error all =>
      have entered : annotations.enterAll final.inner.findings.toList =
          (Cells.held annotations stopped.inner, .error error) := all
      simp only [Analysis.enterInto, entered]

/-- What comes of entering findings where nothing is set, and of doing so again. -/
theorem enterInto_again (analysis : Analysis) :
    ((∃ cell, (analysis.enterInto {}).1.Fills cell) ∧ ∃ message position,
        analysis.enterInto (analysis.enterInto {}).1 =
          ((analysis.enterInto {}).1, .error ⟨.internalError message, position⟩)) ∨
      (∀ cell, ¬ (analysis.enterInto {}).1.Fills cell) ∧
        analysis.enterInto (analysis.enterInto {}).1 = analysis.enterInto {} := by
  have empty : ∀ cell, ¬ Annotations.Fills {} cell := by
    rintro (_ | _ | _) <;> simp [Annotations.Fills, Annotations.type?, Annotations.link?,
      Annotations.scope?]
  have first : (analysis.enterInto {}).1 = (Annotations.enterAll {} analysis.findings).1 := by
    unfold Analysis.enterInto
    split <;> simp_all
  have kept := Annotations.KeptBy.refl (Annotations.enterAll {} analysis.findings).1
  rw [first]
  rcases Annotations.enterAll_again empty kept with
    ⟨filled, message, position, refused⟩ | ⟨none, ends, same⟩
  · exact .inl ⟨filled, message, position, by rw [Analysis.enterInto, refused]⟩
  · refine .inr ⟨none, ?_⟩
    have all : Annotations.enterAll {} analysis.findings =
        ((Annotations.enterAll {} analysis.findings).1, .ok ()) := Prod.ext rfl ends
    simp only [Analysis.enterInto, same]
    rw [all]

/-- What the cells hold as soon as a check of a program without annotations has found out a number
of things. -/
def checkedUpTo (program : Program) (lookup : LocalLookup) (count : Nat) : Annotations :=
  (Annotations.enterAll {} ((Analysis.ofProgram program lookup).findings.take count)).1

/-- In the end of a check, the cells hold all that has been found out. -/
theorem checkedUpTo_length (program : Program) (lookup : LocalLookup) :
    program.checkedUpTo lookup (Analysis.ofProgram program lookup).findings.length =
      (program.check lookup).1 := by
  rw [checkedUpTo, List.take_length, check, Analysis.enterInto]
  split <;> simp_all

/-- Cells are written once. While a check goes on, whatever has been set stays as it is. If in the
end it has filled in any cell, whether it passed or failed, checking the annotated program again is
an internal error and changes nothing. If it has filled in none, checking again is just the same.
All this is so although a check reads the cells that it has filled in, and those that it finds
filled: it comes to the same as entering what has been found out without them. -/
theorem check_check (program : Program) (lookup : LocalLookup) :
    (∀ annotations, program.checkCells lookup annotations = program.check lookup annotations) ∧
    (∀ count more, count ≤ more →
      (program.checkedUpTo lookup count).KeptBy (program.checkedUpTo lookup more)) ∧
    program.checkedUpTo lookup (Analysis.ofProgram program lookup).findings.length =
      (program.check lookup).1 ∧
    ((∃ cell, (program.check lookup).1.Fills cell) → ∃ message position,
      program.check lookup (program.check lookup).1 =
        ((program.check lookup).1, .error ⟨.internalError message, position⟩)) ∧
    ((∀ cell, ¬ (program.check lookup).1.Fills cell) →
      program.check lookup (program.check lookup).1 = program.check lookup) := by
  refine ⟨program.checkCells_eq_check lookup, fun _ _ => Annotations.enterAll_take_keptBy _ _,
    program.checkedUpTo_length lookup, fun filled => ?_, fun empty => ?_⟩
  · rcases enterInto_again (Analysis.ofProgram program lookup) with ⟨-, refused⟩ | ⟨none, -⟩
    · exact refused
    · obtain ⟨cell, fills⟩ := filled
      exact absurd fills (none cell)
  · rcases enterInto_again (Analysis.ofProgram program lookup) with ⟨⟨cell, fills⟩, -⟩ | ⟨-, same⟩
    · exact absurd fills (empty cell)
    · exact same

/-- A global variable gets its scope from the first check, so that the second one fails. -/
theorem check_check_global : ∃ program,
    Program.ofSource "n: int = 1\n" "once" = .ok program ∧
    (program.check .innermost).2 = .ok () ∧ ∃ message position,
      program.check .innermost (program.check .innermost).1 =
        ((program.check .innermost).1, .error ⟨.internalError message, position⟩) := by
  have passes : (Program.ofSource "n: int = 1\n" "once").toOption.map (fun program =>
      decide ((program.check .innermost).2.isOk = true ∧
        ((program.check .innermost).1.scope? ⟨0⟩).isSome = true)) = some true := by
    decide +kernel
  obtain ⟨program, read, checked⟩ := exists_ok_of_map_toOption passes
  obtain ⟨ok, filled⟩ := of_decide_eq_true checked
  obtain ⟨⟨⟩, ok⟩ := exists_ok_of_isOk ok
  obtain ⟨-, -, -, refused, -⟩ := check_check program .innermost
  exact ⟨program, read, ok, refused ⟨.scope ⟨0⟩, filled⟩⟩

end Program

end Offside
