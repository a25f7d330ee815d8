import Offside.Grammar.Program
import Offside.Typing.Rules

/-!
# Checked programs

Checking analyses a program and enters the findings into its annotations. The analysis does not
depend on the annotations; a finding that has been entered before ends the check where it recurs.
-/

namespace Offside

/-- What the rules found out, and how it ended. -/
structure Analysis where
  /-- What was found out, in order. -/
  findings : List Finding
  /-- The fault that ended the work, if any. -/
  outcome : Except Error Unit

namespace Analysis

/-- The analysis that an action of the rules makes outside of everything. -/
def ofVisit (visit : Visit TypingState Unit) : Analysis :=
  let (outcome, state) := visit.run { inner := {} }
  ⟨state.inner.findings.toList, outcome⟩

/-- The analysis of one declaration. -/
def ofDecl (program : Program) (lookup : LocalLookup) (decl : Declaration) : Analysis :=
  ofVisit (traverseDecl (rules program lookup) program decl)

/-- The analysis of a program. -/
def ofProgram (program : Program) (lookup : LocalLookup) : Analysis :=
  ofVisit (traverseProgram (rules program lookup) program)

/-- Enters the findings into annotations. A finding that cannot be entered is what ends the work. -/
def enterInto (analysis : Analysis) (annotations : Annotations) :
    Annotations × Except Error Unit :=
  match annotations.enterAll analysis.findings with
  | (annotations, .ok ()) => (annotations, analysis.outcome)
  | (annotations, .error error) => (annotations, .error error)

end Analysis

/-- Checks a program, and enters what is found out into its annotations. -/
def Program.check (program : Program) (lookup : LocalLookup)
    (annotations : Annotations := {}) : Annotations × Except Error Unit :=
  (Analysis.ofProgram program lookup).enterInto annotations

/-- The program that a source text spells, with its annotations, if it passes the check. -/
def Program.checkSource (source : String) (file : String := Position.defaultFile)
    (lookup : LocalLookup := .innermost) : Except Error (Program × Annotations) := do
  let program ← Program.ofSource source file
  match Program.check program lookup with
  | (annotations, .ok ()) => return (program, annotations)
  | (_, .error error) => throw error

end Offside
