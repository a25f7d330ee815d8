import Offside.Syntax.Name

/-!
# Environments

The local variables of one block, as they stand at some place in it. Looking a name up gives the
latest declaration of it and is not changed by declarations of other names.
-/

namespace Offside

/-- The local variables declared in one block so far, the latest first. -/
structure Environment where
  /-- Names with declarations. -/
  entries : List (String × VarId) := []
  deriving DecidableEq, Repr, Inhabited

namespace Environment

/-- Declares a name. It hides an earlier declaration of the name in the same block. -/
def declare (environment : Environment) (name : String) (decl : VarId) : Environment :=
  ⟨(name, decl) :: environment.entries⟩

/-- The latest declaration of a name. -/
def find? (environment : Environment) (name : String) : Option VarId :=
  environment.entries.lookup name

@[simp] theorem find?_declare_self (environment : Environment) (name : String) (decl : VarId) :
    (environment.declare name decl).find? name = some decl := by
  simp [declare, find?]

theorem find?_declare_of_ne (environment : Environment) {name other : String} (decl : VarId)
    (h : other ≠ name) :
    (environment.declare name decl).find? other = environment.find? other := by
  have : (other == name) = false := by simpa using h
  simp [declare, find?, List.lookup_cons, this]

end Environment

end Offside
