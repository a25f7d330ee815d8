import Offside.Syntax.Name

/-!
# Addresses of nodes

A node of a program is found from the place where its tree hangs in the program, by the steps that
lead from the root of the tree down to it. What is found out about a node is kept under its address,
so that trees never change.
-/

namespace Offside

/-- A place in a program where a tree hangs. -/
inductive Root where
  /-- The first value of a variable. -/
  | initializer (decl : VarId)
  /-- The body of the function at an index. -/
  | function (index : Nat)
  /-- The body of the entry point. -/
  | main
  /-- The body of the method at an index of the record type at an index. -/
  | method (record index : Nat)
  /-- The free statement at an index. -/
  | statement (index : Nat)
  deriving DecidableEq, Repr, Inhabited

/-- The step from a node to one of its parts. -/
inductive Step where
  /-- A value of an array. -/
  | element (index : Nat)
  /-- The left operand. -/
  | left
  /-- The right operand. -/
  | right
  /-- The only operand. -/
  | operand
  /-- The receiver of a member. -/
  | receiver
  /-- The value of an argument. -/
  | argument (index : Nat)
  /-- The value of a `return` or of an expression that stands as a statement. -/
  | value
  /-- The condition of a branch or loop. A loop has one branch. -/
  | condition (index : Nat)
  /-- The block of a branch or loop, or of a block that stands as a statement. -/
  | body (index : Nat)
  /-- The block of an `else`. -/
  | otherwise
  /-- The step of a `for`. -/
  | update
  /-- A statement of a block. -/
  | statement (index : Nat)
  deriving DecidableEq, Repr, Inhabited

/-- The address of a node. -/
structure Address where
  /-- Where the node's tree hangs. -/
  root : Root
  /-- The number of steps, by which most addresses are told apart at once. -/
  depth : Nat := 0
  /-- The steps between the node and the root, the last one first. -/
  steps : List Step := []
  depth_eq : depth = steps.length := by rfl
  deriving DecidableEq

namespace Address

/-- The address of the root of a tree. -/
def ofRoot (root : Root) : Address :=
  { root }

/-- The address of a part of a node. -/
def part (address : Address) (step : Step) : Address where
  root := address.root
  depth := address.depth + 1
  steps := step :: address.steps
  depth_eq := by simp [address.depth_eq]

/-- Addresses are the same if the root and the steps are. -/
theorem ext_steps {a b : Address} (hroot : a.root = b.root) (hsteps : a.steps = b.steps) :
    a = b := by
  cases a with | mk _ _ _ ha =>
  cases b with | mk _ _ _ hb =>
  simp only at hroot hsteps
  subst hroot hsteps
  subst ha hb
  rfl

/-- Parts of nodes have the same address only if the nodes and the steps are the same. -/
@[simp] theorem part_inj {a b : Address} {s t : Step} :
    a.part s = b.part t ↔ a = b ∧ s = t := by
  constructor
  · intro h
    have hroot := congrArg Address.root h
    have hsteps := congrArg Address.steps h
    simp only [part, List.cons.injEq] at hroot hsteps
    exact ⟨ext_steps hroot hsteps.2, hsteps.1⟩
  · rintro ⟨rfl, rfl⟩
    rfl

/-- No node is a part of itself. -/
theorem part_ne (a : Address) (s : Step) : a.part s ≠ a := by
  intro h
  have := congrArg Address.depth h
  simp [part] at this

end Address

end Offside
