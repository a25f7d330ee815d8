import Mathlib.Data.List.Basic
import Offside.Grammar.Table
import Offside.Syntax.Expr

/-! # Trees of operators

The operators between operands group them into a tree. A tree is grouped as the precedences say if
no operator on the left of another binds looser than it and every operator on its right binds
tighter. The main statement, `OperatorTree.IsGrouped.eq_of_inorder`, says that the operands and
operators, in the order in which they stand, have at most one such tree.
-/

namespace Offside

/-- How tightly an operator binds the operands on its two sides. -/
def Operator.level (operator : Operator) : Nat :=
  ((Grammar.operatorPrecedence? operator).map Precedence.level).getD 0

/-- A tree of operators between operands. -/
inductive OperatorTree where
  | operand (expr : Expr)
  | node (operator : Operator) (left right : OperatorTree)

namespace OperatorTree

/-- The operator at the root, unless the tree is an operand. -/
def root? : OperatorTree → Option Operator
  | operand _ => none
  | node operator _ _ => some operator

/-- The leftmost operand. -/
def first : OperatorTree → Expr
  | operand expr => expr
  | node _ left _ => left.first

/-- The operators from left to right, each with the operand that stands right behind it. -/
def others : OperatorTree → List (Operator × Expr)
  | operand _ => []
  | node operator left right => left.others ++ (operator, right.first) :: right.others

/-- The expression that a tree stands for. -/
def toExpr : OperatorTree → Expr
  | operand expr => expr
  | node operator left right =>
    .binary operator left.toExpr right.toExpr ⟨left.toExpr.span.start, right.toExpr.span.stop⟩

/-- A tree is grouped as the precedences say, equal ones from the left. -/
inductive IsGrouped : OperatorTree → Prop where
  | operand {expr} : IsGrouped (.operand expr)
  | node {operator left right} : left.IsGrouped → right.IsGrouped →
    (∀ root ∈ left.root?, operator.level ≤ root.level) →
    (∀ root ∈ right.root?, operator.level < root.level) → IsGrouped (.node operator left right)

variable {tree other : OperatorTree}

/-- The root is one of the operators. -/
theorem exists_mem_others_of_root {root : Operator} (h : root ∈ tree.root?) :
    ∃ expr, (root, expr) ∈ tree.others := by
  cases tree with
  | operand expr => cases h
  | node operator left right =>
      cases h
      exact ⟨right.first, by simp [others]⟩

/-- A tree that has an operator has one at its root. -/
theorem exists_root_of_mem_others {link : Operator × Expr} (h : link ∈ tree.others) :
    ∃ root, root ∈ tree.root? := by
  cases tree with
  | operand expr => cases h
  | node operator left right => exact ⟨operator, rfl⟩

namespace IsGrouped

/-- No operator of a grouped tree binds looser than its root. -/
theorem le_of_mem (h : tree.IsGrouped) {root : Operator} (top : root ∈ tree.root?)
    {link : Operator × Expr} (member : link ∈ tree.others) : root.level ≤ link.1.level := by
  induction h generalizing root with
  | operand => cases top
  | @node operator left right _ _ looser tighter ihLeft ihRight =>
      cases top
      rw [others, List.mem_append, List.mem_cons] at member
      obtain inLeft | rfl | inRight := member
      · obtain ⟨top, isTop⟩ := exists_root_of_mem_others inLeft
        exact Nat.le_trans (looser top isTop) (ihLeft isTop inLeft)
      · exact Nat.le_refl _
      · obtain ⟨top, isTop⟩ := exists_root_of_mem_others inRight
        exact Nat.le_trans (Nat.le_of_lt (tighter top isTop)) (ihRight isTop inRight)

/-- Every operator on the right of the root binds tighter. -/
theorem lt_of_mem_right {operator : Operator} {left right : OperatorTree}
    (h : (OperatorTree.node operator left right).IsGrouped) {link : Operator × Expr}
    (member : link ∈ right.others) : operator.level < link.1.level := by
  cases h with
  | node _ grouped _ tighter =>
      obtain ⟨top, isTop⟩ := exists_root_of_mem_others member
      exact Nat.lt_of_lt_of_le (tighter top isTop) (grouped.le_of_mem isTop member)

/-- No operator on the left of the root binds looser. -/
theorem le_of_mem_left {operator : Operator} {left right : OperatorTree}
    (h : (OperatorTree.node operator left right).IsGrouped) {link : Operator × Expr}
    (member : link ∈ left.others) : operator.level ≤ link.1.level :=
  h.le_of_mem rfl (by simp [others, member])

/-- The root of a grouped tree stands no further to the right than that of another one with the same
operators: it would be on the left of the other, and the other on the right of it. -/
theorem length_left_le {operator operator' : Operator} {left right left' right' : OperatorTree}
    (h : (OperatorTree.node operator left right).IsGrouped)
    (h' : (OperatorTree.node operator' left' right').IsGrouped)
    (same : (OperatorTree.node operator left right).others =
      (OperatorTree.node operator' left' right').others) :
    left'.others.length ≤ left.others.length := by
  by_contra shorter
  rw [OperatorTree.others, OperatorTree.others, List.append_eq_append_iff] at same
  obtain ⟨between, left'_eq, right_eq⟩ | ⟨between, left_eq, _⟩ := same
  · cases between with
    | nil => simp [left'_eq] at shorter
    | cons link between =>
        rw [List.cons_append, List.cons.injEq] at right_eq
        obtain ⟨rfl, right_eq⟩ := right_eq
        have onLeft : (operator, right.first) ∈ left'.others := by simp [left'_eq]
        have onRight : (operator', right'.first) ∈ right.others := by simp [right_eq]
        exact absurd (h'.le_of_mem_left onLeft) (Nat.not_le.2 (h.lt_of_mem_right onRight))
  · rw [left_eq, List.length_append] at shorter
    omega

/-- Operands and operators in a given order have at most one grouped tree. -/
theorem eq_of_inorder (h : tree.IsGrouped) (h' : other.IsGrouped) (first : tree.first = other.first)
    (others : tree.others = other.others) : tree = other := by
  induction tree generalizing other with
  | operand expr =>
      cases other with
      | operand expr' => exact congrArg OperatorTree.operand first
      | node => simp [OperatorTree.others] at others
  | node operator left right ihLeft ihRight =>
      cases other with
      | operand => simp [OperatorTree.others] at others
      | node operator' left' right' =>
          have length : left.others.length = left'.others.length :=
            Nat.le_antisymm (length_left_le h' h others.symm) (length_left_le h h' others)
          obtain ⟨sameLeft, sameRight⟩ := List.append_inj others length
          rw [List.cons.injEq, Prod.mk.injEq] at sameRight
          obtain ⟨⟨rfl, sameFirst⟩, sameRight⟩ := sameRight
          cases h with
          | node groupedLeft groupedRight =>
          cases h' with
          | node groupedLeft' groupedRight' =>
          rw [ihLeft groupedLeft groupedLeft' first sameLeft,
            ihRight groupedRight groupedRight' sameFirst sameRight]

end IsGrouped

end OperatorTree

end Offside
