import Offside.Syntax.DataType
import Mathlib.Data.List.Forall2

/-! # Types without sizes

Two types agree if and only if they are the same once the sizes of numbers are forgotten. So types
that agree can stand for each other: agreement is an equivalence that arrays and functions keep.
-/

namespace Offside

namespace DataType

mutual

/-- A type without the sizes of numbers: wherever it has numbers, they are those of literals. -/
def unsized : DataType → DataType
  | int .. => int64
  | float _ => double
  | bool => bool
  | string => string
  | null => null
  | array element => array (unsized element)
  | record name => record name
  | function params returns => function (unsizedAll params) (unsized returns)
  | unresolved => unresolved

/-- Some types without the sizes of numbers. -/
def unsizedAll : List DataType → List DataType
  | [] => []
  | type :: rest => unsized type :: unsizedAll rest

end

mutual

/-- Types agree if and only if they are the same without the sizes of numbers. -/
theorem agrees_iff (type other : DataType) :
    type.agrees other = true ↔ type.unsized = other.unsized := by
  cases type with
  | array element =>
      cases other with
      | array element' =>
          simpa only [agrees, unsized, array.injEq] using agrees_iff element element'
      | _ => simp [agrees, unsized, int64, double]
  | function params returns =>
      cases other with
      | function params' returns' =>
          simp only [agrees, unsized, function.injEq, Bool.and_eq_true,
            agreesAll_iff params params', agrees_iff returns returns']
      | _ => simp [agrees, unsized, int64, double]
  | _ => cases other <;> simp [agrees, unsized, int64, double]

theorem agreesAll_iff (types others : List DataType) :
    agreesAll types others = true ↔ unsizedAll types = unsizedAll others := by
  cases types with
  | nil => cases others <;> simp [agreesAll, unsizedAll]
  | cons type types =>
      cases others with
      | nil => simp [agreesAll, unsizedAll]
      | cons other others =>
          simp only [agreesAll, unsizedAll, List.cons.injEq, Bool.and_eq_true,
            agrees_iff type other, agreesAll_iff types others]

end

mutual

@[simp] theorem unsized_unsized : (type : DataType) → type.unsized.unsized = type.unsized
  | .int .. | .float _ | .bool | .string | .null | .record _ | .unresolved => rfl
  | .array element => congrArg array (unsized_unsized element)
  | .function params returns => by
    simp only [unsized, unsizedAll_unsizedAll params, unsized_unsized returns]

theorem unsizedAll_unsizedAll : (types : List DataType) →
    unsizedAll (unsizedAll types) = unsizedAll types
  | [] => rfl
  | type :: rest => by
    simp only [unsizedAll, unsized_unsized type, unsizedAll_unsizedAll rest]

end

theorem agrees_unsized (type other : DataType) :
    type.unsized.agrees other.unsized = type.agrees other := by
  rw [Bool.eq_iff_iff, agrees_iff, agrees_iff, unsized_unsized, unsized_unsized]

/-- Lists of types agree if they do place by place. -/
theorem agreesAll_iff_forall₂ (types others : List DataType) :
    agreesAll types others = true ↔
      List.Forall₂ (fun type other => type.agrees other = true) types others := by
  induction types generalizing others with
  | nil => cases others <;> simp [agreesAll]
  | cons type types ih =>
      cases others with
      | nil => simp [agreesAll]
      | cons other others =>
          rw [agreesAll, Bool.and_eq_true, ih, List.forall₂_cons]

/-- That types agree is an equivalence. -/
theorem equivalence_agrees : Equivalence fun type other : DataType => type.agrees other = true := by
  simp only [agrees_iff]
  exact ⟨fun _ => rfl, Eq.symm, Eq.trans⟩

@[simp] theorem isNull_unsized (type : DataType) : type.unsized.isNull = type.isNull := by
  cases type <;> rfl

@[simp] theorem recordName?_unsized (type : DataType) :
    type.unsized.recordName? = type.recordName? := by
  cases type <;> rfl

end DataType

end Offside
