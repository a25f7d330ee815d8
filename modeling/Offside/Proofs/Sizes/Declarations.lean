import Offside.Proofs.Sizes.Types
import Offside.Syntax.Program
import Mathlib.Data.Option.Basic

/-! # Programs that differ in sizes

Two programs may be the same but for the types of some variables, parameters, properties and
results, which agree. They are so related if and only if they are the same without the sizes of
numbers.
-/

namespace Offside

/-- A declaration without the sizes of numbers. -/
def VarDecl.unsized (decl : VarDecl) : VarDecl :=
  { decl with type := decl.type.unsized }

/-- A signature without the sizes of numbers. -/
def Signature.unsized (signature : Signature) : Signature :=
  { signature with returnType := signature.returnType.unsized }

/-- A function that returns numbers of no particular size. -/
def Function.unsized (function : Function) : Function :=
  { function with signature := function.signature.unsized }

/-- A record type whose methods return numbers of no particular size. -/
def RecordDecl.unsized (record : RecordDecl) : RecordDecl :=
  { record with methods := record.methods.map Function.unsized }

/-- A program that is the same but for the sizes of numbers in the types of its variables,
parameters, properties and results, which are left out. -/
def Program.unsized (program : Program) : Program :=
  { program with
    decls := program.decls.map VarDecl.unsized
    records := program.records.map RecordDecl.unsized
    functions := program.functions.map Function.unsized
    main := program.main.map Function.unsized }

/-- Another declaration is the same but for its type, which agrees. -/
def VarDecl.Resized (decl other : VarDecl) : Prop :=
  ∃ type, decl.type.agrees type = true ∧ other = { decl with type }

/-- Another signature is the same but for the type it returns, which agrees. -/
def Signature.Resized (signature other : Signature) : Prop :=
  ∃ returnType, signature.returnType.agrees returnType = true ∧
    other = { signature with returnType }

/-- Another function is the same but for its signature, which returns a type that agrees. -/
def Function.Resized (function other : Function) : Prop :=
  ∃ signature, function.signature.Resized signature ∧ other = { function with signature }

/-- Another record type is the same but for the types that its methods return, which agree. -/
def RecordDecl.Resized (record other : RecordDecl) : Prop :=
  ∃ methods, List.Forall₂ Function.Resized record.methods methods ∧
    other = { record with methods }

/-- Another program is the same but for types in its declarations and signatures, which agree. -/
structure Program.Resized (program other : Program) : Prop where
  decls : List.Forall₂ VarDecl.Resized program.decls.toList other.decls.toList
  globals : other.globals = program.globals
  records : List.Forall₂ RecordDecl.Resized program.records other.records
  functions : List.Forall₂ Function.Resized program.functions other.functions
  main : Option.Rel Function.Resized program.main other.main
  statements : other.statements = program.statements

section Resized

theorem VarDecl.resized_iff (decl other : VarDecl) :
    decl.Resized other ↔ decl.unsized = other.unsized := by
  constructor
  · rintro ⟨type, agrees, rfl⟩
    simp only [unsized, (DataType.agrees_iff _ _).1 agrees]
  · intro same
    simp only [unsized, mk.injEq] at same
    obtain ⟨id, name, type, init, span⟩ := same
    exact ⟨other.type, (DataType.agrees_iff _ _).2 type, by simp [id, name, init, span]⟩

theorem Signature.resized_iff (signature other : Signature) :
    signature.Resized other ↔ signature.unsized = other.unsized := by
  constructor
  · rintro ⟨type, agrees, rfl⟩
    simp only [unsized, (DataType.agrees_iff _ _).1 agrees]
  · intro same
    simp only [unsized, mk.injEq] at same
    obtain ⟨name, params, type, span⟩ := same
    exact ⟨other.returnType, (DataType.agrees_iff _ _).2 type, by simp [name, params, span]⟩

theorem Function.resized_iff (function other : Function) :
    function.Resized other ↔ function.unsized = other.unsized := by
  constructor
  · rintro ⟨signature, resized, rfl⟩
    simp only [unsized, (Signature.resized_iff _ _).1 resized]
  · intro same
    simp only [unsized, mk.injEq] at same
    obtain ⟨id, signature, body, span⟩ := same
    exact ⟨other.signature, (Signature.resized_iff _ _).2 signature, by simp [id, body, span]⟩

section Views

variable {α : Type} {R : α → α → Prop} {view : α → α}
  (h : ∀ item other, R item other ↔ view item = view other)

include h

/-- Lists are related place by place if they look the same. -/
theorem forall₂_iff_map_eq (items others : List α) :
    List.Forall₂ R items others ↔ items.map view = others.map view := by
  have same : R = fun item other => view item = view other :=
    funext fun item => funext fun other => propext (h item other)
  calc List.Forall₂ R items others
      ↔ List.Forall₂ Eq (items.map view) (others.map view) := by
        rw [same, List.forall₂_map_left_iff, List.forall₂_map_right_iff]
    _ ↔ items.map view = others.map view := by rw [List.forall₂_eq_eq_eq]

/-- What there is, if anything, is related if it looks the same. -/
theorem rel_iff_map_eq (item? other? : Option α) :
    Option.Rel R item? other? ↔ item?.map view = other?.map view := by
  cases item? <;> cases other? <;> simp [h]

end Views

theorem RecordDecl.resized_iff (record other : RecordDecl) :
    record.Resized other ↔ record.unsized = other.unsized := by
  constructor
  · rintro ⟨methods, resized, rfl⟩
    simp only [unsized, (forall₂_iff_map_eq Function.resized_iff _ _).1 resized]
  · intro same
    simp only [unsized, mk.injEq] at same
    obtain ⟨id, name, parent, properties, methods, span⟩ := same
    exact ⟨other.methods, (forall₂_iff_map_eq Function.resized_iff _ _).2 methods,
      by simp [id, name, parent, properties, span]⟩

/-- Programs differ in sizes alone if and only if they are the same without sizes. -/
theorem Program.resized_iff (program other : Program) :
    program.Resized other ↔ program.unsized = other.unsized := by
  have main := rel_iff_map_eq Function.resized_iff program.main other.main
  have decls := forall₂_iff_map_eq VarDecl.resized_iff program.decls.toList other.decls.toList
  have records := forall₂_iff_map_eq RecordDecl.resized_iff program.records other.records
  have functions := forall₂_iff_map_eq Function.resized_iff program.functions other.functions
  rw [← Array.toList_map, ← Array.toList_map, Array.toList_inj] at decls
  constructor
  · intro resized
    simp only [unsized, decls.1 resized.decls, resized.globals, records.1 resized.records,
      functions.1 resized.functions, main.1 resized.main, resized.statements]
  · intro same
    simp only [unsized, mk.injEq] at same
    exact ⟨decls.2 same.1, same.2.1.symm, records.2 same.2.2.1, functions.2 same.2.2.2.1,
      main.2 same.2.2.2.2.1, same.2.2.2.2.2.symm⟩

theorem Program.unsized_unsized (program : Program) :
    program.unsized.unsized = program.unsized := by
  have decl (decl : VarDecl) : decl.unsized.unsized = decl.unsized := by
    simp only [VarDecl.unsized, DataType.unsized_unsized]
  have function (function : Function) : function.unsized.unsized = function.unsized := by
    simp only [Function.unsized, Signature.unsized, DataType.unsized_unsized]
  have record (record : RecordDecl) : record.unsized.unsized = record.unsized := by
    simp [RecordDecl.unsized, function]
  simp [unsized, decl, function, record, Function.comp_def]

/-- A program without sizes differs from the program in sizes alone. -/
theorem Program.resized_unsized (program : Program) : program.Resized program.unsized :=
  (resized_iff program program.unsized).2 program.unsized_unsized.symm

end Resized

end Offside
