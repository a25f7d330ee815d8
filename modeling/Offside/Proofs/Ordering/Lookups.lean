import Offside.Proofs.Ordering.Pieces
import Mathlib.Data.List.Flatten
import Mathlib.Data.List.Nodup
import Mathlib.Logic.Equiv.Basic

/-! # Lookups do not depend on order

Names tell globals, functions and record types apart, so what is found under a name is the same in
whatever order a program lists them. Hence the rules are the same for a program that lists its
things in another order.
-/

namespace Offside

/-- Another program holds the same declarations and the same entry point, and lists the same globals,
record types, functions and free statements, in whatever order. -/
structure Program.Relists (program other : Program) : Prop where
  decls : other.decls = program.decls
  main : other.main = program.main
  globals : program.globals.Perm other.globals
  records : program.records.Perm other.records
  functions : program.functions.Perm other.functions
  statements : program.statements.Perm other.statements

/-- The indices under which another program lists what a program lists. -/
structure Reordering (program other : Program) extends Shuffle where
  decls_eq : other.decls = program.decls
  main_eq : other.main = program.main
  globals_perm : program.globals.Perm other.globals
  record_at : ∀ index, other.records[records index]? = program.records[index]?
  function_at : ∀ index, other.functions[functions index]? = program.functions[index]?
  statement_at : ∀ index, other.statements[statements index]? = program.statements[index]?

section Lists

variable {α : Type} {items others : List α}

/-- Lists with the same items at other indices hold the same items with new indices. -/
theorem zipIdx_perm (moved : Equiv.Perm Nat) (h : ∀ index, others[moved index]? = items[index]?) :
    (items.zipIdx.map fun (item, index) => (item, moved index)).Perm others.zipIdx := by
  have distinct : ∀ list : List α, list.zipIdx.Nodup := by
    intro list
    refine List.Nodup.of_map Prod.snd ?_
    rw [List.zipIdx_map_snd]
    exact List.nodup_range'
  refine (List.perm_ext_iff_of_nodup ((distinct items).map ?_) (distinct others)).2 ?_
  · rintro ⟨item, index⟩ ⟨item', index'⟩ same
    simpa using same
  · rintro ⟨item, index⟩
    rw [List.mem_map, List.mem_zipIdx_iff_getElem?]
    constructor
    · rintro ⟨⟨item', index'⟩, listed, ⟨⟩⟩
      rw [List.mem_zipIdx_iff_getElem?] at listed
      exact (h index').trans listed
    · intro listed
      refine ⟨(item, moved.symm index), ?_, by simp⟩
      rw [List.mem_zipIdx_iff_getElem?, ← h]
      simpa using listed

theorem perm_of_getElem? (moved : Equiv.Perm Nat)
    (h : ∀ index, others[moved index]? = items[index]?) : items.Perm others := by
  have indexed := (zipIdx_perm moved h).map Prod.fst
  rw [List.map_map, List.zipIdx_map_fst] at indexed
  exact (List.zipIdx_map_fst 0 items) ▸ indexed

/-- Lists with the same items in another order hold them at other indices. -/
theorem exists_getElem?_of_perm (perm : items.Perm others) :
    ∃ moved : Equiv.Perm Nat, ∀ index, others[moved index]? = items[index]? := by
  induction perm with
  | nil => exact ⟨.refl Nat, fun _ => rfl⟩
  | cons item _ ih =>
      obtain ⟨moved, same⟩ := ih
      -- The first item stays where it is, and the others are moved behind it.
      refine ⟨⟨fun index => if index = 0 then 0 else moved (index - 1) + 1,
        fun index => if index = 0 then 0 else moved.symm (index - 1) + 1, ?_, ?_⟩, ?_⟩
      · rintro (_ | index) <;> simp
      · rintro (_ | index) <;> simp
      · rintro (_ | index)
        · rfl
        · simpa using same index
  | swap first second rest =>
      refine ⟨Equiv.swap 0 1, ?_⟩
      rintro (_ | _ | index)
      · simp
      · simp
      · rw [Equiv.swap_apply_of_ne_of_ne (by simp) (by simp)]
        rfl
  | trans _ _ ih ih' =>
      obtain ⟨moved, same⟩ := ih
      obtain ⟨moved', same'⟩ := ih'
      exact ⟨moved.trans moved', fun index => (same' _).trans (same index)⟩

/-- What is found under a name does not depend on order if names are not repeated. -/
theorem find?_perm (nameOf : α → String) (perm : items.Perm others)
    (names : (items.map nameOf).Nodup) (name : String) :
    items.find? (fun item => nameOf item == name) =
      others.find? fun item => nameOf item == name := by
  induction perm with
  | nil => rfl
  | cons item _ ih =>
      rw [List.map_cons, List.nodup_cons] at names
      rw [List.find?_cons, List.find?_cons, ih names.2]
  | swap first second rest =>
      have apart : nameOf second ≠ nameOf first := by
        simp only [List.map_cons, List.nodup_cons, List.mem_cons, not_or] at names
        exact names.1.1
      simp only [List.find?_cons]
      split
      · next found =>
        have found := beq_iff_eq.1 found
        have other : (nameOf first == name) = false := by
          rw [← found]
          exact beq_eq_false_iff_ne.2 apart.symm
        rw [other]
      · rfl
  | trans perm _ ih ih' => rw [ih names, ih' ((perm.map nameOf).nodup_iff.1 names)]

end Lists

namespace Reordering

variable {program other : Program}

/-- In whatever order things are listed, each of them is listed somewhere. -/
theorem nonempty (relists : program.Relists other) : Nonempty (Reordering program other) := by
  obtain ⟨record, records⟩ := exists_getElem?_of_perm relists.records
  obtain ⟨function, functions⟩ := exists_getElem?_of_perm relists.functions
  obtain ⟨statement, statements⟩ := exists_getElem?_of_perm relists.statements
  exact ⟨⟨record, function, statement⟩, relists.decls, relists.main, relists.globals, records,
    functions, statements⟩

theorem decl?_eq (reordering : Reordering program other) : other.decl? = program.decl? := by
  funext id
  rw [Program.decl?, Program.decl?, reordering.decls_eq]

end Reordering

namespace Program

/-- The line of parents is the same in whatever order a pool is listed. -/
theorem ancestors_perm {pool others : List RecordDecl} (perm : pool.Perm others)
    (names : (pool.map RecordDecl.name).Nodup) (parent : Option Name) :
    ancestors pool parent = ancestors others parent := by
  induction pool, parent using ancestors.induct generalizing others with
  | case1 pool => rw [ancestors, ancestors]
  | case2 pool name missing =>
      rw [ancestors_some, ancestors_some, ← find?_perm RecordDecl.name perm names, missing]
      rfl
  | case3 pool name record found ih =>
      rw [ancestors_some, ancestors_some, ← find?_perm RecordDecl.name perm names, found]
      exact congrArg (record :: ·) (ih (perm.filter _) ((List.filter_sublist.map _).nodup names))

variable {program other : Program}

mutual

/-- What types a program knows depends on the names of its record types only. -/
theorem knows_congr (same : other.record? = program.record?) :
    (type : DataType) → other.knows type = program.knows type
  | .int .. | .float _ | .bool | .string | .null | .unresolved => rfl
  | .array element => knows_congr same element
  | .record name => by rw [knows, knows, same]
  | .function params returns => by
    rw [knows, knows, knowsAll_congr same params, knows_congr same returns]

theorem knowsAll_congr (same : other.record? = program.record?) :
    (types : List DataType) → other.knowsAll types = program.knowsAll types
  | [] => rfl
  | type :: rest => by
    rw [knowsAll, knowsAll, knows_congr same type, knowsAll_congr same rest]

end

/-- Two programs give the same answers to whatever the rules ask about names and handles. -/
structure Answers (program other : Program) : Prop where
  decl? : other.decl? = program.decl?
  record? : other.record? = program.record?
  function? : other.function? = program.function?
  global? : other.global? = program.global?
  ancestry : other.ancestry = program.ancestry
  main : other.main = program.main

/-- A program that lists its things in another order gives the same answers. -/
theorem answers_of_reordering (distinct : program.Distinct)
    (reordering : Reordering program other) : program.Answers other := by
  have records := perm_of_getElem? reordering.records reordering.record_at
  have functions := perm_of_getElem? reordering.functions reordering.function_at
  have names := (List.nodup_append'.1 distinct.records).2.1
  refine ⟨reordering.decl?_eq, ?_, ?_, ?_, ?_, reordering.main_eq⟩
  · funext name
    exact (find?_perm RecordDecl.name records names name).symm
  · funext name
    exact (find?_perm Function.name functions distinct.functions name).symm
  · funext name
    rw [Program.global?, Program.global?, reordering.decl?_eq]
    exact (find?_perm VarDecl.name (reordering.globals_perm.filterMap _) distinct.globals
      name).symm
  · funext record
    exact congrArg (record :: ·)
      (ancestors_perm (records.filter _) ((List.filter_sublist.map _).nodup names) _).symm

namespace Answers

theorem decl (same : program.Answers other) : other.decl = program.decl := by
  funext id
  rw [Program.decl, Program.decl, same.decl?]

variable (same : program.Answers other)

include same

theorem knows : other.knows = program.knows :=
  funext (knows_congr same.record?)

theorem methodOf? : other.methodOf? = program.methodOf? := by
  funext record name
  rw [Program.methodOf?, Program.methodOf?, same.ancestry]

theorem propertyOf? : other.propertyOf? = program.propertyOf? := by
  funext record name
  simp only [Program.propertyOf?, Program.ownProperty?, same.ancestry, same.decl?]

theorem callee? : other.callee? = program.callee? := by
  funext record name
  simp only [Program.callee?, same.methodOf?, same.function?, same.main]

theorem find? (lookup : LocalLookup) : lookup.find? other = lookup.find? program := by
  have declares : other.declares = program.declares := by
    funext name id
    rw [Program.declares, Program.declares, same.decl?]
  funext context environments name
  simp only [LocalLookup.find?, LocalLookup.localOf?, Program.paramOf?, Program.lastDeclared?,
    same.propertyOf?, same.global?, declares]

/-- The rules are the same for programs that give the same answers. -/
theorem rules (lookup : LocalLookup) : rules other lookup = rules program lookup := by
  have exprs : Rules.exprs other lookup = Rules.exprs program lookup := by
    unfold Rules.exprs Rules.ownerOf?
    simp only [same.find?, same.decl?, same.record?, same.callee?, same.methodOf?,
      same.propertyOf?]
  have varDecl : Rules.varDecl other = Rules.varDecl program := by
    unfold Rules.varDecl Rules.requireKnown
    simp only [same.knows]
  unfold Offside.rules Rules.param Rules.function Rules.parent Rules.requireKnown
  simp only [exprs, varDecl, same.knows, same.record?, same.decl]

end Answers

end Program

end Offside
