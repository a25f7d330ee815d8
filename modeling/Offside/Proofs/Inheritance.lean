import Offside.Proofs.Flow.Returning
import Offside.Proofs.Lineage

/-! # Parents in programs that pass the check

The check of a record type looks at its own parent only: there must be a record type of that name,
and it must be another one. So going from parent to parent ends at a record type without a parent,
unless it comes to record types that inherit from each other.
-/

namespace Offside

namespace Program

/-- Going from a record type to its parent, and on, comes to one that has no parent. -/
def Ends (program : Program) (record : RecordDecl) : Prop :=
  ∃ top, Relation.ReflTransGen program.IsParent record top ∧ top.parent = none

/-- Going from a record type to its parent, and on, comes to one of two that inherit from each
other. -/
def Circles (program : Program) (record : RecordDecl) : Prop :=
  ∃ one other, one ≠ other ∧ Relation.ReflTransGen program.IsParent record one ∧
    Relation.TransGen program.IsParent one other ∧ Relation.TransGen program.IsParent other one

/-- Each named parent is another record type that has been declared. -/
def ParentsDeclared (program : Program) : Prop :=
  ∀ record ∈ program.records, ∀ name, record.parent = some name →
    ∃ parent ∈ program.records, parent.name = name.text ∧ program.IsParent record parent ∧
      parent ≠ record

section Climbing

variable {program : Program} {record other parent : RecordDecl}

/-- A record type has at most one parent. -/
theorem isParent_rightUnique : Relator.RightUnique program.IsParent := by
  intro record parent other links links'
  exact Option.some.inj (links.symm.trans links')

/-- If one way from parent to parent comes to an end, no way goes on for ever. -/
theorem Ends.acc (ends : program.Ends record) :
    Acc (fun parent child => program.IsParent child parent) record := by
  obtain ⟨top, reached, last⟩ := ends
  induction reached using Relation.ReflTransGen.head_induction_on with
  | refl =>
      refine .intro _ fun parent links => ?_
      rw [IsParent, parent?, last] at links
      cases links
  | head links _ ih =>
      refine .intro _ fun parent links' => ?_
      rwa [isParent_rightUnique links' links]

theorem acc_of_reached (acc : Acc (fun parent child => program.IsParent child parent) record)
    (reached : Relation.ReflTransGen program.IsParent record other) :
    Acc (fun parent child => program.IsParent child parent) other := by
  induction reached with
  | refl => exact acc
  | tail _ links ih => exact ih.inv links

/-- Where climbing comes to an end, it does not come back. -/
theorem not_transGen_of_acc (acc : Acc (fun parent child => program.IsParent child parent) record) :
    ¬ Relation.TransGen program.IsParent record record := by
  induction acc with
  | intro record _ ih =>
      intro back
      obtain ⟨parent, links, back⟩ := Relation.TransGen.head'_iff.1 back
      exact ih parent links (.tail' back links)

theorem not_circles_of_acc (acc : Acc (fun parent child => program.IsParent child parent) record) :
    ¬ program.Circles record := by
  rintro ⟨one, other, -, reached, up, back⟩
  exact not_transGen_of_acc (acc_of_reached acc reached) (up.trans back)

/-- A parent is declared under the name that is given for it. -/
theorem isParent_of_named (names : (program.records.map RecordDecl.name).Nodup)
    (listed : parent ∈ program.records) (named : record.parent.map Name.text = some parent.name) :
    program.IsParent record parent := by
  obtain ⟨name, given, same⟩ := Option.map_eq_some_iff.1 named
  rw [IsParent, parent?, given, Option.bind_some, record?, same]
  exact find?_name_of_mem names listed

variable (names : (program.records.map RecordDecl.name).Nodup)
  (declared : program.ParentsDeclared)

include names declared

/-- The ancestry of a record type ends with one that has no parent, or whose parent has been passed
on the way to it. -/
theorem ends_or_circles (listed : record ∈ program.records) :
    program.Ends record ∨ program.Circles record := by
  have along := along_ancestry names listed
  have line := isLine_ancestry names listed
  rcases List.eq_nil_or_concat (program.ancestry record) with none | ⟨passed, top, split⟩
  · have starts := line.starts
    rw [none] at starts
    cases starts
  have last : top ∈ program.ancestry record := by simp [split]
  have reached := (mem_ancestry_iff names listed).1 last
  cases parent : top.parent with
  | none => exact .inl ⟨top, reached, parent⟩
  | some name =>
      have known := along.listed top (by simpa using last)
      obtain ⟨above, -, -, links, other⟩ := declared top known name parent
      have passed : above ∈ passed := by
        simpa [split, other] using along.closed top last above links
      -- Whatever has been passed leads to the last one.
      have leads := (line.linked.imp fun _ _ => Relation.TransGen.single).pairwise
      rw [split, List.concat_eq_append, List.pairwise_append] at leads
      have back := leads.2.2 above passed top (List.mem_singleton_self top)
      exact .inr ⟨top, above, other.symm, reached, .single links, back⟩

/-- Climbing from a record type comes to an end just if it does not come to record types that
inherit from each other. -/
theorem ends_iff_not_circles (listed : record ∈ program.records) :
    program.Ends record ↔ ¬ program.Circles record :=
  ⟨fun ends => not_circles_of_acc ends.acc,
    fun none => (ends_or_circles names declared listed).resolve_right none⟩

omit names in
/-- A record type that inherits from itself does so by way of another one. -/
theorem exists_other_of_transGen (listed : record ∈ program.records)
    (back : Relation.TransGen program.IsParent record record) :
    ∃ other ∈ program.records, other ≠ record ∧ Relation.TransGen program.IsParent record other ∧
      Relation.TransGen program.IsParent other record := by
  obtain ⟨parent, links, back⟩ := Relation.TransGen.head'_iff.1 back
  obtain ⟨name, named, -⟩ := Option.bind_eq_some_iff.1 links
  obtain ⟨above, known, -, links', other⟩ := declared record listed name named
  obtain rfl := isParent_rightUnique links links'
  rcases Relation.reflTransGen_iff_eq_or_transGen.1 back with same | back
  · exact absurd same.symm other
  · exact ⟨parent, known, other, .single links, back⟩

end Climbing

/-- In a program that has passed the check, each named parent is another record type of the program.
Going from parent to parent ends at a record type that has none, unless it comes to two of them that
inherit from each other; and no record type inherits from itself but by way of another one. So every
way ends if and only if no record type inherits from itself. -/
theorem checkSource_inherits {source file : String} {lookup : LocalLookup} {program : Program}
    {annotations : Annotations}
    (checked : Program.checkSource source file lookup = .ok (program, annotations)) :
    program.ParentsDeclared ∧
    (∀ record ∈ program.records,
      (program.Ends record ↔ Acc (fun parent child => program.IsParent child parent) record) ∧
      (program.Ends record ↔ ¬ program.Circles record) ∧
      (Relation.TransGen program.IsParent record record ↔ ∃ other ∈ program.records,
        other ≠ record ∧ Relation.TransGen program.IsParent record other ∧
          Relation.TransGen program.IsParent other record)) ∧
    ((∀ record ∈ program.records, program.Ends record) ↔
      ∀ record ∈ program.records, ¬ Relation.TransGen program.IsParent record record) := by
  obtain ⟨read, -⟩ := Program.of_checkSource checked
  obtain ⟨count, sound⟩ := sound_of_ofSource read
  have names := (List.nodup_append'.1 sound.distinct.records).2.1
  have declared : program.ParentsDeclared := by
    intro record listed name named
    obtain ⟨other, known⟩ :=
      ((Program.wellTyped_of_checkSource checked).records record listed).parent name named
    obtain ⟨parent, found⟩ := Option.isSome_iff_exists.1 known
    have same : parent.name = name.text := by simpa using List.find?_some found
    have listed := List.mem_of_find?_eq_some found
    refine ⟨parent, listed, same, isParent_of_named names listed (by rw [named, same]; rfl), ?_⟩
    rintro rfl
    exact other same.symm
  refine ⟨declared, fun record listed => ?_, ?_⟩
  · have ends := ends_iff_not_circles names declared listed
    refine ⟨⟨Ends.acc, fun acc => ends.2 (not_circles_of_acc acc)⟩, ends,
      exists_other_of_transGen declared listed, ?_⟩
    rintro ⟨other, -, -, up, back⟩
    exact up.trans back
  · refine ⟨fun ends record listed => not_transGen_of_acc (ends record listed).acc, ?_⟩
    intro none record listed
    refine (ends_iff_not_circles names declared listed).2 ?_
    rintro ⟨one, other, -, reached, up, back⟩
    have passed := (mem_ancestry_iff names listed).2 reached
    have known := (along_ancestry names listed).listed one (by simpa using passed)
    exact none one known (up.trans back)

/-- A hotpot may be declared in front of its parent. -/
theorem checkSource_inherits_forward : ∃ program annotations,
    Program.checkSource "hotpot Wok: Pan\nhotpot Pan: Pot\nhotpot Pot\n" "pots" .lastInBody =
      .ok (program, annotations) ∧
    program.records.length = 3 ∧ program.ParentsDeclared ∧
    ∀ record ∈ program.records, program.Ends record ↔ ¬ program.Circles record := by
  have passes : (Program.checkSource "hotpot Wok: Pan\nhotpot Pan: Pot\nhotpot Pot\n" "pots"
      .lastInBody).toOption.map (fun result => result.1.records.length) = some 3 := by
    decide +kernel
  obtain ⟨⟨program, annotations⟩, checked, count⟩ := exists_ok_of_map_toOption passes
  obtain ⟨declared, ends, -⟩ := checkSource_inherits checked
  exact ⟨program, annotations, checked, count, declared, fun record listed =>
    (ends record listed).2.1⟩

/-- Two hotpots that inherit from each other pass the check. -/
theorem checkSource_mutual : ∃ program annotations record,
    Program.checkSource "hotpot A: B\nhotpot B: A\n" "pots" .lastInBody =
        .ok (program, annotations) ∧
      record ∈ program.records ∧ Relation.TransGen program.IsParent record record ∧
      ¬ program.Ends record := by
  have passes : (Program.checkSource "hotpot A: B\nhotpot B: A\n" "pots" .lastInBody).toOption.map
      (fun result => result.1.records.map fun record =>
        (record.name, record.parent.map Name.text)) =
      some [("A", some "B"), ("B", some "A")] := by
    decide +kernel
  obtain ⟨⟨program, annotations⟩, checked, records⟩ := exists_ok_of_map_toOption passes
  change program.records.map _ = _ at records
  obtain ⟨one, rest, split, named, records⟩ := List.map_eq_cons_iff.1 records
  obtain ⟨other, rest, rfl, named', records⟩ := List.map_eq_cons_iff.1 records
  cases List.map_eq_nil_iff.1 records
  obtain ⟨name, parent⟩ := Prod.mk.inj named
  obtain ⟨name', parent'⟩ := Prod.mk.inj named'
  have names : (program.records.map RecordDecl.name).Nodup := by simp [split, name, name']
  have links : program.IsParent one other :=
    isParent_of_named names (by simp [split]) (by rw [parent, name'])
  have links' : program.IsParent other one :=
    isParent_of_named names (by simp [split]) (by rw [parent', name])
  have back : Relation.TransGen program.IsParent one one := .tail (.single links) links'
  exact ⟨program, annotations, one, checked, by simp [split], back,
    fun ends => not_transGen_of_acc ends.acc back⟩

end Program

end Offside
