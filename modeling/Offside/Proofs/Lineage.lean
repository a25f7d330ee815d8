import Offside.Proofs.Scoping.Resolution
import Mathlib.Data.List.Chain
import Mathlib.Data.List.Nodup
import Mathlib.Logic.Relation

/-! # Lines of parents

The parent that a record type names may be missing, undeclared or a record type that inherits from it
in turn. A walk from parent to parent stops where there is no next record type, or where the next one
has been passed. What has been passed by then is the longest line of parents without repetition, and
a member is looked up in the first record type of that line that has one of the name.
-/

namespace Offside

/-- The first member that satisfies a condition, of the first of some record types that has any. -/
def IsFirstAlong {α : Type} (members : RecordDecl → List α) (condition : α → Bool)
    (line : List RecordDecl) (member : α) : Prop :=
  ∃ nearer owner further, line = nearer ++ owner :: further ∧
    IsFirst condition (members owner) member ∧
    ∀ other ∈ nearer, ∀ item ∈ members other, condition item = false

namespace Program

/-- The record type that is declared under the name of the parent of another. -/
def parent? (program : Program) (record : RecordDecl) : Option RecordDecl :=
  record.parent.bind fun name => program.record? name.text

/-- A record type is the declared parent of another. -/
def IsParent (program : Program) (child parent : RecordDecl) : Prop :=
  program.parent? child = some parent

/-- A walk from parent to parent, which has passed some record types and comes to another one next,
ends once it has passed certain record types. -/
inductive Climbs (program : Program) :
    (passed : List RecordDecl) → Option RecordDecl → List RecordDecl → Prop where
  | top {passed} : Climbs program passed none passed
  | around {passed record} :
    record.name ∈ passed.map RecordDecl.name → Climbs program passed (some record) passed
  | up {passed record line} :
    record.name ∉ passed.map RecordDecl.name →
    Climbs program (passed ++ [record]) (program.parent? record) line →
    Climbs program passed (some record) line

/-- Some record types are a line of parents without repetition that starts with a given one. -/
structure IsLine (program : Program) (record : RecordDecl) (line : List RecordDecl) : Prop where
  starts : line.head? = some record
  linked : line.IsChain program.IsParent
  nodup : line.Nodup

/-- On its way, a walk has passed a line of parents that goes on with the next record type. -/
structure Along (program : Program) (passed : List RecordDecl) (next : Option RecordDecl) :
    Prop where
  listed : ∀ record ∈ passed ++ next.toList, record ∈ program.records
  linked : (passed ++ next.toList).IsChain program.IsParent
  nodup : passed.Nodup
  closed : ∀ record ∈ passed, ∀ parent, program.IsParent record parent →
    parent ∈ passed ∨ next = some parent

variable {program : Program} {record parent : RecordDecl} {passed line rest : List RecordDecl}
  {next : Option RecordDecl}

theorem IsParent.mem_records (h : program.IsParent record parent) : parent ∈ program.records := by
  obtain ⟨name, -, found⟩ := Option.bind_eq_some_iff.1 h
  exact List.mem_of_find?_eq_some found

namespace Climbs

theorem unique {other : List RecordDecl} (h : program.Climbs passed next line)
    (h' : program.Climbs passed next other) : line = other := by
  induction h with
  | top =>
      cases h'
      rfl
  | around back =>
      cases h' with
      | around => rfl
      | up fresh => exact absurd back fresh
  | up fresh _ ih =>
      cases h' with
      | around back => exact absurd back fresh
      | up _ h' => exact ih h'

theorem passed_isPrefix (h : program.Climbs passed next line) : passed <+: line := by
  induction h with
  | top | around => exact List.prefix_rfl
  | up _ _ ih => exact (List.prefix_append _ _).trans ih

end Climbs

section Walking

variable (names : (program.records.map RecordDecl.name).Nodup)

include names

/-- A record type has been passed if its name has. -/
theorem Along.mem_of_name_mem (along : program.Along passed (some record))
    (back : record.name ∈ passed.map RecordDecl.name) : record ∈ passed := by
  obtain ⟨other, member, same⟩ := List.mem_map.1 back
  have declared := along.listed other (List.mem_append_left _ member)
  have declared' := along.listed record (by simp)
  exact List.inj_on_of_nodup_map names declared declared' same ▸ member

/-- A walk that comes back to what it has passed could go nowhere else. -/
theorem Along.around (along : program.Along passed (some record))
    (back : record.name ∈ passed.map RecordDecl.name) : program.Along passed none := by
  have member := along.mem_of_name_mem names back
  refine ⟨fun other passed => along.listed other (by simp_all), ?_, along.nodup, ?_⟩
  · simpa using along.linked.left_of_append
  · intro other passed parent links
    rcases along.closed other passed parent links with passed | same
    · exact .inl passed
    · exact .inl (Option.some.inj same ▸ member)

omit names in
/-- A walk goes on to the parent of what it passes. -/
theorem Along.up (along : program.Along passed (some record))
    (fresh : record.name ∉ passed.map RecordDecl.name) :
    program.Along (passed ++ [record]) (program.parent? record) := by
  obtain ⟨listed, linked, nodup, closed⟩ := along
  have other : record ∉ passed := fun member => fresh (List.mem_map_of_mem member)
  refine ⟨?_, ?_, by simp [List.nodup_append', nodup, other], ?_⟩
  · rw [List.forall_mem_append]
    refine ⟨listed, fun parent found => ?_⟩
    exact IsParent.mem_records (Option.mem_toList.1 found)
  · refine List.isChain_append.2 ⟨linked, ?_, ?_⟩
    · cases program.parent? record <;> simp
    · intro last ends parent found
      rw [List.getLast?_concat, Option.mem_some_iff] at ends
      subst ends
      cases above : program.parent? record with
      | none => simp [above] at found
      | some found' =>
          rw [above, Option.toList_some, List.head?_cons, Option.mem_some_iff] at found
          exact above.trans (congrArg some found)
  · intro child passed parent links
    rcases List.mem_append.1 passed with passed | last
    · left
      rcases closed child passed parent links with passed | same
      · exact List.mem_append_left _ passed
      · exact List.mem_append_right _ (by simpa using (Option.some.inj same).symm)
    · rw [List.mem_singleton.1 last] at links
      exact .inr links

/-- What a walk has passed in the end is a line of parents that goes on with none but its own. -/
theorem Climbs.along (climbs : program.Climbs passed next line)
    (along : program.Along passed next) : program.Along line none := by
  induction climbs with
  | top => exact along
  | around back => exact along.around names back
  | up fresh _ ih => exact ih (along.up fresh)

/-- However a line without repetition goes on from where a walk is, the walk goes on with it. -/
theorem Climbs.longest (climbs : program.Climbs passed next line)
    (along : program.Along passed next) (starts : rest.head? = none ∨ rest.head? = next)
    (linked : rest.IsChain program.IsParent) (nodup : (passed ++ rest).Nodup) :
    passed ++ rest <+: line := by
  induction climbs generalizing rest with
  | top =>
      have none : rest = [] := by simpa using starts
      simp [none]
  | @around passed record back =>
      cases rest with
      | nil => simp
      | cons first rest =>
          obtain rfl : first = record := by simpa using starts
          have again := along.mem_of_name_mem names back
          exact absurd again fun member => List.disjoint_of_nodup_append nodup member (by simp)
  | @up passed record line fresh climbs ih =>
      cases rest with
      | nil => simpa using (List.prefix_append _ _).trans climbs.passed_isPrefix
      | cons first rest =>
          obtain rfl : first = record := by simpa using starts
          rw [List.append_cons] at nodup ⊢
          refine ih (along.up fresh) ?_ linked.tail nodup
          cases rest with
          | nil => exact .inl rfl
          | cons second rest => exact .inr (List.isChain_cons_cons.1 linked).1.symm

/-- Taking what has been passed out of the pool comes to the same as keeping it in mind. -/
theorem climbs_ancestors {pool : List RecordDecl} {parent : Option Name}
    (left : ∀ record, record ∈ pool ↔
      record ∈ program.records ∧ record.name ∉ passed.map RecordDecl.name) :
    program.Climbs passed (parent.bind fun name => program.record? name.text)
      (passed ++ ancestors pool parent) := by
  fun_induction ancestors pool parent generalizing passed with
  | case1 =>
      rw [List.append_nil]
      exact .top
  | case2 pool name missing =>
      rw [List.append_nil, Option.bind_some]
      cases found : program.record? name.text with
      | none => exact .top
      | some record =>
          have named : record.name = name.text := by simpa using List.find?_some found
          refine .around (Classical.not_not.1 fun fresh => ?_)
          have inPool := (left record).2 ⟨List.mem_of_find?_eq_some found, fresh⟩
          simpa [named] using List.find?_eq_none.1 missing record inPool
  | case3 pool name record found ih =>
      have named : record.name = name.text := by simpa using List.find?_some found
      obtain ⟨declared, fresh⟩ := (left record).1 (List.mem_of_find?_eq_some found)
      have first : program.record? name.text = some record :=
        named ▸ find?_name_of_mem names declared
      rw [Option.bind_some, first, List.append_cons]
      refine .up fresh (ih fun other => ?_)
      simp only [without, List.mem_filter, left, bne_iff_ne, List.map_append, List.map_singleton,
        List.mem_append, List.mem_singleton, not_or, and_assoc]

/-- The walk from a record type passes its ancestry. -/
theorem climbs_ancestry : program.Climbs [] (some record) (program.ancestry record) := by
  refine .up (by simp) (climbs_ancestors names fun other => ?_)
  simp [without]

variable (listed : record ∈ program.records)

include listed

theorem along_ancestry : program.Along (program.ancestry record) none :=
  (climbs_ancestry names).along names ⟨by simpa using listed, by simp, by simp, by simp⟩

theorem isLine_ancestry : program.IsLine record (program.ancestry record) := by
  have along := along_ancestry names listed
  exact ⟨rfl, by simpa using along.linked, along.nodup⟩

/-- Every line of parents without repetition is where the longest one starts. -/
theorem IsLine.isPrefix_ancestry (is : program.IsLine record line) :
    line <+: program.ancestry record := by
  refine (climbs_ancestry names).longest names ⟨by simpa using listed, by simp, by simp, by simp⟩
    (.inr is.starts) is.linked ?_
  simpa using is.nodup

/-- The ancestry of a record type is all that is reached from it by going to parents. -/
theorem mem_ancestry_iff {owner : RecordDecl} :
    owner ∈ program.ancestry record ↔ Relation.ReflTransGen program.IsParent record owner := by
  have along := along_ancestry names listed
  constructor
  · intro member
    refine (isLine_ancestry names listed).linked.induction
      (Relation.ReflTransGen program.IsParent record) _ ?_ (fun _ => .refl) owner member
    exact fun _ _ links reached => reached.tail links
  · intro reached
    induction reached with
    | refl => exact List.mem_cons_self
    | tail _ links ih => simpa using along.closed _ ih _ links

end Walking

end Program

section Members

variable {α : Type} {members : RecordDecl → List α} {condition : α → Bool} {line : List RecordDecl}

theorem findSome?_eq_some_iff_isFirstAlong {member : α} :
    (line.findSome? fun owner => (members owner).find? condition) = some member ↔
      IsFirstAlong members condition line member := by
  simp only [IsFirstAlong, List.findSome?_eq_some_iff, find?_eq_some_iff_isFirst,
    List.find?_eq_none, Bool.not_eq_true]

theorem findSome?_eq_none_iff_along :
    (line.findSome? fun owner => (members owner).find? condition) = none ↔
      ∀ owner ∈ line, ∀ item ∈ members owner, condition item = false := by
  simp only [List.findSome?_eq_none_iff, List.find?_eq_none, Bool.not_eq_true]

end Members

namespace Program

/-- However parents are declared, the ancestry of a record type is what the walk from parent to parent
passes, which ends: the longest line of parents without repetition, no longer than there are record
types. A member is looked up in the nearest record type along it that has one of the name, and is the
first one there; none is found if no record type that is reached by going to parents has any. -/
theorem ancestry_longest {program : Program} {record : RecordDecl}
    (names : (program.records.map RecordDecl.name).Nodup) (listed : record ∈ program.records) :
    (∀ line, program.Climbs [] (some record) line ↔ line = program.ancestry record) ∧
      program.IsLine record (program.ancestry record) ∧
      (∀ line, program.IsLine record line → line <+: program.ancestry record) ∧
      (∀ owner ∈ program.ancestry record, owner ∈ program.records) ∧
      (program.ancestry record).length ≤ program.records.length ∧
      ∀ name,
        (∀ method, program.methodOf? record name = some method ↔
          IsFirstAlong RecordDecl.methods (fun method => method.name == name)
            (program.ancestry record) method) ∧
        (program.methodOf? record name = none ↔
          ∀ owner, Relation.ReflTransGen program.IsParent record owner →
            ∀ method ∈ owner.methods, method.name ≠ name) ∧
        (∀ property, program.propertyOf? record name = some property ↔
          IsFirstAlong (fun owner => owner.properties.filterMap program.decl?)
            (fun decl => decl.name == name) (program.ancestry record) property) ∧
        (program.propertyOf? record name = none ↔
          ∀ owner, Relation.ReflTransGen program.IsParent record owner →
            ∀ property ∈ owner.properties.filterMap program.decl?, property.name ≠ name) := by
  have along := along_ancestry names listed
  have records : ∀ owner ∈ program.ancestry record, owner ∈ program.records :=
    fun owner member => along.listed owner (by simpa using member)
  refine ⟨fun line => ⟨fun climbs => climbs.unique (climbs_ancestry names), ?_⟩,
    isLine_ancestry names listed, fun line is => is.isPrefix_ancestry names listed, records,
    along.nodup.length_le_of_subset records,
    fun name => ⟨fun method => ?_, ?_, fun property => ?_, ?_⟩⟩
  · rintro rfl
    exact climbs_ancestry names
  · exact findSome?_eq_some_iff_isFirstAlong
  · rw [methodOf?, funext fun owner => RecordDecl.method?.eq_1 owner name,
      findSome?_eq_none_iff_along]
    simp only [mem_ancestry_iff names listed, beq_eq_false_iff_ne]
  · exact findSome?_eq_some_iff_isFirstAlong
  · rw [propertyOf?, funext fun owner => ownProperty?.eq_1 program owner name,
      findSome?_eq_none_iff_along]
    simp only [mem_ancestry_iff names listed, beq_eq_false_iff_ne]

namespace Cycle

def heat (number : Nat) : Function :=
  { id := ⟨number⟩, signature := ⟨"heat", [], .null, default⟩, body := ⟨[], default⟩,
    span := default }

def pan : RecordDecl :=
  { id := ⟨0⟩, name := "Pan", parent := some ⟨"Pot", default⟩, properties := [], methods := [],
    span := default }

def pot : RecordDecl :=
  { id := ⟨1⟩, name := "Pot", parent := some ⟨"Lid", default⟩, properties := [],
    methods := [heat 2, heat 3], span := default }

def lid : RecordDecl :=
  { id := ⟨4⟩, name := "Lid", parent := some ⟨"Pot", default⟩, properties := [],
    methods := [heat 5], span := default }

/-- A pan inherits from a pot, which inherits from a lid, which inherits from the pot. -/
def kitchen : Program :=
  { records := [lid, pan, pot] }

/-- A cycle of two record types that is entered from a third one is passed once. The method found is
the first one of the record type at which the cycle is entered. -/
theorem ancestry_longest_kitchen :
    kitchen.ancestry pan = [pan, pot, lid] ∧
      (kitchen.methodOf? pan "heat").map Function.id = some ⟨2⟩ ∧
      kitchen.propertyOf? pan "heat" = none := by
  have names : (kitchen.records.map RecordDecl.name).Nodup := by decide
  have known : pan ∈ kitchen.records := List.mem_cons_of_mem _ List.mem_cons_self
  obtain ⟨climbs, -, -, listed, -, members⟩ := ancestry_longest names known
  have line : kitchen.ancestry pan = [pan, pot, lid] := by
    refine ((climbs _).1 ?_).symm
    exact .up (by decide) (.up (by decide) (.up (by decide) (.around (by decide))))
  obtain ⟨method, -, -, none⟩ := members "heat"
  refine ⟨line, ?_, none.2 fun owner reached property declared => ?_⟩
  · refine Option.map_eq_some_iff.2 ⟨heat 2, (method _).2 ?_, rfl⟩
    rw [line]
    exact ⟨[pan], pot, [lid], rfl, ⟨[], [heat 3], rfl, rfl, by simp⟩, by simp [pan]⟩
  · have owned := listed owner ((mem_ancestry_iff names known).2 reached)
    rcases by simpa [kitchen] using owned with rfl | rfl | rfl <;> simp [lid, pan, pot] at declared

end Cycle

end Program

end Offside
