import Offside.Syntax.Program

/-!
# Inheritance

A record type has its own members and those of its parent, and so on. The line of parents ends at a
record type without a declared parent, or where it would come back to one that it has passed;
members are taken from the nearest record type that has them.
-/

namespace Offside

namespace Program

/-- The records of a pool that do not have a certain name. -/
def without (pool : List RecordDecl) (name : String) : List RecordDecl :=
  pool.filter fun record => record.name != name

/-- Taking out a record of a pool makes the pool smaller. -/
theorem length_without_lt {pool : List RecordDecl} {record : RecordDecl} (h : record ∈ pool) :
    (without pool record.name).length < pool.length :=
  List.length_filter_lt_length_iff_exists.2 ⟨record, h, by simp⟩

/-- The records in a pool that lie along the line of parents that starts with a certain name. Each
of them is taken out of the pool once it has been met, so a cycle of parents ends where it closes.
-/
def ancestors (pool : List RecordDecl) (parent : Option Name) : List RecordDecl :=
  match parent with
  | none => []
  | some name =>
    match _h : pool.find? fun record => record.name == name.text with
    | none => []
    | some record => record :: ancestors (without pool record.name) record.parent
termination_by pool.length
decreasing_by exact length_without_lt (List.mem_of_find?_eq_some _h)

/-- The line of parents goes on with what is left of the pool. -/
theorem ancestors_some (pool : List RecordDecl) (name : Name) :
    ancestors pool (some name) =
      ((pool.find? fun record => record.name == name.text).map fun record =>
        record :: ancestors (without pool record.name) record.parent).getD [] := by
  rw [ancestors]
  split
  · next missing =>
    rw [missing]
    rfl
  · next found =>
    rw [found]
    rfl

/-- A record type and those it inherits from, nearest first. -/
def ancestry (program : Program) (record : RecordDecl) : List RecordDecl :=
  record :: ancestors (without program.records record.name) record.parent

/-- The method that a record type has or inherits under a name. -/
def methodOf? (program : Program) (record : RecordDecl) (name : String) : Option Function :=
  (program.ancestry record).findSome? fun record => record.method? name

/-- The property that a record type itself has under a name. -/
def ownProperty? (program : Program) (record : RecordDecl) (name : String) : Option VarDecl :=
  (record.properties.filterMap program.decl?).find? fun decl => decl.name == name

/-- The property that a record type has or inherits under a name. -/
def propertyOf? (program : Program) (record : RecordDecl) (name : String) : Option VarDecl :=
  (program.ancestry record).findSome? fun record => program.ownProperty? record name

end Program

end Offside
