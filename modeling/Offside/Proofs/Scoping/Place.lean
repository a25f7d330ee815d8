import Offside.Proofs.Handles
import Offside.Typing.Annotations
import Offside.Typing.Inheritance
import Offside.Typing.Resolution

/-! # Lexical scoping

What a name refers to depends on the place where it stands: on the record type and the function
around it, and on what the blocks and loop headers around it have declared before it. This module
says so without any traversal. A place lists what surrounds it, and a reference at a place is to the
first of several candidates that there is.
-/

namespace Offside

/-- A part of a function body or of a free statement that variables are local to. -/
inductive Enclosure where
  /-- A block, with those of its statements that stand before the place in it. -/
  | block (before : List Stmt)
  /-- A `for` with the variable of its header, unless the place is in the declaration of that
  variable itself. -/
  | header (init : Option VarId)

namespace Enclosure

/-- The variables whose declarations in an enclosure stand wholly before the place, in order. -/
def declared : Enclosure → List VarId
  | block before => before.filterMap Stmt.declared?
  | header init => init.toList

end Enclosure

/-- What surrounds a place in a program. -/
structure Place where
  /-- The record type that the place is in. -/
  record : Option RecordDecl := none
  /-- The function or method that the place is in. -/
  function : Option Function := none
  /-- The blocks and loop headers around the place within the function or free statement, from the
  innermost out. -/
  enclosures : List Enclosure := []
  /-- Whether the place is in the body of a loop. -/
  inLoop : Bool := false

namespace Place

/-- The place in a record type. -/
def inRecord (place : Place) (record : RecordDecl) : Place :=
  { place with record := some record }

/-- The place in a function. -/
def inFunction (place : Place) (function : Function) : Place :=
  { place with function := some function }

/-- The place in the body of a loop. -/
def repeated (place : Place) : Place :=
  { place with inLoop := true }

/-- The place in an enclosure. -/
def within (place : Place) (enclosure : Enclosure) : Place :=
  { place with enclosures := enclosure :: place.enclosures }

/-- What variables that are declared at a place belong to. -/
def scope (place : Place) : Scope :=
  match place.function, place.record with
  | some function, _ => .local function.id
  | none, some record => .property record.id
  | none, none => .global

end Place

section Candidates

variable {α : Type}

/-- An item is the first in a list that satisfies a condition. -/
def IsFirst (condition : α → Bool) (items : List α) (item : α) : Prop :=
  ∃ before after, items = before ++ item :: after ∧ condition item = true ∧
    ∀ other ∈ before, condition other = false

/-- An item is the last in a list that satisfies a condition. -/
def IsLast (condition : α → Bool) (items : List α) (item : α) : Prop :=
  ∃ before after, items = before ++ item :: after ∧ condition item = true ∧
    ∀ other ∈ after, condition other = false

/-- An item is a candidate of the first sort that has any candidate at all. -/
inductive IsChosen : List (α → Prop) → α → Prop where
  | here {candidate sorts item} : candidate item → IsChosen (candidate :: sorts) item
  | later {candidate sorts item} :
    (∀ other, ¬ candidate other) → IsChosen sorts item → IsChosen (candidate :: sorts) item

end Candidates

/-- A record type has a member itself, or else inherits it from the nearest of its ancestors that
has one. -/
inductive Program.Nearest (program : Program) {α : Type} (own : RecordDecl → Option α) :
    RecordDecl → α → Prop where
  | own {record member} : own record = some member → Nearest program own record member
  | inherited {record name parent member} :
    own record = none → record.parent = some name → program.record? name.text = some parent →
    Nearest program own parent member → Nearest program own record member

namespace Place

variable (program : Program) (place : Place) (name : String)

/-- A property of the record type around a place. -/
def IsProperty (id : VarId) : Prop :=
  ∃ record decl, place.record = some record ∧
    program.Nearest (fun record => program.ownProperty? record name) record decl ∧ decl.id = id

/-- The first parameter with a name, of the function around a place. -/
def IsParameter (id : VarId) : Prop :=
  ∃ function, place.function = some function ∧
    IsFirst (program.declares name) (function.signature.params.map Param.decl) id

/-- The last variable with a name that the body of the function around a place declares itself. -/
def IsLastInBody (id : VarId) : Prop :=
  ∃ function, place.function = some function ∧
    IsLast (program.declares name) function.body.declared id

/-- The latest variable with a name in the innermost enclosure of a place that has declared one
before the place. -/
def IsPreceding (id : VarId) : Prop :=
  ∃ inner enclosure outer, place.enclosures = inner ++ enclosure :: outer ∧
    IsLast (program.declares name) enclosure.declared id ∧
    ∀ other ∈ inner, ∀ declared ∈ other.declared, program.declares name declared = false

/-- A global variable with a name, wherever it is declared. -/
def IsGlobal (id : VarId) : Prop :=
  ∃ decl, program.global? name = some decl ∧ decl.id = id

/-- A name at a place refers to a variable. -/
def RefersTo (lookup : LocalLookup) : VarId → Prop :=
  IsChosen [IsProperty program place name, IsParameter program place name,
    fun id => lookup = .lastInBody ∧ IsLastInBody program place name id,
    IsPreceding program place name, IsGlobal program name]

end Place

end Offside
