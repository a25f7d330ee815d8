import Offside.Proofs.Scoping.Resolution
import Offside.Proofs.Typing.Judgement

/-! # Types are unique

At a place of a coherent program, a name is of at most one callee, a receiver has at most one owner,
and an expression has at most one type.
-/

namespace Offside

/-- The record type around a place, if there is one, is declared in the program. -/
def Place.Declared (program : Program) (place : Place) : Prop :=
  ∀ record, place.record = some record → record ∈ program.records

variable {program : Program} {lookup : LocalLookup} {place : Place}

namespace Place

/-- The function that is found for a call is the one that the name is of. -/
theorem callee?_eq_some_iff (coherent : program.Coherent) (declared : place.Declared program)
    {name : String} {function : Function} :
    program.callee? place.record name = some function ↔
      place.IsCallee program name function := by
  rw [Program.callee?, ← Option.or_none (o := program.main.filter _)]
  refine or_eq_some_iff_isChosen (fun _ => ?_) ?_
  · simp only [Option.bind_eq_some_iff]
    constructor
    · rintro ⟨record, hplace, found⟩
      exact ⟨record, hplace,
        (Program.findSome?_ancestry_eq_some_iff coherent (declared record hplace)).1 found⟩
    · rintro ⟨record, hplace, nearest⟩
      exact ⟨record, hplace,
        (Program.findSome?_ancestry_eq_some_iff coherent (declared record hplace)).2 nearest⟩
  refine or_eq_some_iff_isChosen (fun _ => Iff.rfl) ?_
  refine or_eq_some_iff_isChosen (fun _ => ?_) ?_
  · simp [Option.filter_eq_some_iff]
  · simp only [reduceCtorEq, false_iff]
    exact not_isChosen_nil

theorem IsCallee.unique (coherent : program.Coherent) (declared : place.Declared program)
    {name : String} {a b : Function} (ha : place.IsCallee program name a)
    (hb : place.IsCallee program name b) : a = b := by
  rw [← callee?_eq_some_iff coherent declared] at ha hb
  exact Option.some.inj (ha.symm.trans hb)

theorem IsOwner.unique (coherent : program.Coherent) (declared : place.Declared program)
    {receiver : Expr} {a b : RecordDecl} (ha : place.IsOwner program lookup receiver a)
    (hb : place.IsOwner program lookup receiver b) : a = b := by
  obtain ⟨name, span, id, decl, type, rfl, refers, hdecl, htype, hrecord⟩ := ha
  obtain ⟨name', span', id', decl', type', same, refers', hdecl', htype', hrecord'⟩ := hb
  cases same
  cases refers.unique coherent declared refers'
  rw [hdecl] at hdecl'
  cases hdecl'
  rw [htype] at htype'
  cases htype'
  exact Option.some.inj (hrecord.symm.trans hrecord')

end Place

/-- An expression has at most one type at a place. -/
theorem HasType.unique (coherent : program.Coherent) (hplace : place.Declared program)
    {declared : Option DataType} {expr : Expr} {a b : DataType}
    (ha : HasType program lookup place declared expr a)
    (hb : HasType program lookup place declared expr b) : a = b := by
  induction ha using HasType.rec (motive_2 := fun declared values as _ =>
    ∀ bs, HaveTypes program lookup place declared values bs → as = bs) generalizing b with
  | null | int | float | bool | string => cases hb; rfl
  | declaredArray _ _ ih =>
      cases hb with
      | declaredArray _ _ => rfl
      | array other _ _ => exact absurd rfl (other _)
  | array other _ _ ih =>
      cases hb with
      | declaredArray _ _ => exact absurd rfl (other _)
      | array _ types _ => rw [ih _ types]
  | reference refers hdecl =>
      cases hb with
      | reference refers' hdecl' =>
          cases refers.unique coherent hplace refers'
          rw [hdecl] at hdecl'
          cases hdecl'
          rfl
  | arithmetic sort _ _ _ ihl ihr =>
      cases hb with
      | arithmetic _ left _ _ => exact ihl left
      | comparison sort' => rw [sort'] at sort; simp at sort
      | logical sort' => rw [sort'] at sort; simp at sort
  | comparison sort =>
      cases hb with
      | arithmetic sort' => rw [sort] at sort'; simp at sort'
      | comparison | logical => rfl
  | logical sort =>
      cases hb with
      | arithmetic sort' => rw [sort] at sort'; simp at sort'
      | comparison | logical => rfl
  | not =>
      cases hb with
      | not => rfl
      | signed other => exact absurd rfl other
  | signed other _ ih =>
      cases hb with
      | not => exact absurd rfl other
      | signed _ operand => exact ih operand
  | construct _ found =>
      cases hb with
      | construct => rfl
      | call _ missing => simp [missing] at found
  | call _ missing callee =>
      cases hb with
      | construct _ found => simp [missing] at found
      | call _ _ callee' => rw [callee.unique coherent hplace callee']
  | method _ _ owner nearest =>
      cases hb with
      | method _ _ owner' nearest' =>
          cases owner.unique coherent hplace owner'
          rw [nearest.unique nearest']
  | property _ owner nearest =>
      cases hb with
      | property _ owner' nearest' =>
          cases owner.unique coherent hplace owner'
          rw [nearest.unique nearest']
  | nil =>
      rename_i hbs
      cases hbs
      rfl
  | cons _ _ ih ihs =>
      rename_i hbs
      cases hbs with
      | cons hb hbs => rw [ih hb, ihs _ hbs]

theorem HaveTypes.unique (coherent : program.Coherent) (hplace : place.Declared program)
    {declared : Option DataType} {values : List Expr} {as bs : List DataType}
    (has : HaveTypes program lookup place declared values as)
    (hbs : HaveTypes program lookup place declared values bs) : as = bs := by
  induction values generalizing as bs with
  | nil =>
      cases has
      cases hbs
      rfl
  | cons value rest ih =>
      cases has with
      | cons ha has =>
          cases hbs with
          | cons hb hbs => rw [ha.unique coherent hplace hb, ih has hbs]

end Offside
