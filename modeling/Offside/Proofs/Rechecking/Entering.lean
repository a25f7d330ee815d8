import Offside.Proofs.Typing.Entering

/-! # Entering findings again

What annotations hold they keep while more is entered. So findings that are entered once more stop
at the first of them that fills in a cell, and change nothing: the cells of those that were entered
are filled, and the calls before that which construct records are marked already.
-/

namespace Offside

namespace Annotations

/-- Whatever is set in some annotations is set likewise in others. -/
structure KeptBy (before after : Annotations) : Prop where
  type : ∀ {address type}, before.type? address = some type → after.type? address = some type
  link : ∀ {address id}, before.link? address = some id → after.link? address = some id
  constructor : ∀ {address}, before.isConstructor address = true →
    after.isConstructor address = true
  scope : ∀ {id scope}, before.scope? id = some scope → after.scope? id = some scope

/-- A cell is filled in. -/
def Fills (annotations : Annotations) : Cell → Prop
  | .type address => (annotations.type? address).isSome
  | .link address => (annotations.link? address).isSome
  | .scope id => (annotations.scope? id).isSome

variable {annotations before mid after later : Annotations} {finding : Finding}
  {findings : List Finding} {cell : Cell}

namespace KeptBy

theorem refl (annotations : Annotations) : annotations.KeptBy annotations :=
  ⟨id, id, id, id⟩

theorem trans (h : before.KeptBy mid) (h' : mid.KeptBy after) : before.KeptBy after :=
  ⟨fun set => h'.type (h.type set), fun set => h'.link (h.link set),
    fun set => h'.constructor (h.constructor set), fun set => h'.scope (h.scope set)⟩

theorem fills (h : before.KeptBy after) (filled : before.Fills cell) : after.Fills cell := by
  cases cell with
  | type address =>
      obtain ⟨type, set⟩ := Option.isSome_iff_exists.1 filled
      exact Option.isSome_iff_exists.2 ⟨type, h.type set⟩
  | link address =>
      obtain ⟨id, set⟩ := Option.isSome_iff_exists.1 filled
      exact Option.isSome_iff_exists.2 ⟨id, h.link set⟩
  | scope id =>
      obtain ⟨scope, set⟩ := Option.isSome_iff_exists.1 filled
      exact Option.isSome_iff_exists.2 ⟨scope, h.scope set⟩

end KeptBy

/-- Annotations say what a finding says. -/
def Holds (annotations : Annotations) : Finding → Prop
  | .type address type _ => annotations.type? address = some type
  | .link address id _ _ => annotations.link? address = some id
  | .constructor address => annotations.isConstructor address = true
  | .scope id scope _ _ => annotations.scope? id = some scope

/-- A finding that is entered is held from then on. -/
theorem holds_of_enter (entered : annotations.enter finding = .ok after) :
    after.Holds finding := by
  cases finding with
  | type | link | scope =>
      rw [enter] at entered
      split at entered
      · cases entered
      · cases entered
        simp [Holds, type?, link?, scope?]
  | constructor =>
      rw [enter] at entered
      split at entered
      · next known =>
        cases entered
        exact known
      · cases entered
        simp [Holds, isConstructor]

/-- A finding that is entered leaves whatever has been set as it is. -/
theorem keptBy_of_enter (entered : annotations.enter finding = .ok after) :
    annotations.KeptBy after := by
  cases finding with
  | type =>
      rw [enter] at entered
      split at entered
      · cases entered
      · next fresh =>
        cases entered
        have empty := Option.not_isSome_iff_eq_none.1 fresh
        exact ⟨fun set => (lookup_cons_eq_some empty).2 (.inl set), id, id, id⟩
  | link =>
      rw [enter] at entered
      split at entered
      · cases entered
      · next fresh =>
        cases entered
        have empty := Option.not_isSome_iff_eq_none.1 fresh
        exact ⟨id, fun set => (lookup_cons_eq_some empty).2 (.inl set), id, id⟩
  | constructor =>
      rw [enter] at entered
      split at entered
      · cases entered
        exact .refl _
      · cases entered
        refine ⟨id, id, fun set => ?_, id⟩
        rw [isConstructor, List.contains_cons]
        exact Bool.or_eq_true_iff.2 (.inr set)
  | scope =>
      rw [enter] at entered
      split at entered
      · cases entered
      · next fresh =>
        cases entered
        have empty := Option.not_isSome_iff_eq_none.1 fresh
        exact ⟨id, id, id, fun set => (lookup_cons_eq_some empty).2 (.inl set)⟩

theorem keptBy_enterAll (annotations : Annotations) (findings : List Finding) :
    annotations.KeptBy (annotations.enterAll findings).1 := by
  induction findings generalizing annotations with
  | nil => exact .refl _
  | cons finding rest ih =>
      rw [enterAll]
      split
      · next entered => exact (keptBy_of_enter entered).trans (ih _)
      · exact .refl _

/-- Findings are entered one after the other. -/
theorem enterAll_append (annotations : Annotations) (front back : List Finding) :
    annotations.enterAll (front ++ back) =
      match annotations.enterAll front with
      | (mid, .ok ()) => mid.enterAll back
      | (mid, .error error) => (mid, .error error) := by
  induction front generalizing annotations with
  | nil => rfl
  | cons finding rest ih =>
      rw [List.cons_append, enterAll, enterAll]
      split
      · exact ih _
      · rfl

/-- The more findings are entered, the more is set. -/
theorem enterAll_take_keptBy (annotations : Annotations) (findings : List Finding)
    {count more : Nat} (h : count ≤ more) :
    (annotations.enterAll (findings.take count)).1.KeptBy
      (annotations.enterAll (findings.take more)).1 := by
  have split : findings.take more =
      findings.take count ++ (findings.take more).drop count := by
    have split := (List.take_append_drop count (findings.take more)).symm
    rwa [List.take_take, Nat.min_eq_left h] at split
  rw [split, enterAll_append]
  split
  · next entered =>
    rw [entered]
    exact keptBy_enterAll _ _
  · next entered =>
    rw [entered]
    exact .refl _

/-- A finding whose cell is empty is entered and fills it. -/
theorem enter_of_not_fills (fills : finding.cell? = some cell) (empty : ¬ annotations.Fills cell) :
    ∃ after, annotations.enter finding = .ok after ∧ after.Fills cell := by
  cases finding with
  | type | link | scope =>
      cases fills
      exact ⟨_, if_neg empty, by simp [Fills, type?, link?, scope?]⟩
  | constructor => cases fills

/-- A finding whose cell is filled cannot be entered, which is an internal error. -/
theorem enter_of_fills (fills : finding.cell? = some cell) (filled : annotations.Fills cell) :
    ∃ message position, annotations.enter finding = .error ⟨.internalError message, position⟩ := by
  cases finding with
  | type | link | scope =>
      cases fills
      exact ⟨_, _, if_pos filled⟩
  | constructor => cases fills

/-- That a call constructs a record is entered in any case, and fills in no cell. -/
theorem enter_constructor (annotations : Annotations) (address : Address) :
    ∃ after, annotations.enter (.constructor address) = .ok after ∧
      after.isConstructor address = true ∧ ∀ cell, after.Fills cell ↔ annotations.Fills cell := by
  by_cases known : annotations.isConstructor address = true
  · exact ⟨annotations, if_pos known, known, fun _ => .rfl⟩
  · refine ⟨_, if_neg known, by simp [isConstructor], fun cell => ?_⟩
    cases cell <;> exact .rfl

/-- Findings that have been entered where nothing was set stop at once if they are entered again:
with an internal error if any cell has been filled in, and else with nothing done. -/
theorem enterAll_again (empty : ∀ cell, ¬ annotations.Fills cell)
    (kept : (annotations.enterAll findings).1.KeptBy later) :
    (∃ cell, (annotations.enterAll findings).1.Fills cell) ∧
        (∃ message position,
          later.enterAll findings = (later, .error ⟨.internalError message, position⟩)) ∨
      (∀ cell, ¬ (annotations.enterAll findings).1.Fills cell) ∧
        (annotations.enterAll findings).2 = .ok () ∧ later.enterAll findings = (later, .ok ()) := by
  induction findings generalizing annotations with
  | nil => exact .inr ⟨empty, rfl, rfl⟩
  | cons finding rest ih =>
      cases fills : finding.cell? with
      | some cell =>
          -- This is the first cell to be filled in. It was, so it cannot be again.
          obtain ⟨mid, entered, filled⟩ := enter_of_not_fills fills (empty cell)
          have filled : (annotations.enterAll (finding :: rest)).1.Fills cell := by
            rw [enterAll, entered]
            exact (keptBy_enterAll mid rest).fills filled
          obtain ⟨message, position, refused⟩ := enter_of_fills fills (kept.fills filled)
          exact .inl ⟨⟨cell, filled⟩, message, position, by rw [enterAll, refused]⟩
      | none =>
          cases finding with
          | type | link | scope => cases fills
          | constructor address =>
              obtain ⟨mid, entered, marked, same⟩ := enter_constructor annotations address
              have rest_entered : annotations.enterAll (.constructor address :: rest) =
                  mid.enterAll rest := by rw [enterAll, entered]
              rw [rest_entered] at kept ⊢
              have marked : later.isConstructor address = true :=
                kept.constructor ((keptBy_enterAll mid rest).constructor marked)
              have again : later.enterAll (.constructor address :: rest) =
                  later.enterAll rest := by
                rw [enterAll, enter, if_pos marked]
              rw [again]
              exact ih (fun cell => mt (same cell).1 (empty cell)) kept

end Annotations

end Offside
