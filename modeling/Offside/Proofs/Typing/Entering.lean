import Offside.Proofs.Typing.Sites

/-! # Entering findings

Findings that fill in distinct cells can be entered, and annotations then hold exactly these.
-/

namespace Offside

variable {annotations : Annotations} {finding : Finding} {findings rest : List Finding}

/-- Annotations hold certain findings and no others. -/
structure Annotations.Hold (annotations : Annotations) (findings : List Finding) : Prop where
  type : ∀ address type, annotations.type? address = some type ↔
    ∃ position, .type address type position ∈ findings
  link : ∀ address id, annotations.link? address = some id ↔
    ∃ name position, .link address id name position ∈ findings
  constructor : ∀ address, annotations.isConstructor address ↔ .constructor address ∈ findings
  scope : ∀ id scope, annotations.scope? id = some scope ↔
    ∃ name position, .scope id scope name position ∈ findings

theorem lookup_cons_eq_some {α β : Type} [BEq α] [LawfulBEq α] {key other : α} {value found : β}
    {items : List (α × β)} (fresh : items.lookup key = none) :
    ((key, value) :: items).lookup other = some found ↔
      items.lookup other = some found ∨ other = key ∧ found = value := by
  by_cases same : other = key
  · subst same
    simp [fresh, eq_comm]
  · simp [List.lookup_cons, same, beq_eq_false_iff_ne.2 same]

namespace Annotations

theorem hold_nil : Annotations.Hold {} [] :=
  ⟨by simp [type?], by simp [link?], by simp [isConstructor], by simp [scope?]⟩

/-- A finding whose cell is empty can be entered. -/
theorem Hold.enter (held : annotations.Hold findings)
    (fresh : ∀ cell ∈ finding.cell?, cell ∉ findings.filterMap Finding.cell?) :
    ∃ after, annotations.enter finding = .ok after ∧ after.Hold (findings ++ [finding]) := by
  have unlisted : ∀ other ∈ findings, ∀ cell ∈ finding.cell?, other.cell? ≠ some cell :=
    fun other member cell same filled =>
      fresh cell same (List.mem_filterMap.2 ⟨other, member, filled⟩)
  cases finding with
  | type address type position =>
      have empty : annotations.type? address = none := by
        refine Option.eq_none_iff_forall_ne_some.2 fun other found => ?_
        obtain ⟨position, listed⟩ := (held.type address other).1 found
        exact unlisted _ listed (.type address) rfl rfl
      refine ⟨_, by rw [Annotations.enter, empty]; rfl, ?_, ?_, ?_, ?_⟩
      · intro other type'
        refine (lookup_cons_eq_some empty).trans ?_
        rw [← Annotations.type?, held.type]
        simp [exists_or]
      · simpa [link?] using held.link
      · simpa [isConstructor] using held.constructor
      · simpa [scope?] using held.scope
  | link address id name position =>
      have empty : annotations.link? address = none := by
        refine Option.eq_none_iff_forall_ne_some.2 fun other found => ?_
        obtain ⟨name, position, listed⟩ := (held.link address other).1 found
        exact unlisted _ listed (.link address) rfl rfl
      refine ⟨_, by rw [Annotations.enter, empty]; rfl, ?_, ?_, ?_, ?_⟩
      · simpa [type?] using held.type
      · intro other id'
        refine (lookup_cons_eq_some empty).trans ?_
        rw [← Annotations.link?, held.link]
        simp [exists_or]
      · simpa [isConstructor] using held.constructor
      · simpa [scope?] using held.scope
  | constructor address =>
      by_cases known : annotations.isConstructor address
      · refine ⟨annotations, by rw [Annotations.enter, if_pos known], by simpa using held.type,
          by simpa using held.link, fun other => ?_, by simpa using held.scope⟩
        have listed := (held.constructor address).1 known
        rw [held.constructor, List.mem_append, List.mem_singleton]
        refine ⟨.inl, fun either => either.elim id fun same => same ▸ listed⟩
      · refine ⟨_, by rw [Annotations.enter, if_neg known], by simpa [type?] using held.type,
          by simpa [link?] using held.link, fun other => ?_, by simpa [scope?] using held.scope⟩
        rw [List.mem_append, List.mem_singleton, ← held.constructor]
        simp [isConstructor, or_comm]
  | scope id scope name position =>
      have empty : annotations.scope? id = none := by
        refine Option.eq_none_iff_forall_ne_some.2 fun other found => ?_
        obtain ⟨name, position, listed⟩ := (held.scope id other).1 found
        exact unlisted _ listed (.scope id) rfl rfl
      refine ⟨_, by rw [Annotations.enter, empty]; rfl, ?_, ?_, ?_, ?_⟩
      · simpa [type?] using held.type
      · simpa [link?] using held.link
      · simpa [isConstructor] using held.constructor
      · intro other scope'
        refine (lookup_cons_eq_some empty).trans ?_
        rw [← Annotations.scope?, held.scope]
        simp [exists_or]

/-- Findings of distinct cells can all be entered. -/
theorem Hold.enterAll (held : annotations.Hold findings)
    (distinct : ((findings ++ rest).filterMap Finding.cell?).Nodup) :
    ∃ after, annotations.enterAll rest = (after, .ok ()) ∧ after.Hold (findings ++ rest) := by
  induction rest generalizing annotations findings with
  | nil => exact ⟨annotations, rfl, by simpa using held⟩
  | cons finding rest ih =>
      have fresh : ∀ cell ∈ finding.cell?, cell ∉ findings.filterMap Finding.cell? := by
        intro cell same listed
        rw [List.filterMap_append, List.nodup_append'] at distinct
        exact distinct.2.2 listed (by simp [Option.mem_def.1 same])
      obtain ⟨next, entered, held'⟩ := held.enter fresh
      obtain ⟨after, all, held''⟩ := ih held' (by simpa using distinct)
      exact ⟨after, by simp [Annotations.enterAll, entered, all], by simpa using held''⟩

end Annotations

end Offside
