import Offside.Proofs.Comparing.Programs

/-! # Programs put together

One program stands behind another when its handles are shifted past the declarations of that one. In
the two together things are entered under the labels of both, and what is entered into the second on
its own is entered into it there, if its label is free in the first as well.
-/

namespace Offside

/-- Everything of one program behind everything of another. -/
def Program.append (front back : Program) : Program where
  decls := front.decls ++ back.decls
  globals := front.globals ++ back.globals
  records := front.records ++ back.records
  functions := front.functions ++ back.functions
  main := front.main.or back.main
  statements := front.statements ++ back.statements

section Appending

variable {front back : Program} {move : Relocation} {entry : Entry} {label : Label}

theorem Program.append_empty : front.append (Program.empty.moved move) = front := by
  simp [append, Program.moved, Program.empty]

variable (shifted : ∀ id, move.decl id = ⟨front.decls.size + id.index⟩)

include shifted

/-- A declaration is found behind those of another program. -/
theorem Program.decl?_append (id : VarId) :
    (front.append (back.moved move)).decl? (move.decl id) =
      (back.decl? id).map (VarDecl.moved move) := by
  rw [decl?, shifted, append, Array.getElem?_append_right (Nat.le_add_right _ _),
    Nat.add_sub_cancel_left]
  exact Array.getElem?_map

/-- In two programs put together, things are entered under the labels of both. -/
theorem Program.mem_labels_append (declared : front.DeclaresGlobals) :
    label ∈ (front.append (back.moved move)).labels ↔
      label ∈ front.labels ∨ label ∈ back.labels := by
  have globals : (front.append (back.moved move)).globalNames =
      front.globalNames ++ back.globalNames := by
    have earlier : ∀ id ∈ front.globals, (front.append (back.moved move)).decl? id =
        front.decl? id := by
      intro id listed
      obtain ⟨decl, found⟩ := Option.isSome_iff_exists.1 (declared id listed)
      obtain ⟨inside, -⟩ := Array.getElem?_eq_some_iff.1 found
      exact Array.getElem?_append_left inside
    have later : (front.append (back.moved move)).decl? ∘ move.decl =
        fun id => (back.decl? id).map (VarDecl.moved move) := funext (Program.decl?_append shifted)
    have listed : (front.append (back.moved move)).globals =
        front.globals ++ back.globals.map move.decl := rfl
    unfold globalNames
    rw [listed, List.filterMap_append, List.filterMap_congr earlier, List.filterMap_map,
      List.map_append, later]
    simp [List.map_filterMap, Function.comp_def]
  unfold Program.labels
  rw [globals]
  simp [Program.append, Program.moved]
  grind

theorem Entry.label?_append :
    (entry.moved move).label? (front.append (back.moved move)) = entry.label? back := by
  cases entry with
  | global id =>
      change ((front.append (back.moved move)).decl? (move.decl id)).map _ =
        (back.decl? id).map _
      rw [Program.decl?_append shifted, Option.map_map]
      rfl
  | _ => rfl

omit shifted in
/-- What is entered goes to the second of two programs put together. -/
theorem Entry.enter_append (free : entry.label? back = some .main → front.main = none) :
    (entry.moved move).enter (front.append (back.moved move)) =
      front.append ((entry.enter back).moved move) := by
  rw [Entry.enter_moved]
  cases entry with
  | main added => simp [Entry.enter, Entry.moved, Program.append, free rfl]
  | _ => simp [Entry.enter, Entry.moved, Program.append]

/-- What is entered behind another program is entered as it is on its own, if its label is free in
that program as well. -/
theorem Entry.insert_append {next : Program} (declared : front.DeclaresGlobals)
    (valid : ∀ id, entry = .global id → (back.decl? id).isSome)
    (entered : entry.insert back = .ok next)
    (other : ∀ label ∈ entry.label? back, label ∉ front.labels) :
    (entry.moved move).insert (front.append (back.moved move)) =
      .ok (front.append (next.moved move)) := by
  obtain ⟨rfl, free, apart⟩ := insert_eq_ok valid entered
  rw [insert_of_free, enter_append]
  · intro main
    have absent := other _ main
    rw [Program.main_mem_labels] at absent
    simpa using absent
  · rw [isReserved_moved, free]
  · intro label found listed
    rw [label?_append shifted] at found
    rw [Program.mem_labels_append shifted declared] at listed
    exact listed.elim (other label found) (apart label found)
  · intro id global
    cases entry <;> cases global
    rw [Program.decl?_append shifted, Option.isSome_map]
    exact valid _ rfl

/-- What is entered behind another program is not entered if its label is taken there. -/
theorem Entry.insert_append_of_taken (declared : front.DeclaresGlobals)
    (found : label ∈ entry.label? back) (taken : label ∈ front.labels) :
    ∃ error, (entry.moved move).insert (front.append (back.moved move)) = .error error ∧
      error.cause.category = .registration := by
  rw [← label?_append shifted] at found
  have listed : label ∈ (front.append (back.moved move)).labels :=
    (Program.mem_labels_append shifted declared).2 (.inl taken)
  obtain ⟨error, failed, -, category⟩ := insert_of_taken (.inr ⟨label, found, listed⟩)
  exact ⟨error, failed, category⟩

end Appending

end Offside
