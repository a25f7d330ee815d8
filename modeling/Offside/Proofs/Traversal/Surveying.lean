import Offside.Proofs.Outcome
import Offside.Proofs.Traversal.Nodes

/-! # Surveys

What is seen below some branchings is listed in the order of the paths that lead there, each node
once and with what surrounds it. What is listed of the parts of a node, one behind the other, makes
up what is listed of the node.
-/

namespace Offside

/-- A node below some branchings: the path to it, and what the path goes into. -/
structure Sighting where
  path : List Nat
  node : Node
  outer : List Boundary

namespace Sighting

/-- What a full trace notes here. -/
def entries (base : List Boundary) (sighting : Sighting) : List TraceEntry :=
  sighting.node.events.map fun event => ⟨event, Context.innermost (sighting.outer ++ base)⟩

/-- The same, seen from the node above. -/
def below (index : Nat) (sighting : Sighting) : Sighting :=
  { sighting with path := index :: sighting.path }

/-- The same, inside of something. -/
def inside (boundary : Boundary) (sighting : Sighting) : Sighting :=
  { sighting with outer := sighting.outer ++ [boundary] }

end Sighting

/-- What stands below some branchings, of which the first has a given index. -/
inductive Sights (program : Program) (index : Nat) (parts : List Branching) : Sighting → Prop
  | part {offset : Nat} {part : Branching} {path : List Nat} {node : Node} {outer : List Boundary}
      (listed : parts[offset]? = some part)
      (found : part.node.find? program path = some (node, outer)) :
      Sights program index parts ⟨(index + offset) :: path, node, outer ++ part.entered.toList⟩

section Sights

variable {program : Program} {index : Nat} {node : Node} {sighting : Sighting}

/-- What stands below a node is found from there. -/
theorem sights_parts_iff : Sights program 0 (node.parts program) sighting ↔
    sighting.path ≠ [] ∧
      node.find? program sighting.path = some (sighting.node, sighting.outer) := by
  constructor
  · rintro @⟨offset, part, path, found, outer, listed, below⟩
    rw [Nat.zero_add]
    exact ⟨List.cons_ne_nil _ _, by simp [Node.find?, listed, below]⟩
  · rintro ⟨nonempty, below⟩
    obtain ⟨path, found, outer⟩ := sighting
    cases path with
    | nil => exact absurd rfl nonempty
    | cons offset path =>
        simp only [Node.find?, Option.bind_eq_bind, Option.bind_eq_some_iff] at below
        obtain ⟨part, listed, ⟨found, outer⟩, below, same⟩ := below
        cases same
        rw [← Nat.zero_add offset]
        exact .part listed below

/-- What is seen of one node is that node and all that is found from it. -/
theorem sights_here_iff : Sights program index [node.here] sighting ↔
    ∃ path, sighting.path = index :: path ∧
      node.find? program path = some (sighting.node, sighting.outer) := by
  have first : [node.here][0]? = some node.here := rfl
  constructor
  · rintro @⟨offset, part, path, found, outer, listed, below⟩
    obtain ⟨rfl, rfl⟩ : offset = 0 ∧ part = node.here := by
      simpa [List.getElem?_singleton, eq_comm] using listed
    exact ⟨path, rfl, by simpa [Node.here] using below⟩
  · obtain ⟨path, found, outer⟩ := sighting
    rintro ⟨rest, rfl, below⟩
    have sights : Sights program index [node.here] _ := .part first below
    simpa [Node.here] using sights

end Sights

/-- Some sightings are all that there are below some branchings, in the order of their paths. -/
structure Enumerates (program : Program) (index : Nat) (parts : List Branching)
    (sightings : List Sighting) : Prop where
  sorted : (sightings.map Sighting.path).Pairwise (· < ·)
  complete : ∀ sighting, sighting ∈ sightings ↔ Sights program index parts sighting

namespace Enumerates

variable {program : Program} {index : Nat} {parts more : List Branching}
  {sightings others : List Sighting} {node : Node}

theorem nil : Enumerates program index [] [] where
  sorted := .nil
  complete sighting := by
    refine ⟨nofun, ?_⟩
    rintro ⟨listed, -⟩
    simp at listed

/-- What stands below some branchings comes before what stands below the next ones. -/
theorem append (h : Enumerates program index parts sightings)
    (h' : Enumerates program (index + parts.length) more others) :
    Enumerates program index (parts ++ more) (sightings ++ others) where
  sorted := by
    rw [List.map_append, List.pairwise_append]
    refine ⟨h.sorted, h'.sorted, ?_⟩
    simp only [List.mem_map, forall_exists_index, and_imp]
    rintro _ first before rfl _ second behind rfl
    obtain ⟨listed, -⟩ := (h.complete first).1 before
    obtain ⟨-, -⟩ := (h'.complete second).1 behind
    obtain ⟨small, -⟩ := List.getElem?_eq_some_iff.1 listed
    exact List.cons_lt_cons_iff.2 (.inl (by omega))
  complete sighting := by
    rw [List.mem_append, h.complete, h'.complete]
    constructor
    · rintro (⟨listed, found⟩ | @⟨offset, part, path, node, outer, listed, found⟩)
      · obtain ⟨small, -⟩ := List.getElem?_eq_some_iff.1 listed
        exact .part (by rw [List.getElem?_append_left small, listed]) found
      · rw [Nat.add_assoc]
        refine .part ?_ found
        rw [List.getElem?_append_right (by omega), Nat.add_sub_cancel_left, listed]
    · rintro @⟨offset, part, path, node, outer, listed, found⟩
      by_cases small : offset < parts.length
      · rw [List.getElem?_append_left small] at listed
        exact .inl (.part listed found)
      · rw [List.getElem?_append_right (by omega)] at listed
        refine .inr ?_
        have same : index + offset = index + parts.length + (offset - parts.length) := by omega
        rw [same]
        exact .part listed found

/-- A node stands before all that is below it. -/
theorem above {node : Node} (h : Enumerates program 0 (node.parts program) sightings) :
    Enumerates program index [node.here]
      (⟨[index], node, []⟩ :: sightings.map (Sighting.below index)) where
  sorted := by
    rw [List.map_cons, List.map_map, List.pairwise_cons]
    refine ⟨?_, ?_⟩
    · simp only [List.mem_map, forall_exists_index, and_imp]
      rintro _ sighting member rfl
      obtain ⟨-, -⟩ := (h.complete sighting).1 member
      exact List.cons_lt_cons_iff.2 (.inr ⟨rfl, List.nil_lt_cons _ _⟩)
    · have sorted := List.pairwise_map.1 h.sorted
      refine List.pairwise_map.2 (sorted.imp fun less => ?_)
      exact List.cons_lt_cons_iff.2 (.inr ⟨rfl, less⟩)
  complete sighting := by
    rw [List.mem_cons, List.mem_map, sights_here_iff]
    simp only [h.complete, sights_parts_iff]
    constructor
    · rintro (rfl | ⟨sighting, ⟨-, below⟩, rfl⟩)
      · exact ⟨[], rfl, rfl⟩
      · exact ⟨sighting.path, rfl, below⟩
    · obtain ⟨_, found, outer⟩ := sighting
      rintro ⟨path, rfl, below⟩
      cases path with
      | nil =>
          cases below
          exact .inl rfl
      | cons next path => exact .inr ⟨⟨next :: path, found, outer⟩, ⟨nofun, below⟩, rfl⟩

/-- What stands below nodes inside of something stands inside of it too. -/
theorem within {nodes : List Node} (boundary : Boundary)
    (h : Enumerates program index (nodes.map Node.here) sightings) :
    Enumerates program index (nodes.map (Node.within boundary))
      (sightings.map (Sighting.inside boundary)) where
  sorted := by simpa [Sighting.inside, Function.comp_def] using h.sorted
  complete sighting := by
    rw [List.mem_map]
    constructor
    · rintro ⟨sighting, member, rfl⟩
      obtain @⟨offset, part, path, found, outer, listed, below⟩ := (h.complete sighting).1 member
      rw [List.getElem?_map, Option.map_eq_some_iff] at listed
      obtain ⟨node, listed, rfl⟩ := listed
      have entered : (nodes.map (Node.within boundary))[offset]? = some (node.within boundary) := by
        rw [List.getElem?_map, listed, Option.map_some]
      have sights : Sights program index _ _ := .part entered below
      simpa [Sighting.inside, Node.here, Node.within] using sights
    · rintro @⟨offset, part, path, found, outer, listed, below⟩
      rw [List.getElem?_map, Option.map_eq_some_iff] at listed
      obtain ⟨node, listed, rfl⟩ := listed
      have here : (nodes.map Node.here)[offset]? = some node.here := by
        rw [List.getElem?_map, listed, Option.map_some]
      refine ⟨_, (h.complete _).2 (.part here below), ?_⟩
      simp [Sighting.inside, Node.here, Node.within]

end Enumerates

end Offside
