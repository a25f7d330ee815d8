import Offside.Proofs.Handles
import Offside.Typing.Resolution

/-! # Bodies in which every lookup finds the same

The two ways to look a local variable up differ where a body declares a name more than once, or
declares a name that something else has too. In a body that does neither, the last declaration of a
name is its only one. So whatever the innermost declaration before a reference is, the last one in
the body is no other.
-/

namespace Offside

/-- The names that the body of a function declares, at any depth and in the headers of its loops, in
the order of the source. -/
def Function.localNames (program : Program) (function : Function) : List String :=
  (function.body.handles.filterMap program.decl?).map VarDecl.name

/-- The body of a function declares no name twice, and no name of a global variable. -/
structure Function.Unambiguous (program : Program) (function : Function) : Prop where
  nodup : (function.localNames program).Nodup
  notGlobal : ∀ name ∈ function.localNames program, program.global? name = none

/-- The functions and methods of a program, and its entry point. -/
def Program.bodies (program : Program) : List Function :=
  program.records.flatMap RecordDecl.methods ++ program.functions ++ program.main.toList

/-- No body of a program is ambiguous. -/
def Program.Unambiguous (program : Program) : Prop :=
  ∀ function ∈ program.bodies, function.Unambiguous program

instance (program : Program) (function : Function) : Decidable (function.Unambiguous program) :=
  decidable_of_iff ((function.localNames program).Nodup ∧
      ∀ name ∈ function.localNames program, (program.global? name).isNone = true) (by
    simp only [Option.isNone_iff_eq_none]
    exact ⟨fun h => ⟨h.1, h.2⟩, fun h => ⟨h.nodup, h.notGlobal⟩⟩)

instance (program : Program) : Decidable program.Unambiguous :=
  inferInstanceAs (Decidable (∀ function ∈ program.bodies, function.Unambiguous program))

/-- What a block declares itself is among what is declared in it at any depth. -/
theorem Block.declared_subset_handles (block : Block) : block.declared ⊆ block.handles := by
  obtain ⟨body, span⟩ := block
  intro id declared
  obtain ⟨stmt, member, declares⟩ := List.mem_filterMap.1 declared
  cases stmt with
  | declare =>
      cases declares
      rw [Block.handles, Stmt.listHandles_eq_flatMap]
      exact List.mem_flatMap.2 ⟨_, member, by simp [Stmt.handles]⟩
  | _ => cases declares

/-- The names in some environments are names of variables that the body of a function declares. -/
def Function.Holds (program : Program) (function : Function) (environments : List Environment) :
    Prop :=
  ∀ environment ∈ environments, ∀ entry ∈ environment.entries,
    entry.2 ∈ function.body.handles ∧ program.declares entry.1 entry.2 = true

namespace Function

variable {program : Program} {function : Function} {environments : List Environment}
  {name : String} {id : VarId}

namespace Holds

theorem nil : function.Holds program [] :=
  List.forall_mem_nil _

theorem cons_empty (h : function.Holds program environments) :
    function.Holds program ({} :: environments) :=
  List.forall_mem_cons.2 ⟨List.forall_mem_nil _, h⟩

theorem tail (h : function.Holds program environments) :
    function.Holds program environments.tail :=
  fun environment member => h environment (List.mem_of_mem_tail member)

theorem declare {innermost : Environment} (h : function.Holds program (innermost :: environments))
    (listed : id ∈ function.body.handles) (declares : program.declares name id = true) :
    function.Holds program (innermost.declare name id :: environments) := by
  obtain ⟨inner, outer⟩ := List.forall_mem_cons.1 h
  exact List.forall_mem_cons.2 ⟨List.forall_mem_cons.2 ⟨⟨listed, declares⟩, inner⟩, outer⟩

/-- What is found in the environments is a variable with the name, which the body declares. -/
theorem of_nearest? (h : function.Holds program environments)
    (found : LocalLookup.nearest? environments name = some id) :
    id ∈ function.body.handles ∧ program.declares name id = true := by
  obtain ⟨environment, member, found⟩ := List.exists_of_findSome?_eq_some found
  obtain ⟨before, after, split, -⟩ := List.lookup_eq_some_iff.1 found
  exact h environment member (name, id) (by rw [split]; simp)

end Holds

/-- Of the variables that an unambiguous body declares, no two have the same name. -/
theorem Unambiguous.eq_of_declares (h : function.Unambiguous program)
    (coherent : program.Coherent) {other : VarId} (listed : id ∈ function.body.handles)
    (listed' : other ∈ function.body.handles) (declares : program.declares name id = true)
    (declares' : program.declares name other = true) : id = other := by
  obtain ⟨decl, found, named⟩ := (Option.any_eq_true ..).1 declares
  obtain ⟨decl', found', named'⟩ := (Option.any_eq_true ..).1 declares'
  have same : decl = decl' :=
    List.inj_on_of_nodup_map h.nodup (List.mem_filterMap.2 ⟨id, listed, found⟩)
      (List.mem_filterMap.2 ⟨other, listed', found'⟩)
      ((eq_of_beq named).trans (eq_of_beq named').symm)
  rw [← coherent.id_eq found, same, coherent.id_eq found']

/-- A name that an unambiguous body declares is not that of a global variable. -/
theorem Unambiguous.global?_eq_none (h : function.Unambiguous program)
    (listed : id ∈ function.body.handles) (declares : program.declares name id = true) :
    program.global? name = none := by
  obtain ⟨decl, found, named⟩ := (Option.any_eq_true ..).1 declares
  exact h.notGlobal name
    (List.mem_map.2 ⟨decl, List.mem_filterMap.2 ⟨id, listed, found⟩, eq_of_beq named⟩)

/-- If an unambiguous body declares a name itself, the variable that the environments have under the
name, or else the global one, is the one declared there. -/
theorem Unambiguous.lastDeclared?_eq (h : function.Unambiguous program)
    (coherent : program.Coherent) (holds : function.Holds program environments) {last : VarId}
    (declared : program.lastDeclared? function name = some last)
    (found : (LocalLookup.nearest? environments name).or
      ((program.global? name).map VarDecl.id) = some id) : last = id := by
  have member : last ∈ function.body.handles :=
    function.body.declared_subset_handles
      (List.mem_reverse.1 (List.mem_of_find?_eq_some declared))
  have declares : program.declares name last = true := List.find?_some declared
  rw [h.global?_eq_none member declares, Option.map_none, Option.or_none] at found
  obtain ⟨member', declares'⟩ := holds.of_nearest? found
  exact h.eq_of_declares coherent member member' declares declares'

end Function

/-- Outside of ambiguous bodies, the variable that a name is found to refer to is the same if the
last declaration in the body counts. -/
theorem LocalLookup.find?_lastInBody {program : Program} {context : Context}
    {environments : List Environment} {name : String} {id : VarId} (coherent : program.Coherent)
    (inside : ∀ function, context.function = some function →
      function.Unambiguous program ∧ function.Holds program environments)
    (found : LocalLookup.innermost.find? program context environments name = some id) :
    LocalLookup.lastInBody.find? program context environments name = some id := by
  unfold LocalLookup.find? at found ⊢
  cases around : context.function with
  | none => simpa only [around] using found
  | some function =>
      obtain ⟨unambiguous, holds⟩ := inside function around
      simp only [around, LocalLookup.localOf?, Option.or_assoc] at found ⊢
      cases declared : program.lastDeclared? function name with
      | none => simpa only [Option.none_or] using found
      | some last =>
          -- A property or a parameter comes before all of this; behind them there is one candidate.
          rw [Option.some_or]
          cases property : context.record.bind fun record =>
              (program.propertyOf? record name).map VarDecl.id with
          | some => simpa only [property, Option.some_or] using found
          | none =>
              cases param : program.paramOf? function name with
              | some => simpa only [property, param, Option.none_or, Option.some_or] using found
              | none =>
                  rw [property, param, Option.none_or, Option.none_or] at found
                  rw [Option.none_or, Option.none_or,
                    unambiguous.lastDeclared?_eq coherent holds declared found]

end Offside
