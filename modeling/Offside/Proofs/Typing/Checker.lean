import Offside.Proofs.Typing.Distinct
import Offside.Proofs.Typing.Entering
import Offside.Proofs.Typing.Programs

/-! # The check of a program

Checking a coherent program decides whether it is well typed, and annotates each site of a program
that is.
-/

namespace Offside

variable {program : Program} {lookup : LocalLookup}

/-- Annotations say of each site of a program what the rules say of it, and the rules say nothing
else of it. -/
structure Program.Annotated (program : Program) (lookup : LocalLookup)
    (annotations : Annotations) : Prop where
  type : ∀ address place declared expr, .expr address place declared expr ∈ program.sites →
    ∃ type, annotations.type? address = some type ∧
      ∀ other, HasType program lookup place declared expr other ↔ other = type
  link : ∀ address place declared name span,
    .expr address place declared (.reference name span) ∈ program.sites →
    ∃ id, annotations.link? address = some id ∧ (program.decl? id).isSome ∧
      ∀ other, place.RefersTo program name lookup other ↔ other = id
  scope : ∀ place id, .decl place id ∈ program.sites → annotations.scope? id = some place.scope

/-- A cell is of one site only. -/
theorem Program.site_unique (coherent : program.Coherent) {site other : Site} {cell : Cell}
    (listed : site ∈ program.sites) (listed' : other ∈ program.sites) (member : cell ∈ site.cells)
    (member' : cell ∈ other.cells) : site = other := by
  have apart := (List.nodup_flatMap.1 (Program.spread coherent).nodup).2
  have same : program.sites.Pairwise fun a b => ∀ cell, cell ∈ a.cells → cell ∈ b.cells → a = b :=
    apart.imp fun disjoint _ member member' => (disjoint member member').elim
  have flipped : program.sites.Pairwise
      (flip fun a b => ∀ cell, cell ∈ a.cells → cell ∈ b.cells → a = b) := by
    refine apart.imp ?_
    intro a b disjoint cell member member'
    exact (disjoint member' member).elim
  exact same.forall_of_forall_of_flip (fun _ _ _ _ _ => rfl) flipped listed listed' cell member
    member'

/-- The findings of an analysis that ends well fill in all cells of a program. -/
theorem Analysis.ofProgram_cases (coherent : program.Coherent) (lookup : LocalLookup) :
    (∀ finding ∈ (ofProgram program lookup).findings, ∃ site ∈ program.sites,
      site.place.Declared program ∧ site.Justifies program lookup finding) ∧
    ((ofProgram program lookup).outcome = .ok () ∧ program.WellTyped lookup ∧
        (ofProgram program lookup).findings.filterMap Finding.cell? = program.cells ∨
      ∃ error, (ofProgram program lookup).outcome = .error error ∧ ¬ program.WellTyped lookup ∧
        error.cause.category = .semantic ∧
        (ofProgram program lookup).findings.filterMap Finding.cell? <+: program.cells) := by
  have judged : Judges program lookup {} {} none program.sites program.cells _ _ _ :=
    program_judged coherent
  replace judged := judged { inner := {} } ⟨by simp [Place.Declared], rfl, rfl, rfl, rfl, rfl⟩
  have run : ofProgram program lookup =
      let outcome := (traverseProgram (rules program lookup) program).run.run { inner := {} }
      ⟨outcome.2.inner.findings.toList, outcome.1⟩ := rfl
  unfold Action.Ensures at judged
  rw [run]
  generalize (traverseProgram (rules program lookup) program).run.run { inner := {} } = outcome
    at judged ⊢
  obtain ⟨result, final⟩ := outcome
  cases result with
  | ok value =>
      obtain ⟨typed, _, findings, grown, filled, justified⟩ := judged
      rw [List.nil_append] at grown
      subst grown
      exact ⟨justified, .inl ⟨rfl, typed, filled⟩⟩
  | error error =>
      obtain ⟨untyped, semantic, _, hprefix, findings, grown, filled, justified⟩ := judged
      rw [List.nil_append] at grown
      subst grown filled
      exact ⟨justified, .inr ⟨error, rfl, untyped, semantic, hprefix⟩⟩

/-- Annotations that hold the findings of an analysis that ends well. -/
theorem Program.annotated (coherent : program.Coherent) {findings : List Finding}
    {annotations : Annotations} (held : annotations.Hold findings)
    (filled : findings.filterMap Finding.cell? = program.cells)
    (justified : ∀ finding ∈ findings, ∃ site ∈ program.sites,
      site.place.Declared program ∧ site.Justifies program lookup finding) :
    program.Annotated lookup annotations := by
  have found : ∀ site ∈ program.sites, ∀ cell ∈ site.cells, ∃ finding ∈ findings,
      finding.cell? = some cell ∧ site.place.Declared program ∧
        site.Justifies program lookup finding := by
    intro site listed cell member
    have noted : cell ∈ findings.filterMap Finding.cell? :=
      filled ▸ List.mem_flatMap.2 ⟨site, listed, member⟩
    obtain ⟨finding, hfinding, fills⟩ := List.mem_filterMap.1 noted
    obtain ⟨other, listed', declared, justifies⟩ := justified finding hfinding
    have member' : cell ∈ other.cells := justifies.cell_mem fills
    cases Program.site_unique coherent listed listed' member member'
    exact ⟨finding, hfinding, fills, declared, justifies⟩
  refine ⟨?_, ?_, ?_⟩
  · intro address place declared expr listed
    obtain ⟨finding, hfinding, fills, hplace, justifies⟩ := found _ listed (.type address)
      (by cases expr <;> simp [Site.cells])
    cases finding with
    | type other type position =>
        cases fills
        have noted := (held.type address type).2 ⟨position, hfinding⟩
        cases justifies with
        | type typed =>
            exact ⟨type, noted, fun other => ⟨fun typed' => typed'.unique coherent hplace typed,
              fun same => same ▸ typed⟩⟩
    | link | constructor | scope => cases fills
  · intro address place declared name span listed
    obtain ⟨finding, hfinding, fills, hplace, justifies⟩ := found _ listed (.link address)
      (by simp [Site.cells])
    cases finding with
    | link other id name' position =>
        cases fills
        have noted := (held.link address id).2 ⟨_, position, hfinding⟩
        cases justifies with
        | link refers valid =>
            exact ⟨id, noted, valid, fun other =>
              ⟨fun refers' => refers'.unique coherent hplace refers, fun same => same ▸ refers⟩⟩
    | type | constructor | scope => cases fills
  · intro place id listed
    obtain ⟨finding, hfinding, fills, -, justifies⟩ := found _ listed (.scope id)
      (by simp [Site.cells])
    cases finding with
    | scope other scope name position =>
        cases fills
        cases justifies with
        | scope => exact (held.scope id _).2 ⟨name, position, hfinding⟩
    | type | link | constructor => cases fills

/-- Checking a coherent program succeeds just if it is well typed, and then annotates it. It fails
for no other reason. -/
theorem Program.check_cases (coherent : program.Coherent) (lookup : LocalLookup) :
    (program.WellTyped lookup ∧ ∃ annotations, program.check lookup = (annotations, .ok ()) ∧
        program.Annotated lookup annotations) ∨
      ¬ program.WellTyped lookup ∧ ∃ annotations error,
        program.check lookup = (annotations, .error error) ∧ error.cause.category = .semantic := by
  obtain ⟨justified, outcome⟩ := Analysis.ofProgram_cases coherent lookup
  have enters : ∀ findings, (findings.filterMap Finding.cell?).Nodup →
      ∃ annotations, Annotations.enterAll {} findings = (annotations, .ok ()) ∧
        annotations.Hold findings := fun findings distinct => Annotations.hold_nil.enterAll distinct
  have nodup := (Program.spread coherent).nodup
  unfold check Analysis.enterInto
  rcases outcome with ⟨ends, typed, filled⟩ | ⟨error, ends, untyped, semantic, filled⟩
  · obtain ⟨annotations, entered, held⟩ := enters _ (filled ▸ nodup)
    refine .inl ⟨typed, annotations, by rw [entered, ends], ?_⟩
    exact Program.annotated coherent held filled justified
  · obtain ⟨annotations, entered, -⟩ := enters _ (filled.sublist.nodup nodup)
    exact .inr ⟨untyped, annotations, error, by rw [entered, ends], semantic⟩

end Offside
