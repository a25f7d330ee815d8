import Offside.Proofs.Reading.Programs
import Offside.Proofs.Typing.Checker

/-! # The check of a source text

Whatever can be read is coherent, so what is known of the check of coherent programs holds of all
programs that source texts spell.
-/

namespace Offside

variable {source file : String} {lookup : LocalLookup} {program : Program}
  {annotations : Annotations}

theorem Program.coherent_of_ofSource (h : Program.ofSource source file = .ok program) :
    program.Coherent := by
  obtain ⟨count, sound⟩ := sound_of_ofSource h
  exact sound.coherent

/-- A source text that spells a program is checked by checking the program. -/
theorem Program.checkSource_of_ofSource (h : Program.ofSource source file = .ok program) :
    Program.checkSource source file lookup =
      (program.check lookup).2.map fun _ => (program, (program.check lookup).1) := by
  rw [checkSource, h]
  simp only [bind, Except.bind]
  obtain ⟨found, result⟩ := program.check lookup
  cases result <;> rfl

theorem Program.of_checkSource
    (h : Program.checkSource source file lookup = .ok (program, annotations)) :
    Program.ofSource source file = .ok program ∧
      program.check lookup = (annotations, .ok ()) := by
  cases read : Program.ofSource source file with
  | error error =>
      rw [checkSource, read] at h
      cases h
  | ok other =>
      rw [Program.checkSource_of_ofSource read] at h
      rcases checked : other.check lookup with ⟨found, error | ⟨⟩⟩
      · rw [checked] at h
        cases h
      · rw [checked] at h
        cases h
        exact ⟨rfl, checked⟩

/-- What passes the check is annotated by it. -/
theorem Program.annotated_of_checkSource
    (h : Program.checkSource source file lookup = .ok (program, annotations)) :
    program.Annotated lookup annotations := by
  obtain ⟨read, checked⟩ := Program.of_checkSource h
  rcases Program.check_cases (Program.coherent_of_ofSource read) lookup with
    ⟨-, found, same, annotated⟩ | ⟨-, found, error, same, -⟩
  · rw [checked] at same
    cases same
    exact annotated
  · rw [checked] at same
    cases same

/-- Every declaration of a coherent program has a site. -/
theorem Program.Coherent.decl_site (coherent : program.Coherent) {id : VarId}
    (valid : (program.decl? id).isSome) : ∃ place, .decl place id ∈ program.sites := by
  exact Site.exists_decl_of_scope_mem
    ((Program.spread coherent).scopes id (coherent.mem_handles.2 valid))

/-- A program that has been read passes the check just if it is well typed, and then every
expression in it has been given the one type that it has. -/
theorem Program.check_eq_ok_iff_wellTyped (lookup : LocalLookup)
    (h : Program.ofSource source file = .ok program) :
    ((program.check lookup).2 = .ok () ↔ program.WellTyped lookup) ∧
      ((program.check lookup).2 = .ok () →
        ∀ address place declared expr, .expr address place declared expr ∈ program.sites →
          ∃ type, (program.check lookup).1.type? address = some type ∧
            ∀ other, HasType program lookup place declared expr other ↔ other = type) := by
  rcases Program.check_cases (Program.coherent_of_ofSource h) lookup with
    ⟨typed, found, same, annotated⟩ | ⟨untyped, found, error, same, -⟩
  · rw [same]
    exact ⟨⟨fun _ => typed, fun _ => rfl⟩, fun _ => annotated.type⟩
  · rw [same]
    refine ⟨⟨fun ok => ?_, fun typed => absurd typed untyped⟩, fun ok => ?_⟩ <;> cases ok

/-- A program with a global variable that a function reads is well typed. -/
theorem Program.wellTyped_of_global_read : ∃ program,
    Program.ofSource "base: int = 3\ndef more(by: int): int\n    return base + by\n" "sum" =
      .ok program ∧ program.WellTyped .innermost := by
  have passes : (Program.checkSource
      "base: int = 3\ndef more(by: int): int\n    return base + by\n" "sum").isOk = true := by
    decide +kernel
  obtain ⟨⟨program, annotations⟩, checked⟩ := exists_ok_of_isOk passes
  obtain ⟨read, ok⟩ := Program.of_checkSource checked
  refine ⟨program, read, ((Program.check_eq_ok_iff_wellTyped .innermost read).1).1 ?_⟩
  rw [ok]

/-- In a program that has passed the check, every reference is linked to the one declaration that
its name refers to where it stands. -/
theorem Program.link?_eq_some_iff_refersTo
    (h : Program.checkSource source file lookup = .ok (program, annotations)) :
    ∀ address place declared name span,
      .expr address place declared (.reference name span) ∈ program.sites →
        ∃ id, annotations.link? address = some id ∧ (program.decl? id).isSome ∧
          ∀ other, place.RefersTo program name lookup other ↔ other = id :=
  (Program.annotated_of_checkSource h).link

/-- Where the last declaration in the body counts, a reference may stand before what it refers to.
-/
theorem Program.link?_of_later_declaration : ∃ program annotations,
    Program.checkSource
      "n: int = 1\ndef late(): int\n    m: int = n\n    n: int = 2\n    return m\n" "late"
      .lastInBody = .ok (program, annotations) ∧
    ∀ address place declared name span,
      .expr address place declared (.reference name span) ∈ program.sites →
        ∃ id, annotations.link? address = some id ∧ (program.decl? id).isSome ∧
          ∀ other, place.RefersTo program name .lastInBody other ↔ other = id := by
  have passes : (Program.checkSource
      "n: int = 1\ndef late(): int\n    m: int = n\n    n: int = 2\n    return m\n" "late"
      .lastInBody).isOk = true := by
    decide +kernel
  obtain ⟨⟨program, annotations⟩, checked⟩ := exists_ok_of_isOk passes
  exact ⟨program, annotations, checked, Program.link?_eq_some_iff_refersTo checked⟩

/-- No source text brings about an internal error. Checking what has been read fails for a semantic
reason only, and if it does not fail, nothing has been left out. -/
theorem Program.checkSource_complete (source file : String) (lookup : LocalLookup) :
    (∀ error, Program.checkSource source file lookup = .error error →
      error.cause.category ≠ .internal) ∧
    (∀ program error, Program.ofSource source file = .ok program →
      (program.check lookup).2 = .error error → error.cause.category = .semantic) ∧
    ∀ program annotations, Program.checkSource source file lookup = .ok (program, annotations) →
      (∀ address place declared expr, .expr address place declared expr ∈ program.sites →
        (annotations.type? address).isSome) ∧
      (∀ address place declared name span,
        .expr address place declared (.reference name span) ∈ program.sites →
          ∃ id, annotations.link? address = some id ∧ (program.decl? id).isSome) ∧
      ∀ id, (program.decl? id).isSome → (annotations.scope? id).isSome := by
  have semantic : ∀ program error, Program.ofSource source file = .ok program →
      (program.check lookup).2 = .error error → error.cause.category = .semantic := by
    intro program error read failed
    rcases Program.check_cases (Program.coherent_of_ofSource read) lookup with
      ⟨-, found, same, -⟩ | ⟨-, found, other, same, category⟩
    · rw [same] at failed
      cases failed
    · rw [same] at failed
      cases failed
      exact category
  refine ⟨fun error failed => ?_, semantic, fun program annotations h => ?_⟩
  · have outcome := ofSource_outcome source file
    cases read : Program.ofSource source file with
    | error other =>
        rw [read] at outcome
        rw [checkSource, read] at failed
        cases failed
        exact outcome
    | ok program =>
        rw [Program.checkSource_of_ofSource read] at failed
        have failed : (program.check lookup).2 = .error error := by
          cases checked : (program.check lookup).2 with
          | error other =>
              rw [checked] at failed
              cases failed
              rfl
          | ok =>
              rw [checked] at failed
              cases failed
        rw [semantic program error read failed]
        simp
  · have annotated := Program.annotated_of_checkSource h
    have coherent := Program.coherent_of_ofSource (Program.of_checkSource h).1
    refine ⟨fun address place declared expr listed => ?_,
      fun address place declared name span listed => ?_, fun id valid => ?_⟩
    · obtain ⟨type, found, -⟩ := annotated.type address place declared expr listed
      simp [found]
    · obtain ⟨id, found, valid, -⟩ := annotated.link address place declared name span listed
      exact ⟨id, found, valid⟩
    · obtain ⟨place, listed⟩ := coherent.decl_site valid
      simp [annotated.scope place id listed]

end Offside
