import Offside.Proofs.Ordering.Lookups

/-! # The check of a reordered program

A program that lists its things in another order is found out the same about, thing by thing, and
passes the check just if the program does.
-/

namespace Offside

open Rules

theorem Shuffle.root_injective (shuffle : Shuffle) : Function.Injective shuffle.root := by
  intro a b same
  cases a <;> cases b <;> simp_all [Shuffle.root]

section Rerooted

variable {move : Root → Root} (injective : Function.Injective move)

include injective

theorem Address.rerooted_injective : Function.Injective (Address.rerooted move) := by
  intro a b same
  have roots := congrArg Address.root same
  have steps := congrArg Address.steps same
  exact Address.ext_steps (injective roots) steps

theorem Finding.rerooted_injective : Function.Injective (Finding.rerooted move) := by
  have addresses := Address.rerooted_injective injective
  intro a b same
  cases a <;> cases b <;> simp_all [Finding.rerooted, addresses.eq_iff]

end Rerooted

/-- The cell about a node whose tree hangs elsewhere. -/
def Cell.rerooted (move : Root → Root) : Cell → Cell
  | .type address => .type (address.rerooted move)
  | .link address => .link (address.rerooted move)
  | .scope decl => .scope decl

theorem Cell.rerooted_injective {move : Root → Root} (injective : Function.Injective move) :
    Function.Injective (Cell.rerooted move) := by
  have addresses := Address.rerooted_injective injective
  intro a b same
  cases a <;> cases b <;> simp_all [Cell.rerooted, addresses.eq_iff]

theorem Finding.cell?_rerooted (move : Root → Root) (finding : Finding) :
    (finding.rerooted move).cell? = finding.cell?.map (Cell.rerooted move) := by
  cases finding <;> rfl

theorem filterMap_cell?_rerooted (move : Root → Root) (findings : List Finding) :
    (findings.map (Finding.rerooted move)).filterMap Finding.cell? =
      (findings.filterMap Finding.cell?).map (Cell.rerooted move) := by
  rw [List.filterMap_map, List.map_filterMap]
  exact congrArg (List.filterMap · findings) (funext (Finding.cell?_rerooted move))

/-- Annotations say of trees what others say of the same trees elsewhere. -/
structure Annotations.Mirrors (move : Root → Root) (annotations others : Annotations) : Prop where
  type : ∀ address, others.type? (address.rerooted move) = annotations.type? address
  link : ∀ address, others.link? (address.rerooted move) = annotations.link? address
  constructor : ∀ address,
    others.isConstructor (address.rerooted move) = annotations.isConstructor address
  scope : ∀ id, others.scope? id = annotations.scope? id

/-- Annotations that hold the same findings about trees that hang elsewhere. -/
theorem Annotations.Hold.mirrors {move : Root → Root} (injective : Function.Injective move)
    {annotations others : Annotations} {findings found : List Finding}
    (held : annotations.Hold findings) (held' : others.Hold found)
    (perm : (findings.map (Finding.rerooted move)).Perm found) :
    annotations.Mirrors move others := by
  have listed : ∀ finding : Finding, finding.rerooted move ∈ found ↔ finding ∈ findings := by
    intro finding
    rw [← perm.mem_iff]
    exact List.mem_map_of_injective (Finding.rerooted_injective injective)
  refine ⟨fun address => ?_, fun address => ?_, fun address => ?_, fun id => ?_⟩
  · refine Option.ext fun type => ?_
    rw [held.type, held'.type]
    exact exists_congr fun position => listed (.type address type position)
  · refine Option.ext fun id => ?_
    rw [held.link, held'.link]
    exact exists_congr fun name => exists_congr fun position =>
      listed (.link address id name position)
  · rw [Bool.eq_iff_iff, held.constructor, held'.constructor]
    exact listed (.constructor address)
  · refine Option.ext fun scope => ?_
    rw [held.scope, held'.scope]
    exact exists_congr fun name => exists_congr fun position =>
      listed (.scope id scope name position)

variable {program other : Program} {lookup : LocalLookup}

namespace Reordering

variable (reordering : Reordering program other)

/-- The same things stand at the top level, by their new indices. -/
theorem topLevel_perm : (program.topLevel.map reordering.piece).Perm other.topLevel := by
  have globals := ((reordering.globals_perm.filterMap program.decl?).map fun decl =>
    Piece.decl (.var decl))
  have records := (zipIdx_perm reordering.records reordering.record_at).map
    fun pair => Piece.decl (.record pair.2 pair.1)
  have functions := (zipIdx_perm reordering.functions reordering.function_at).map
    fun pair => Piece.decl (.function (.function pair.2) pair.1)
  have statements := (zipIdx_perm reordering.statements reordering.statement_at).map
    fun pair => Piece.stmt pair.2 pair.1
  unfold Program.topLevel
  rw [reordering.decl?_eq, reordering.main_eq]
  simp only [List.map_append, List.map_map] at records functions statements ⊢
  exact (((globals.append records).append functions).append (.refl _)).append statements

/-- What stands at the top level yields the same in both programs. -/
theorem yields (coherent : program.Coherent) (distinct : program.Distinct) {piece : Piece}
    (member : piece ∈ program.topLevel) :
    Yields (piece.analysis program lookup).outcome
      ((piece.analysis program lookup).findings.map (Finding.rerooted reordering.root))
      ((reordering.piece piece).visit (rules other lookup) other) := by
  rw [(Program.answers_of_reordering distinct reordering).rules]
  exact (Piece.alone coherent member).echo fun base =>
    reordering.piece_echoes reordering.decls_eq piece

include reordering in
theorem declaresGlobals (coherent : program.Coherent) : other.DeclaresGlobals := by
  intro id listed
  rw [reordering.decl?_eq]
  exact coherent.declaresGlobals id (reordering.globals_perm.mem_iff.2 listed)

/-- The analysis of the other program ends well just if that of the program does, and then finds out
the same. -/
theorem ofProgram (lookup : LocalLookup) (coherent : program.Coherent)
    (distinct : program.Distinct) :
    ((Analysis.ofProgram other lookup).outcome = .ok () ↔
      (Analysis.ofProgram program lookup).outcome = .ok ()) ∧
    ((Analysis.ofProgram program lookup).outcome = .ok () →
      ((Analysis.ofProgram program lookup).findings.map
        (Finding.rerooted reordering.root)).Perm (Analysis.ofProgram other lookup).findings) := by
  have alone : ∀ piece ∈ program.topLevel, Alone (piece.visit (rules program lookup) program) :=
    fun _ member => Piece.alone coherent member
  have yields : ∀ piece ∈ program.topLevel, Yields _ _
      ((reordering.piece piece).visit (rules other lookup) other) :=
    fun _ member => reordering.yields coherent distinct member
  have moved : ∀ {condition : Piece → Prop}, (∀ piece ∈ other.topLevel, condition piece) ↔
      ∀ piece ∈ program.topLevel, condition (reordering.piece piece) := by
    intro condition
    simp only [← reordering.topLevel_perm.mem_iff, List.forall_mem_map]
  obtain ⟨outcome, findings⟩ := Program.ofProgram_pieces coherent.declaresGlobals alone
  obtain ⟨outcome', findings'⟩ := Program.ofProgram_pieces (reordering.declaresGlobals coherent)
    (moved.2 fun piece member => (yields piece member).alone)
  have same : (Analysis.ofProgram other lookup).outcome = .ok () ↔
      (Analysis.ofProgram program lookup).outcome = .ok () := by
    rw [outcome, outcome', moved]
    exact forall₂_congr fun piece member => by rw [← (yields piece member).ofVisit.1]; rfl
  refine ⟨same, fun ends => ?_⟩
  rw [findings ends, findings' (same.2 ends), List.map_flatMap]
  have parts : ∀ piece ∈ program.topLevel,
      (piece.analysis program lookup).findings.map (Finding.rerooted reordering.root) =
        ((reordering.piece piece).analysis other lookup).findings := fun piece member =>
    ((yields piece member).ofVisit.2 (outcome.1 ends piece member)).symm
  have perm := reordering.topLevel_perm.flatMap_right fun piece =>
    (piece.analysis other lookup).findings
  rw [List.flatMap_map] at perm
  rw [List.flatMap_congr parts]
  exact perm

/-- The other program passes the check just if the program does, and is then annotated the same. -/
theorem check (lookup : LocalLookup) (coherent : program.Coherent) (distinct : program.Distinct) :
    ((other.check lookup).2 = .ok () ↔ (program.check lookup).2 = .ok ()) ∧
      ((program.check lookup).2 = .ok () →
        (program.check lookup).1.Mirrors reordering.root (other.check lookup).1) := by
  have nodup := Program.ofProgram_nodup coherent lookup
  obtain ⟨outcome, findings⟩ := reordering.ofProgram lookup coherent distinct
  obtain ⟨checked, held⟩ := enterInto_of_nodup nodup
  have nodup' : (Analysis.ofProgram program lookup).outcome = .ok () →
      ((Analysis.ofProgram other lookup).findings.filterMap Finding.cell?).Nodup := by
    intro ends
    refine ((findings ends).filterMap Finding.cell?).nodup_iff.1 ?_
    rw [filterMap_cell?_rerooted]
    exact nodup.map (Cell.rerooted_injective reordering.root_injective)
  have passes : (program.check lookup).2 = (Analysis.ofProgram program lookup).outcome := checked
  rw [passes]
  refine ⟨⟨fun entered => outcome.1 (outcome_of_enterInto entered), fun ends => ?_⟩,
    fun ends => ?_⟩
  · exact (enterInto_of_nodup (nodup' ends)).1.trans (outcome.2 ends)
  · exact held.mirrors reordering.root_injective (enterInto_of_nodup (nodup' ends)).2
      (findings ends)

end Reordering

theorem Program.distinct_of_ofSource {source file : String}
    (read : Program.ofSource source file = .ok program) : program.Distinct := by
  obtain ⟨count, sound⟩ := sound_of_ofSource read
  exact sound.distinct

/-- A program that has been read passes the check just if each thing at its top level passes when it
is checked alone. In whatever order it lists them, it passes just the same, and whatever is then
found out about a node or a declaration is the same. -/
theorem Program.check_piecewise {source file : String} (lookup : LocalLookup)
    (read : Program.ofSource source file = .ok program) :
    ((program.check lookup).2 = .ok () ↔
      ∀ piece ∈ program.topLevel, (program.checkPiece lookup piece).2 = .ok ()) ∧
    ∀ other, program.Relists other →
      ((other.check lookup).2 = .ok () ↔ (program.check lookup).2 = .ok ()) ∧
      Nonempty (Reordering program other) ∧
      ((program.check lookup).2 = .ok () → ∀ reordering : Reordering program other,
        (program.check lookup).1.Mirrors reordering.root (other.check lookup).1) := by
  have coherent := Program.coherent_of_ofSource read
  refine ⟨Program.check_eq_ok_iff_pieces coherent, fun other relists => ?_⟩
  have checks : ∀ reordering : Reordering program other, _ := fun reordering =>
    reordering.check lookup coherent (Program.distinct_of_ofSource read)
  obtain ⟨some⟩ := Reordering.nonempty relists
  exact ⟨(checks some).1, ⟨some⟩, fun passes reordering => (checks reordering).2 passes⟩

/-- Two functions call each other, and a global variable is read before it is listed. -/
theorem Program.check_piecewise_mutual : ∃ program,
    Program.ofSource
      ("total: int = step\nstep: int = 2\ndef up(): int\n    return down() + step\n" ++
        "def down(): int\n    return up()\n") "mutual" = .ok program ∧
    (program.check .innermost).2 = .ok () ∧
    ((program.check .innermost).2 = .ok () ↔
      ∀ piece ∈ program.topLevel, (program.checkPiece .innermost piece).2 = .ok ()) ∧
    ∀ other, program.Relists other →
      ((other.check .innermost).2 = .ok () ↔ (program.check .innermost).2 = .ok ()) ∧
      Nonempty (Reordering program other) ∧
      ((program.check .innermost).2 = .ok () → ∀ reordering : Reordering program other,
        (program.check .innermost).1.Mirrors reordering.root (other.check .innermost).1) := by
  have passes : (Program.checkSource
      ("total: int = step\nstep: int = 2\ndef up(): int\n    return down() + step\n" ++
        "def down(): int\n    return up()\n") "mutual").isOk = true := by
    decide +kernel
  obtain ⟨⟨program, annotations⟩, checked⟩ := exists_ok_of_isOk passes
  obtain ⟨read, ends⟩ := Program.of_checkSource checked
  exact ⟨program, read, by rw [ends], Program.check_piecewise .innermost read⟩

end Offside
