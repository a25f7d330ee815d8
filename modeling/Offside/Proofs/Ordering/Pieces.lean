import Offside.Proofs.Ordering.Echoes
import Offside.Proofs.Reading.Entries
import Offside.Proofs.Typing.Sources
import Mathlib.Data.List.Flatten
import Mathlib.Logic.Equiv.Defs

/-! # Checking one thing at a time

What stands at the top level of a program is visited one after the other, and each visit starts
where nothing surrounds it. So a program passes the check if each thing in it passes when it is
checked alone, and what is found out about the program is what is found out about each thing.
-/

namespace Offside

open Rules

variable {σ ρ : Type}

/-- Something that stands at the top level of a program. -/
inductive Piece where
  | decl (decl : Declaration)
  /-- The free statement at an index. -/
  | stmt (index : Nat) (stmt : Stmt)

namespace Piece

/-- Visits something at the top level of a program. -/
def visit (handlers : Handlers σ ρ) (program : Program) : Piece → Visit σ Unit
  | decl declared => traverseDecl handlers program declared
  | stmt index visited => traverseStmt handlers program (.ofRoot (.statement index)) visited

/-- What is found out about one thing at the top level. -/
def analysis (program : Program) (lookup : LocalLookup) (piece : Piece) : Analysis :=
  .ofVisit (piece.visit (rules program lookup) program)

end Piece

namespace Program

variable (program : Program)

/-- What stands at the top level of a program: globals, record types, functions, the entry point and
free statements. -/
def topLevel : List Piece :=
  (program.globals.filterMap program.decl?).map (fun decl => .decl (.var decl)) ++
    program.records.zipIdx.map (fun (record, index) => .decl (.record index record)) ++
    program.functions.zipIdx.map (fun (function, index) =>
      .decl (.function (.function index) function)) ++
    program.main.toList.map (fun function => .decl (.function .main function)) ++
    program.statements.zipIdx.map fun (stmt, index) => .stmt index stmt

/-- Checks one thing at the top level alone, with nothing found out before. -/
def checkPiece (lookup : LocalLookup) (piece : Piece) : Annotations × Except Error Unit :=
  (piece.analysis program lookup).enterInto {}

variable {program}

/-- The things at the top level of a program, one kind after the other. -/
theorem mem_topLevel {piece : Piece} : piece ∈ program.topLevel ↔
    (∃ id ∈ program.globals, ∃ decl, program.decl? id = some decl ∧ piece = .decl (.var decl)) ∨
    (∃ index record, program.records[index]? = some record ∧
      piece = .decl (.record index record)) ∨
    (∃ index function, program.functions[index]? = some function ∧
      piece = .decl (.function (.function index) function)) ∨
    (∃ function, program.main = some function ∧ piece = .decl (.function .main function)) ∨
    ∃ index stmt, program.statements[index]? = some stmt ∧ piece = .stmt index stmt := by
  simp only [topLevel, List.mem_append, List.mem_map, List.mem_filterMap, Prod.exists,
    List.mem_zipIdx_iff_getElem?, Option.mem_toList, or_assoc]
  grind

/-- Global variables are visited by visiting their declarations. -/
theorem forM_globals (handlers : Handlers σ ρ) {ids : List VarId}
    (declared : ∀ id ∈ ids, (program.decl? id).isSome) :
    (ids.forM fun id => do
      traverseDecl handlers program (.var (← Visit.ofExcept (program.decl id)))) =
    (ids.filterMap program.decl?).forM fun decl => traverseDecl handlers program (.var decl) := by
  induction ids with
  | nil => rfl
  | cons id rest ih =>
      rw [List.forall_mem_cons] at declared
      obtain ⟨decl, found⟩ := Option.isSome_iff_exists.1 declared.1
      have first : (do
          traverseDecl handlers program (.var (← Visit.ofExcept (program.decl id)))) =
          traverseDecl handlers program (.var decl) := by
        rw [Program.decl, found]
        rfl
      rw [List.filterMap_cons_some found]
      exact congrArg₂ (fun visit rest => visit >>= fun _ => rest) first (ih declared.2)

/-- A program is visited by visiting what stands at its top level. -/
theorem traverseProgram_eq_forM (handlers : Handlers σ ρ) (declared : program.DeclaresGlobals) :
    traverseProgram handlers program = program.topLevel.forM (Piece.visit handlers program) := by
  unfold traverseProgram topLevel
  rw [forM_globals handlers declared]
  simp only [List.forM_eq_forM, List.forM_append, List.forM_map, bind_assoc]
  rfl

end Program

namespace Rules

/-- The state in which nothing surrounds what is visited, and certain things have been found out. -/
def start (findings : List Finding) : TraversalState TypingState :=
  { inner := { findings := findings.toArray } }

/-- A visit ends in a certain way whatever has been found out before, and if it ends well, it leaves
nothing behind but certain findings. -/
def Yields (outcome : Except Error Unit) (findings : List Finding) (visit : Check Unit) : Prop :=
  ∀ base, (visit.run.run (start base)).1 = outcome ∧
    (outcome = .ok () → (visit.run.run (start base)).2 = start (base ++ findings))

/-- What has been found out before makes no difference to a visit. -/
def Alone (visit : Check Unit) : Prop :=
  Yields (Analysis.ofVisit visit).outcome (Analysis.ofVisit visit).findings visit

variable {program : Program} {lookup : LocalLookup} {visit visit' : Check Unit}

theorem rerooted_id (finding : Finding) : finding.rerooted id = finding := by
  cases finding <;> rfl

theorem echoed_start (base findings : List Finding) (move : Root → Root) :
    (start findings).echoed base.toArray move =
      start (base ++ findings.map (Finding.rerooted move)) := by
  simp [start, TraversalState.echoed, TypingState.echoed]

theorem ofVisit_eq : Analysis.ofVisit visit =
    ⟨(visit.run.run (start [])).2.inner.findings.toList, (visit.run.run (start [])).1⟩ := rfl

theorem Echoes.run_start {move : Root → Root} {base : List Finding}
    (h : Echoes base.toArray move visit visit') : visit'.run.run (start base) =
      ((Analysis.ofVisit visit).outcome,
        (visit.run.run (start [])).2.echoed base.toArray move) := by
  have same := (h (start [])).2
  rwa [echoed_start, List.map_nil, List.append_nil] at same

theorem Yields.ofVisit {outcome : Except Error Unit} {findings : List Finding}
    (yields : Yields outcome findings visit) : (Analysis.ofVisit visit).outcome = outcome ∧
      (outcome = .ok () → (Analysis.ofVisit visit).findings = findings) := by
  refine ⟨(yields []).1, fun ends => ?_⟩
  rw [ofVisit_eq, (yields []).2 ends]
  rfl

/-- What echoes a visit that stands alone finds out the same, about trees that hang elsewhere. -/
theorem Alone.echo {move : Root → Root} (alone : Alone visit)
    (h : ∀ base, Echoes base move visit visit') :
    Yields (Analysis.ofVisit visit).outcome
      ((Analysis.ofVisit visit).findings.map (Finding.rerooted move)) visit' := by
  intro base
  rw [(h base.toArray).run_start]
  refine ⟨rfl, fun ends => ?_⟩
  rw [(alone []).2 ends, echoed_start, List.nil_append]

/-- What is judged where nothing surrounds it stands alone. -/
theorem alone_of_judged {sites : List Site} {cells : List Cell} {holds : Unit → Prop}
    {fails : Prop} (h : ∀ base, Echoes base id visit visit)
    (judged : Judges program lookup {} {} none sites cells holds fails visit) : Alone visit := by
  intro base
  rw [(h base.toArray).run_start]
  refine ⟨rfl, fun ends => ?_⟩
  have around := (h #[] (start [])).1
  replace judged := judged (start []) ⟨by simp [Place.Declared], rfl, rfl, rfl, rfl, rfl⟩
  rw [ofVisit_eq] at ends ⊢
  unfold Action.Ensures at judged
  generalize visit.run.run (start []) = outcome at ends around judged ⊢
  obtain ⟨result, context, environments, pending, findings⟩ := outcome
  cases ends
  obtain ⟨-, final, -⟩ := judged
  have none : environments = [] ∧ pending = none := ⟨final.environments, final.pending⟩
  obtain ⟨rfl, rfl⟩ := none
  cases around
  have same : findings.map (Finding.rerooted id) = findings := by
    rw [funext rerooted_id, Array.map_id']
  simp [start, TraversalState.echoed, TypingState.echoed, same]

theorem Yields.bind {outcome outcome' : Except Error Unit} {findings findings' : List Finding}
    (first : Yields outcome findings visit) (second : Yields outcome' findings' visit') :
    Yields (outcome >>= fun _ => outcome') (findings ++ findings')
      (visit >>= fun _ => visit') := by
  intro base
  obtain ⟨ends, final⟩ := first base
  rw [Action.run_bind]
  generalize visit.run.run (start base) = reached at ends final ⊢
  obtain ⟨result, mid⟩ := reached
  subst ends
  cases result with
  | error error => exact ⟨rfl, fun ends => by cases ends⟩
  | ok =>
      cases final rfl
      rw [← List.append_assoc]
      exact second (base ++ findings)

theorem Yields.alone {outcome : Except Error Unit} {findings : List Finding}
    (yields : Yields outcome findings visit) : Alone visit := by
  obtain ⟨outcomes, found⟩ := yields.ofVisit
  rw [Alone, outcomes]
  refine fun base => ⟨(yields base).1, fun ends => ?_⟩
  rw [(yields base).2 ends, found ends]

/-- Visits that stand alone yield, one after the other, what each of them yields. -/
theorem yields_forM {α : Type} {visit : α → Check Unit} (items : List α)
    (alone : ∀ item ∈ items, Alone (visit item)) :
    Yields (items.forM fun item => (Analysis.ofVisit (visit item)).outcome)
      (items.flatMap fun item => (Analysis.ofVisit (visit item)).findings)
      (items.forM visit) := by
  induction items with
  | nil => exact fun base => ⟨rfl, fun _ => by rw [List.flatMap_nil, List.append_nil]; rfl⟩
  | cons item rest ih =>
      rw [List.forall_mem_cons] at alone
      rw [List.flatMap_cons]
      exact alone.1.bind (ih alone.2)

end Rules

/-- Outcomes, one after the other, are good if each is. -/
theorem forM_outcomes_eq_ok {α : Type} (outcome : α → Except Error Unit) (items : List α) :
    items.forM outcome = .ok () ↔ ∀ item ∈ items, outcome item = .ok () := by
  induction items with
  | nil => exact iff_of_true rfl (by simp)
  | cons item rest ih =>
      rw [List.forall_mem_cons, ← ih]
      change (outcome item >>= fun _ => rest.forM outcome) = _ ↔ _
      cases outcome item with
      | error error => exact ⟨fun ends => (nomatch ends), fun ends => nomatch ends.1⟩
      | ok => exact ⟨fun ends => ⟨rfl, ends⟩, And.right⟩

section Pieces

variable {program other : Program} {lookup : LocalLookup} {base : Array Finding}

/-- New indices for record types, functions and free statements. -/
structure Shuffle where
  records : Equiv.Perm Nat
  functions : Equiv.Perm Nat
  statements : Equiv.Perm Nat

namespace Shuffle

/-- The indices that there are. -/
def still : Shuffle :=
  ⟨.refl Nat, .refl Nat, .refl Nat⟩

/-- The place where a tree hangs, by the new indices. -/
def root (shuffle : Shuffle) : Root → Root
  | .initializer decl => .initializer decl
  | .function index => .function (shuffle.functions index)
  | .main => .main
  | .method record index => .method (shuffle.records record) index
  | .statement index => .statement (shuffle.statements index)

/-- Something at the top level, by the new indices. -/
def piece (shuffle : Shuffle) : Piece → Piece
  | .decl (.record index record) => .decl (.record (shuffle.records index) record)
  | .decl (.function root function) => .decl (.function (shuffle.root root) function)
  | .decl decl => .decl decl
  | .stmt index stmt => .stmt (shuffle.statements index) stmt

variable (shuffle : Shuffle)

@[simp] theorem root_still : still.root = id := by
  funext root
  cases root <;> rfl

@[simp] theorem piece_still (piece : Piece) : still.piece piece = piece := by
  cases piece with
  | decl declared =>
      cases declared <;> simp only [Shuffle.piece, root_still, id]
      rfl
  | stmt => rfl

theorem reroots (decls : other.decls = program.decls) : Reroots shuffle.root program other :=
  ⟨fun _ => rfl, decls⟩

/-- The visit of something at the top level is echoed when the program lists it elsewhere. -/
theorem piece_echoes (decls : other.decls = program.decls) (piece : Piece) :
    Echoes base shuffle.root (piece.visit (rules program lookup) program)
      ((shuffle.piece piece).visit (rules program lookup) other) := by
  have reroots := shuffle.reroots decls
  cases piece with
  | decl declared =>
      cases declared with
      | var decl => exact traverseVarDecl_echoes reroots decl
      | param param => exact traverseParam_echoes reroots param
      | signature signature =>
          exact forM_echoes signature.params fun param => traverseParam_echoes reroots param
      | function root function => exact traverseFunction_echoes reroots root function
      | record index record => exact traverseRecord_echoes reroots (fun _ => rfl) record
  | stmt index stmt => exact traverseStmt_echoes reroots (.ofRoot (.statement index)) stmt

end Shuffle

/-- Nothing that is found out about one thing at the top level makes a difference to another. -/
theorem Piece.alone (coherent : program.Coherent) {piece : Piece}
    (member : piece ∈ program.topLevel) :
    Alone (piece.visit (rules program lookup) program) := by
  have echoes : ∀ base, Echoes base id (piece.visit (rules program lookup) program)
      (piece.visit (rules program lookup) program) := by
    intro base
    have still : Echoes base Shuffle.still.root (piece.visit (rules program lookup) program)
        ((Shuffle.still.piece piece).visit (rules program lookup) program) :=
      Shuffle.still.piece_echoes rfl piece
    rwa [Shuffle.root_still, Shuffle.piece_still] at still
  have valid : ∀ id ∈ program.handles, (program.decl? id).isSome := fun _ =>
    coherent.mem_handles.1
  simp only [Program.handles, Stmt.listHandles_eq_flatMap, List.forall_mem_append,
    List.forall_mem_flatMap] at valid
  have empty : Place.Declared program {} := by simp [Place.Declared]
  rcases Program.mem_topLevel.1 member with ⟨id, listed, decl, found, rfl⟩ |
    ⟨index, record, listed, rfl⟩ | ⟨index, function, listed, rfl⟩ | ⟨function, listed, rfl⟩ |
    ⟨index, stmt, listed, rfl⟩
  · have handle : traverseHandle (rules program lookup) program id =
        traverseVarDecl (rules program lookup) decl := by
      simp only [traverseHandle, Program.decl, found, Visit.ofExcept, pure_bind]
    exact alone_of_judged echoes <| handle ▸
      handle_judged coherent empty (valid.1.1.1.1 id listed) (.nowhere rfl) fun _ _ => rfl
  · have listed := List.mem_of_getElem? listed
    exact alone_of_judged echoes <|
      record_judged coherent index record listed (valid.1.1.1.2 record listed)
  · have listed := List.mem_of_getElem? listed
    exact alone_of_judged echoes <|
      function_judged coherent empty (.function index) function (valid.1.1.2 function listed)
  · exact alone_of_judged echoes <|
      function_judged coherent empty .main function (valid.1.2 function (by simpa using listed))
  · have listed := List.mem_of_getElem? listed
    exact alone_of_judged echoes <|
      stmt.judged coherent empty (by simp [Place.scope]) (.ofRoot (.statement index))
        (valid.2 stmt listed) (.nowhere rfl)

theorem Program.Coherent.declaresGlobals (coherent : program.Coherent) :
    program.DeclaresGlobals := by
  refine fun id listed => coherent.mem_handles.1 ?_
  simp only [Program.handles, List.append_assoc]
  exact List.mem_append_left _ listed

/-- If things at the top level stand alone, the analysis of a program is that of each of them. -/
theorem Program.ofProgram_pieces (declared : program.DeclaresGlobals)
    (alone : ∀ piece ∈ program.topLevel, Alone (piece.visit (rules program lookup) program)) :
    ((Analysis.ofProgram program lookup).outcome = .ok () ↔
      ∀ piece ∈ program.topLevel, (piece.analysis program lookup).outcome = .ok ()) ∧
    ((Analysis.ofProgram program lookup).outcome = .ok () →
      (Analysis.ofProgram program lookup).findings =
        program.topLevel.flatMap fun piece => (piece.analysis program lookup).findings) := by
  obtain ⟨outcome, findings⟩ := (yields_forM program.topLevel alone).ofVisit
  rw [← traverseProgram_eq_forM _ declared] at outcome findings
  rw [Analysis.ofProgram, outcome]
  exact ⟨forM_outcomes_eq_ok _ _, findings⟩

/-- What is found out about a program fills in distinct cells. -/
theorem Program.ofProgram_nodup (coherent : program.Coherent) (lookup : LocalLookup) :
    ((Analysis.ofProgram program lookup).findings.filterMap Finding.cell?).Nodup := by
  have nodup := (Program.spread coherent).nodup
  rcases (Analysis.ofProgram_cases coherent lookup).2 with ⟨-, -, filled⟩ | ⟨-, -, -, -, filled⟩
  · exact filled ▸ nodup
  · exact filled.sublist.nodup nodup

/-- What fills in distinct cells is entered, and nothing but the analysis decides the outcome. -/
theorem enterInto_of_nodup {analysis : Analysis}
    (distinct : (analysis.findings.filterMap Finding.cell?).Nodup) :
    (analysis.enterInto {}).2 = analysis.outcome ∧
      (analysis.enterInto {}).1.Hold analysis.findings := by
  obtain ⟨annotations, entered, held⟩ := Annotations.hold_nil.enterAll distinct
  rw [Analysis.enterInto, entered]
  exact ⟨rfl, held⟩

theorem outcome_of_enterInto {analysis : Analysis} (entered : (analysis.enterInto {}).2 = .ok ()) :
    analysis.outcome = .ok () := by
  unfold Analysis.enterInto at entered
  split at entered
  · exact entered
  · cases entered

/-- A program passes the check if each thing at its top level passes when it is checked alone. -/
theorem Program.check_eq_ok_iff_pieces (coherent : program.Coherent) :
    (program.check lookup).2 = .ok () ↔
      ∀ piece ∈ program.topLevel, (program.checkPiece lookup piece).2 = .ok () := by
  have nodup := Program.ofProgram_nodup coherent lookup
  have alone : ∀ piece ∈ program.topLevel, Alone (piece.visit (rules program lookup) program) :=
    fun _ member => Piece.alone coherent member
  obtain ⟨outcome, findings⟩ := Program.ofProgram_pieces coherent.declaresGlobals alone
  rw [Program.check, (enterInto_of_nodup nodup).1]
  constructor
  · intro ends piece member
    have part : (piece.analysis program lookup).findings.Sublist
        (Analysis.ofProgram program lookup).findings := by
      rw [findings ends]
      simpa using (List.singleton_sublist.2 member).flatMap fun piece =>
        (piece.analysis program lookup).findings
    rw [Program.checkPiece, (enterInto_of_nodup ((part.filterMap _).nodup nodup)).1]
    exact outcome.1 ends piece member
  · exact fun passes => outcome.2 fun piece member => outcome_of_enterInto (passes piece member)

end Pieces

end Offside
