import Offside.Grammar.Blocks
import Offside.Proofs.Handles
import Offside.Proofs.Reading.Expressions

/-! # Statements are read safely

A statement holds the handles of exactly those declarations that reading it has added to the
program, each in one place. Blocks nest no deeper than there are tokens, as each is read behind the
word of its statement.
-/

namespace Offside

open Parse ParseState

variable {good : TokenKind → String → Prop}

/-- Between two states, declarations with certain handles and things with certain numbers have been
added, and nothing else. -/
structure Adds (good : TokenKind → String → Prop) (state : ParseState) (handles : List VarId)
    (numbers : List Nat) (after : ParseState) : Prop where
  program : ∃ new : List VarDecl,
    after.program = { state.program with decls := state.program.decls ++ new.toArray } ∧
    new.map VarDecl.id = (List.range' state.program.decls.size new.length).map VarId.mk ∧
    handles.Perm (new.map VarDecl.id) ∧ ∀ decl ∈ new, decl.Spelled good
  taken : numbers.Perm (List.range' state.nextId numbers.length)
  nextId : after.nextId = state.nextId + numbers.length

namespace Adds

variable {state mid after : ParseState} {handles handles' : List VarId}
  {numbers numbers' : List Nat}

theorem nothing (program : after.program = state.program) (nextId : after.nextId = state.nextId) :
    Adds good state [] [] after :=
  ⟨⟨[], by simp [program], by simp, by simp, by simp⟩, by simp, nextId⟩

theorem of_passes (h : state.Passes after) : Adds good state [] [] after :=
  nothing h.program h.nextId

theorem trans (h : Adds good state handles numbers mid)
    (h' : Adds good mid handles' numbers' after) :
    Adds good state (handles ++ handles') (numbers ++ numbers') after := by
  obtain ⟨⟨new, grown, ids, held, spelled⟩, taken, next⟩ := h
  obtain ⟨⟨new', grown', ids', held', spelled'⟩, taken', next'⟩ := h'
  refine ⟨⟨new ++ new', ?_, ?_, ?_, ?_⟩, ?_, ?_⟩
  · rw [grown', grown]
    simp
  · rw [List.map_append, ids, ids', grown, List.length_append, ← List.map_append,
      ← List.range'_append]
    simp
  · rw [List.map_append]
    exact held.append held'
  · exact fun decl member => (List.mem_append.1 member).elim (spelled decl) (spelled' decl)
  · rw [List.length_append, ← List.range'_append_1, ← next]
    exact taken.append taken'
  · rw [next', next, List.length_append, Nat.add_assoc]

theorem perm (h : Adds good state handles numbers after) (same : handles.Perm handles')
    (same' : numbers.Perm numbers') : Adds good state handles' numbers' after := by
  obtain ⟨⟨new, grown, ids, held, spelled⟩, taken, next⟩ := h
  refine ⟨⟨new, grown, ids, same.symm.trans held, spelled⟩, ?_, same'.length_eq ▸ next⟩
  rw [← same'.length_eq]
  exact same'.symm.trans taken

/-- The numbers that are handed out lie between the next ones before and after. -/
theorem first_le {number : Nat} (h : Adds good state handles numbers after)
    (listed : number ∈ numbers) : state.nextId ≤ number := by
  have taken := h.taken.mem_iff.1 listed
  rw [List.mem_range'_1] at taken
  exact taken.1

theorem lt_nextId {number : Nat} (h : Adds good state handles numbers after)
    (listed : number ∈ numbers) : number < after.nextId := by
  have taken := h.taken.mem_iff.1 listed
  rw [List.mem_range'_1] at taken
  rw [h.nextId]
  exact taken.2

/-- What only goes forward adds nothing in front or behind. -/
theorem after_passes (h : state.Passes mid) (h' : Adds good mid handles numbers after) :
    Adds good state handles numbers after := (of_passes h).trans h'

theorem before_passes (h : Adds good state handles numbers mid) (h' : mid.Passes after) :
    Adds good state handles numbers after := by
  simpa using h.trans (of_passes h')

/-- Leaving a block adds nothing. -/
theorem shallower (h : Adds good state handles numbers after) :
    Adds good state handles numbers after.shallower := by
  have leaving : Adds good after [] [] after.shallower := .nothing rfl rfl
  simpa using h.trans leaving

theorem size (h : Adds good state handles numbers after) :
    after.program.decls.size = state.program.decls.size + handles.length := by
  obtain ⟨⟨new, grown, -, held, -⟩, -, -⟩ := h
  rw [grown, held.length_eq]
  simp

end Adds

section Types

variable {state : ParseState}

theorem countOf_safe {repeated : TokenKind} (token : repeated ≠ .eof) :
    Safe good Passes (countOf repeated) state fun _ _ => True := by
  refine (collect_safe (fun _ _ => True) (fun _ inner _ _ => .kind_bind ?_) trivial).bind
    fun _ _ _ _ => .pure trivial
  split
  · next found =>
    exact take_safe.bind fun _ after _ ⟨_, taken⟩ => .pure ⟨(taken (found ▸ token)).2, trivial⟩
  · exact .pure trivial

theorem typeName_safe :
    Safe good Passes typeName state fun type after => after.rest.length < state.rest.length ∧
      ∃ word name, (word = .identifier ∨ word = .nullWord) ∧ good word name ∧
        type = .ofName name := by
  have takes : state.kind = .identifier ∨ state.kind = .nullWord →
      Safe good Passes (do return DataType.ofName (← take).value) state
        fun type after => after.rest.length < state.rest.length ∧
          ∃ word name, (word = .identifier ∨ word = .nullWord) ∧ good word name ∧
            type = .ofName name := by
    intro either
    refine take_safe.bind fun token after _ ⟨same, taken⟩ => ?_
    obtain ⟨spelled, shorter⟩ := taken (by rcases either with found | found <;> simp [found])
    exact .pure ⟨shorter, token.kind, token.value, by rwa [same], spelled, rfl⟩
  refine .kind_bind ?_
  split
  · next found => exact takes (.inl found)
  · next found => exact takes (.inr found)
  · exact .failHere fun _ => by simp [ErrorCause.category]

/-- A type is read by going forward over at least one token. -/
theorem typeSpec_safe :
    Safe good Passes typeSpec state fun type after =>
      after.rest.length < state.rest.length ∧ type.Spelled good := by
  refine .get_bind ((countOf_safe (by simp)).bind fun opened mid passes _ => ?_)
  have within := passes.rest.length_le
  refine typeName_safe.bind fun element behind _ ⟨shorter, word, name, either, spelled, same⟩ => ?_
  refine (countOf_safe (by simp)).bind fun closed after passes _ => ?_
  have within' := passes.rest.length_le
  split
  · exact .pure ⟨by omega, word, name, opened, either, spelled, by rw [same]⟩
  · exact .get_bind (.fail (by simp [ErrorCause.category]))

end Types

section Declarations

variable {state : ParseState}

/-- Adding a declaration that can be read. -/
theorem declareVar_safe {name : String} {type : DataType} {init : Option Expr} {span : Span}
    (spelled : ∀ id, VarDecl.Spelled good ⟨id, name, type, init, span⟩) :
    Safe good Leads (declareVar name type init span) state fun id after =>
      Adds good state [id] [] after ∧ after.rest = state.rest ∧
        after.program.decl? id = some ⟨id, name, type, init, span⟩ := by
  intro ready
  refine ⟨⟨List.suffix_rfl, rfl, rfl, rfl, ?_, Nat.le_refl _⟩, ⟨⟨[⟨state.program.nextDecl, name,
    type, init, span⟩], ?_, ?_, ?_, ?_⟩, ?_, rfl⟩, rfl, ?_⟩
  · simp [Program.insertDecl]
  · simp [Program.insertDecl]
  · simp [Program.nextDecl]
  · simp
  · simp [spelled]
  · simp
  · simp [Program.insertDecl, Program.nextDecl, Program.decl?]

/-- A declaration is read and added. -/
theorem varDecl_safe :
    Safe good Leads varDecl state fun id after =>
      after.rest.length < state.rest.length ∧ Adds good state [id] [] after ∧
        (after.program.decl? id).isSome := by
  refine expectName_safe.lift.bind fun name named _ ⟨passes, spelled, shorter⟩ => ?_
  refine (expect_safe (by simp)).lift.discard.bind fun _ behind _ ⟨_, passes', _, _, shorter'⟩ => ?_
  refine typeSpec_safe.lift.bind fun type typed _ ⟨passes'', shorter'', spelled'⟩ => ?_
  have before := (passes.trans passes').trans passes''
  refine .kind_bind ?_
  extract_lets finish
  have finishes : ∀ init last, typed.Passes last → (∀ value, init = some value →
      value.Spelled good) → Safe good Leads (finish init) last fun id after =>
        after.rest.length < state.rest.length ∧ Adds good state [id] [] after ∧
          (after.program.decl? id).isSome := by
    intro init last passes inits
    have within := passes.rest.length_le
    refine .spanSince_bind fun span => (declareVar_safe fun id =>
      ⟨spelled, spelled', inits⟩).mono fun id after _ ⟨adds, same, found⟩ => ?_
    exact ⟨by rw [same]; omega, adds.after_passes (before.trans passes), by simp [found]⟩
  split
  · refine take_safe.lift.discard.bind fun _ assigned _ ⟨_, passes, _⟩ => ?_
    refine expr_safe.lift.bind fun value last _ ⟨passes', _, spelled⟩ => ?_
    exact finishes (some value) last (passes.trans passes') (by simpa using spelled)
  · exact finishes none typed (.refl typed) (by simp)

end Declarations

/-- A statement is read from one state up to another. -/
structure Stmt.ReadFrom (good : TokenKind → String → Prop) (state : ParseState) (stmt : Stmt)
    (after : ParseState) : Prop where
  shorter : after.rest.length < state.rest.length
  spelled : stmt.Spelled good
  adds : Adds good state stmt.handles [] after
  declared : state.startsDeclaration = false → stmt.declared? = none

/-- A block is read from one state up to another. -/
structure Block.ReadFrom (good : TokenKind → String → Prop) (state : ParseState) (block : Block)
    (after : ParseState) : Prop where
  shorter : after.rest.length < state.rest.length
  spelled : block.Spelled good
  adds : Adds good state block.handles [] after

/-- A reader of blocks is safe wherever fewer tokens than a bound are left. -/
def BlocksBelow (good : TokenKind → String → Prop) (bound : Nat) (reader : ParseM Block) : Prop :=
  ∀ state, state.rest.length < bound →
    Safe good Leads reader state (Block.ReadFrom good state)

theorem BlocksBelow.mono {bound least : Nat} {reader : ParseM Block}
    (h : BlocksBelow good bound reader) (le : least ≤ bound) : BlocksBelow good least reader :=
  fun state below => h state (Nat.lt_of_lt_of_le below le)

section Statements

variable {state : ParseState} {block : ParseM Block}

/-- A block has at least one line, which takes up at least one token. -/
theorem blockWith_safe {line : ParseM Stmt}
    (hline : ∀ inner, inner.rest.length ≤ state.rest.length →
      Safe good Leads line inner (Stmt.ReadFrom good inner)) :
    Safe good Leads (blockWith line) state (Block.ReadFrom good state) := by
  have body : Safe good Leads (lines line) state.deeper fun stmts after =>
      (stmts ≠ [] → after.rest.length < state.rest.length) ∧
        (∀ stmt ∈ stmts, stmt.Spelled good) ∧
          Adds good state (Stmt.listHandles stmts) [] after := by
    refine lines_safe _ (fun stmts _ _ passes kept => ⟨fun some =>
      Nat.lt_of_le_of_lt passes.rest.length_le (kept.1 some), kept.2.1,
      kept.2.2.before_passes passes⟩) (fun stmts inner within kept => ?_)
      ⟨fun some => absurd rfl some, by simp, .nothing rfl rfl⟩
    refine (hline inner within).mono fun stmt after _ read => ⟨read.shorter, fun _ => ?_, ?_, ?_⟩
    · exact Nat.lt_of_lt_of_le read.shorter within
    · simp only [List.forall_mem_append, List.forall_mem_singleton]
      exact ⟨kept.2.1, read.spelled⟩
    · simpa [Stmt.listHandles_eq_flatMap] using kept.2.2.trans read.adds
  have block : Safe good Leads (indented (lines line)) state fun stmts after =>
      (stmts ≠ [] → after.rest.length < state.rest.length) ∧
        (∀ stmt ∈ stmts, stmt.Spelled good) ∧
          Adds good state (Stmt.listHandles stmts) [] after :=
    Runs.indented body fun stmts after kept => ⟨kept.1, kept.2.1, kept.2.2.shallower⟩
  refine block.bind fun stmts after _ ⟨shorter, spelled, adds⟩ => ?_
  split
  · next first last hfirst _ =>
    have some : stmts ≠ [] := by
      rintro rfl
      cases hfirst
    exact .pure ⟨shorter some, .mk some spelled, adds⟩
  · exact .failHere fun _ => by simp [ErrorCause.category]

/-- A condition takes up at least one token. -/
theorem guarded_safe (hblock : BlocksBelow good state.rest.length block) :
    Safe good Leads (guarded block) state fun branch after =>
      after.rest.length < state.rest.length ∧ branch.Spelled good ∧
        Adds good state branch.body.handles [] after := by
  refine expr_safe.lift.bind fun condition mid _ ⟨passes, shorter, spelled⟩ => ?_
  refine blockStart_safe.lift.bind fun _ begun _ ⟨passes', shorter'⟩ => ?_
  refine (hblock begun (by omega)).bind fun body after leads read => .pure ?_
  have within := leads.rest.length_le
  exact ⟨by omega, .mk spelled read.spelled, read.adds.after_passes (passes.trans passes')⟩

theorem branching_safe (hblock : BlocksBelow good state.rest.length block) :
    Safe good Leads (branching block) state (Stmt.ReadFrom good state) := by
  refine .get_bind (take_safe.lift.bind fun token taken _ ⟨passes, _⟩ => ?_)
  have within := passes.rest.length_le
  refine (guarded_safe (hblock.mono within)).bind fun first behind _ ⟨shorter, spelled, adds⟩ => ?_
  have others : Safe good Leads (collect do
      modify ParseState.passBlankLines
      if ← atWord state.indent .elifWord then
        discard take
        return some (← guarded block)
      else return none) behind fun others after =>
        (∀ branch ∈ others, branch.Spelled good) ∧
          Adds good behind (Branch.listHandles others) [] after := by
    refine collect_safe _ (fun others inner within' kept => ?_) ⟨by simp, .nothing rfl rfl⟩
    refine (Runs.modify (passes_passBlankLines inner)).lift.bind fun _ line _ ⟨toLine, _⟩ => ?_
    refine atWord_safe.lift.bind fun found margin _ ⟨toWord, elif⟩ => ?_
    have before := kept.2.before_passes (toLine.trans toWord)
    split
    · next found =>
      refine take_safe.lift.discard.bind fun _ elsewhere _ ⟨_, passes, _, passed⟩ => ?_
      have shorter := (passed (by simp [elif found])).2
      have := (toLine.trans toWord).rest.length_le
      refine (guarded_safe (hblock.mono (by omega))).bind fun branch after leads read => .pure ?_
      have := leads.rest.length_le
      refine ⟨by omega, ?_, ?_⟩
      · simp only [List.forall_mem_append, List.forall_mem_singleton]
        exact ⟨kept.1, read.2.1⟩
      · simpa [Branch.listHandles_eq_flatMap] using (before.before_passes passes).trans read.2.2
    · exact .pure ⟨kept.1, before⟩
  refine others.bind fun others mid leads ⟨spelledOthers, addsOthers⟩ => ?_
  have within' := leads.rest.length_le
  have all := (adds.after_passes passes).trans addsOthers
  refine atWord_safe.lift.bind fun found margin _ ⟨toWord, otherwise⟩ => ?_
  have within'' := toWord.rest.length_le
  extract_lets finish
  have finishes : ∀ body? last, margin.Leads last → (∀ body ∈ body?, body.Spelled good) →
      Adds good margin (Block.optionHandles body?) [] last →
      Safe good Leads (finish body?) last (Stmt.ReadFrom good state) := by
    intro body? last leads spelledBody addsBody
    have := leads.rest.length_le
    refine .spanSince_bind fun span =>
      .pure ⟨by omega, .branch spelled spelledOthers spelledBody, ?_, fun _ => rfl⟩
    simpa [Stmt.handles, Branch.listHandles_eq_flatMap] using
      (all.before_passes toWord).trans addsBody
  split
  · next found =>
    refine take_safe.lift.discard.bind fun _ elsewhere leads₁ ⟨_, passes₁, _, passed⟩ => ?_
    have shorter := (passed (by simp [otherwise found])).2
    refine blockStart_safe.lift.bind fun _ begun leads₂ ⟨passes₂, shorter₂⟩ => ?_
    refine (hblock begun (by omega)).bind fun body last leads₃ read => ?_
    exact finishes _ last ((leads₁.trans leads₂).trans leads₃) (by simpa using read.spelled)
      (read.adds.after_passes (passes₁.trans passes₂))
  · exact finishes none margin (Passes.refl margin).leads (by simp) (.nothing rfl rfl)

theorem forLoop_safe (hblock : BlocksBelow good state.rest.length block) :
    Safe good Leads (forLoop block) state (Stmt.ReadFrom good state) := by
  refine take_safe.lift.bind fun token taken _ ⟨passes, _⟩ => ?_
  have opened := passes.rest.length_le
  refine varDecl_safe.bind fun init declared _ ⟨shorter₁, adds, _⟩ => ?_
  refine (expect_safe (by simp)).lift.discard.bind fun _ s₁ _ ⟨_, passes₁, _, _, shorter₂⟩ => ?_
  refine expr_safe.lift.bind fun condition s₂ _ ⟨passes₂, shorter₃, hcondition⟩ => ?_
  refine (expect_safe (by simp)).lift.discard.bind fun _ s₃ _ ⟨_, passes₃, _, _, shorter₄⟩ => ?_
  refine expr_safe.lift.bind fun step s₄ _ ⟨passes₄, shorter₅, hstep⟩ => ?_
  refine blockStart_safe.lift.bind fun _ s₅ _ ⟨passes₅, shorter₆⟩ => ?_
  refine (hblock s₅ (by omega)).bind fun body last leads read => .spanSince_bind fun span => .pure ?_
  have within := leads.rest.length_le
  refine ⟨by omega, .forLoop hcondition hstep read.spelled, ?_, fun _ => rfl⟩
  have header := (((passes₁.trans passes₂).trans passes₃).trans passes₄).trans passes₅
  exact (adds.after_passes passes).trans (read.adds.after_passes header)

theorem whileLoop_safe (hblock : BlocksBelow good state.rest.length block) :
    Safe good Leads (whileLoop block) state (Stmt.ReadFrom good state) := by
  refine take_safe.lift.bind fun token taken _ ⟨passes, _⟩ => ?_
  have within := passes.rest.length_le
  refine (guarded_safe (hblock.mono within)).bind
    fun branch after _ ⟨shorter, spelled, adds⟩ => .spanSince_bind fun span => .pure ?_
  cases spelled with
  | mk condition body =>
      exact ⟨by omega, .whileLoop condition body, adds.after_passes passes, fun _ => rfl⟩

theorem returns_safe : Safe good Leads returns state (Stmt.ReadFrom good state) := by
  refine take_safe.lift.bind fun token taken _ ⟨passes, _⟩ => ?_
  have within := passes.rest.length_le
  refine expr_safe.lift.bind fun value after _ ⟨passes', shorter', spelled⟩ =>
    .spanSince_bind fun span => .pure ?_
  exact ⟨by omega, .returns spelled, .of_passes (passes.trans passes'), fun _ => rfl⟩

theorem stmtForm_safe (hblock : BlocksBelow good state.rest.length block)
    (word : state.kind ≠ .eof) (form : StmtForm) :
    Safe good Leads (stmtForm block form) state (Stmt.ReadFrom good state) := by
  cases form with
  | branch => exact branching_safe hblock
  | forLoop => exact forLoop_safe hblock
  | whileLoop => exact whileLoop_safe hblock
  | returns => exact returns_safe
  | breakLoop =>
      exact take_safe.lift.bind fun token after _ ⟨passes, _, passed⟩ =>
        .pure ⟨(passed word).2, .breakLoop, .of_passes passes, fun _ => rfl⟩
  | continueLoop =>
      exact take_safe.lift.bind fun token after _ ⟨passes, _, passed⟩ =>
        .pure ⟨(passed word).2, .continueLoop, .of_passes passes, fun _ => rfl⟩

theorem stmtWith_safe (hblock : BlocksBelow good state.rest.length block) :
    Safe good Leads (stmtWith block) state (Stmt.ReadFrom good state) := by
  intro ready
  refine Runs.get_bind ?_ ready
  rw [ready.grammar]
  split
  · next form h =>
    refine stmtForm_safe hblock (fun eof => ?_) form
    rw [eof] at h
    cases h
  split
  · next starts =>
    exact varDecl_safe.bind fun decl after _ ⟨shorter, adds, _⟩ => .spanSince_bind fun span =>
      .pure ⟨shorter, .declare, adds, fun otherwise => by simp [otherwise] at starts⟩
  · exact expr_safe.lift.bind fun value after _ ⟨passes, shorter, spelled⟩ =>
      .pure ⟨shorter, .expression spelled, .of_passes passes, fun _ => rfl⟩

theorem lineOf_safe {stmt : ParseM Stmt}
    (hstmt : Safe good Leads stmt state (Stmt.ReadFrom good state)) :
    Safe good Leads (lineOf stmt) state (Stmt.ReadFrom good state) := by
  refine hstmt.bind fun stmt after _ read => ?_
  split
  · exact .pure read
  · refine lineEnd_safe.lift.bind fun _ behind _ ⟨passes, _⟩ => .pure ?_
    exact ⟨Nat.lt_of_le_of_lt passes.rest.length_le read.shorter, read.spelled,
      read.adds.before_passes passes, read.declared⟩

end Statements

/-- A reader of statements whose blocks nest at most some levels deep is safe where fewer tokens are
left. -/
theorem stmtWithin_safe (levels : Nat) (state : ParseState) (below : state.rest.length < levels) :
    Safe good Leads (stmtWithin levels) state (Stmt.ReadFrom good state) := by
  induction levels generalizing state with
  | zero => exact absurd below (Nat.not_lt_zero _)
  | succ levels ih =>
      refine stmtWith_safe fun inside shorter => blockWith_safe fun inner within => ?_
      exact lineOf_safe (ih inner (by omega))

theorem stmt_safe {state : ParseState} :
    Safe good Leads stmt state (Stmt.ReadFrom good state) :=
  .budget_bind (stmtWithin_safe _ state (Nat.lt_succ_self _))

theorem stmtLine_safe {state : ParseState} :
    Safe good Leads stmtLine state (Stmt.ReadFrom good state) :=
  lineOf_safe stmt_safe

theorem block_safe {state : ParseState} :
    Safe good Leads block state (Block.ReadFrom good state) :=
  blockWith_safe fun _ _ => stmtLine_safe

end Offside
