import Offside.Grammar.Blocks
import Offside.Proofs.Placing.Expressions
import Offside.Proofs.Placing.Lines

/-! # Tracking statements

A statement is read from words that its outline takes up. If it has no block, these are the words of
one line; otherwise its headers are laid out over the lines that it takes up.
-/

namespace Offside

open Parse ParseState Outline

variable {all : List Token} {state : ParseState}

section Declarations

/-- A declaration stays where it is while others are added. -/
theorem outline_of_grown {decls others : Array VarDecl} {id : VarId} {decl : VarDecl}
    (found : decls[id.index]? = some decl) (grown : decls.toList <+: others.toList) :
    id.outline others = decl.outline := by
  rw [VarId.outline, getElem?_of_prefix grown found]
  rfl

/-- A declaration is added under its handle. -/
theorem declareVar_tracks {name : String} {type : DataType} {init : Option Expr} {span : Span} :
    Tracks Takes all (declareVar name type init span) state fun id used after => used = [] ∧
      ∀ decls : Array VarDecl, after.program.decls.toList <+: decls.toList →
        id.outline decls = .node span (init.toList.map Expr.outline) := by
  refine fun _ => ⟨[], ⟨[], ⟨rfl, rfl, rfl, rfl, ?_, rfl⟩, List.forall_mem_nil _, rfl⟩, rfl, ?_⟩
  · exact ⟨[⟨state.program.nextDecl, name, type, init, span⟩], by simp [Program.insertDecl]⟩
  · intro decls grown
    have found :
        (state.program.insertDecl name type init span).decls[state.program.nextDecl.index]? = some ⟨state.program.nextDecl, name, type, init, span⟩ := by
      simp [Program.insertDecl, Program.nextDecl]
    exact outline_of_grown found grown

/-- A declaration is read from words that its outline takes up. -/
theorem varDecl_tracks :
    Tracks Takes all varDecl state fun id used after =>
      ∀ decls : Array VarDecl, after.program.decls.toList <+: decls.toList →
        (id.outline decls).Covers used := by
  refine expectName_tracks.bind fun name used mid takes taken => ?_
  obtain ⟨rfl, -, -⟩ := taken
  refine (expect_tracks rfl).discard.bind fun _ colon mid₁ takes₁ _ => ?_
  refine typeSpec_tracks.bind fun type typed mid₂ takes₂ _ => .kind_bind ?_
  have front := takes.trans (takes₁.trans takes₂)
  extract_lets finish
  have finishes : ∀ (init : Option Expr) more last, mid₂.Takes more last →
      LieIn (init.toList.map Expr.outline) more →
      Tracks Takes all (finish init) last fun id rest after =>
        ∀ decls : Array VarDecl, after.program.decls.toList <+: decls.toList →
          (id.outline decls).Covers ([name] ++ (colon ++ (typed ++ (more ++ rest)))) := by
    intro init more last takes₃ lie
    refine .spanSince_bind (declareVar_tracks.mono fun id rest after _ declared => ?_)
    obtain ⟨rfl, found⟩ := declared
    intro decls grown
    rw [found decls grown, List.append_nil]
    have whole := front.trans takes₃
    simp only [List.append_assoc] at whole
    exact covers_node whole.goesOver (((lie.prepend _).prepend _).prepend _)
  split
  · next assigned =>
    refine (take_tracks (by rw [assigned]; rfl)).discard.bind fun _ sign mid₃ takes₃ _ => ?_
    refine (expr_tracks mid₃).bind fun value more mid₄ takes₄ goes => ?_
    have lie : LieIn [value.outline] (sign ++ more) := (LieIn.of_over goes).prepend sign
    rw [pure_bind]
    simpa only [List.append_assoc] using
      finishes (some value) (sign ++ more) mid₄ (takes₃.trans takes₄) lie
  · exact finishes none [] mid₂ (.refl mid₂) .nil

end Declarations

section Blocks

/-- What a statement covers: the words that its outline takes up. -/
def Stmt.CoversIn (decls : Array VarDecl) (stmt : Stmt) (words : List Token) : Prop :=
  (stmt.outline decls).Over words

/-- A block is read from words that its outline takes up, and its headers are laid out. -/
def BlockFrom (state : ParseState) (body : Block) (passed : List Token) (after : ParseState) :
    Prop :=
  ∀ decls : Array VarDecl, after.program.decls.toList <+: decls.toList →
    (body.outline decls).Over (solid passed) ∧ ∀ depth, state.indent = stepWidth * depth →
      LaysOut decls state.rest after.rest (body.headers (depth + 1))

/-- Wherever it is started, a reader of blocks reads them. -/
def TracksBlocks (all : List Token) (block : ParseM Block) : Prop :=
  ∀ state, Tracks Moves all block state (BlockFrom state)

/-- A block is read if its lines are. -/
theorem blockWith_tracks {line : ParseM Stmt} (hline : ∀ inner, inner.kind.startsLine = true →
      Tracks Moves all line inner (ReadFrom Stmt.CoversIn Stmt.headers inner)) :
    TracksBlocks all (blockWith line) := by
  intro state
  refine (indented_tracks (lines_tracks hline)).bind fun body passed after _ left => ?_
  obtain ⟨inner, read, rfl⟩ := left
  split
  · next first last starts ends =>
    refine .pure fun decls grown => ?_
    obtain ⟨goes, lays⟩ := read decls grown
    obtain ⟨rest, rfl⟩ := List.head?_eq_some_iff.1 starts
    refine ⟨?_, fun depth column => ?_⟩
    · obtain ⟨own, back, words, first', others⟩ := goes
      have outlines : InTurn Outline.Over (rest.map (Stmt.outline decls)) back :=
        others.map (Stmt.outline decls)
      have block := outlines.toOver first'.single
      rw [Block.outline, Stmt.outlines_eq_map, List.append_nil, words]
      rw [List.getLast?_cons, Option.some.injEq] at ends
      cases last' : rest.getLast? <;> simp_all
    · have deeper : state.deeper.indent = stepWidth * (depth + 1) := by
        simp [deeper, column, Nat.mul_add]
      rw [Block.headers, Stmt.listHeaders_eq_flatMap]
      exact lays (depth + 1) deeper
  · exact .failHere

variable {block : ParseM Block}

/-- A condition and the block under it, of which the condition stands on the line that is left. -/
theorem guarded_tracks (hblock : TracksBlocks all block) :
    Tracks Moves all (guarded block) state fun branch passed after =>
      ∃ line next, Splits state.rest line next ∧ LieIn [branch.condition.outline] (solid line) ∧
        ∀ decls : Array VarDecl, after.program.decls.toList <+: decls.toList →
          LieIn [branch.condition.outline, branch.body.outline decls] (solid passed) ∧
          ∀ depth, state.indent = stepWidth * depth →
            LaysOut decls next after.rest (branch.body.headers (depth + 1)) := by
  refine (expr_tracks state).lift.bind fun condition passed mid moves taken => ?_
  obtain ⟨takes, goes⟩ := taken
  refine blockStart_tracks.bind fun _ passed' mid' moves' started => ?_
  obtain ⟨colon, line, -, words', splits, words⟩ := started
  refine (hblock mid').bind fun body passed'' after moves'' read => .pure ?_
  obtain ⟨line', splits', same⟩ := takes.splits splits
  refine ⟨line', mid'.rest, splits', ?_, fun decls grown => ?_⟩
  · rw [same]
    exact (LieIn.of_over goes).extend
  obtain ⟨goes', lays⟩ := read decls grown
  refine ⟨?_, fun depth column => lays depth (by rw [moves'.indent, moves.indent, column])⟩
  rw [List.append_nil, solid_append, solid_append]
  exact (LieIn.of_over goes).append ((LieIn.of_over goes').prepend _)

/-- A statement is read from words that its outline takes up. If it has no block, they are those of
the line up to there; otherwise its headers are laid out. -/
def StmtFrom (state : ParseState) (stmt : Stmt) (passed : List Token) (after : ParseState) : Prop :=
  if stmt.closesWithBlock then ReadFrom Stmt.CoversIn Stmt.headers state stmt passed after
  else state.Takes (solid passed) after ∧
    ∀ decls : Array VarDecl, after.program.decls.toList <+: decls.toList →
      stmt.CoversIn decls (solid passed) ∧ (Construct.stmt stmt).OnWords decls (solid passed)

/-- A statement whose first line is its only header but for its blocks. -/
theorem ReadFrom.stmt {stmt : Stmt} {passed : List Token} {after : ParseState}
    (closes : stmt.closesWithBlock = true) (h : ∀ decls : Array VarDecl,
      after.program.decls.toList <+: decls.toList → stmt.CoversIn decls (solid passed) ∧
        ∀ depth, state.indent = stepWidth * depth →
          LaysOutFrom decls state.indent state.rest after.rest (stmt.headers depth)) :
    StmtFrom state stmt passed after := by
  rw [StmtFrom, if_pos closes]
  exact h

theorem whileLoop_tracks (hblock : TracksBlocks all block) (word : state.kind = .whileWord) :
    Tracks Moves all (whileLoop block) state (StmtFrom state) := by
  refine (take_tracks (by rw [word]; rfl)).lift.bind fun token passed mid moves taken => ?_
  obtain ⟨takes, used, rfl, -⟩ := taken
  rw [used] at takes
  refine (guarded_tracks hblock).bind fun branch passed' after moves' read =>
    .spanSince_bind (.pure ?_)
  obtain ⟨line, next, splits, lie, read⟩ := read
  obtain ⟨line', splits', same⟩ := takes.splits splits
  refine .stmt rfl fun decls grown => ?_
  obtain ⟨lie', lays⟩ := read decls grown
  have words : solid (passed ++ passed') = state.current :: solid passed' := by
    rw [solid_append, used]
    rfl
  have reaches := (moves.trans moves').goesOver words
  refine ⟨?_, fun depth column => ?_⟩
  · rw [Stmt.CoversIn, Stmt.outline, List.append_nil, words]
    exact (covers_node reaches (lie'.prepend [state.current])).toOver
  · rw [Stmt.headers]
    refine .cons splits' ⟨column, ?_⟩ (lays depth (by rw [moves.indent, column]))
    rw [same]
    exact ⟨⟨_, _, rfl, word, rfl⟩, lie.prepend _⟩

/-- Reads the variable, the condition and the step of a `for`. -/
def loopHead : ParseM (VarId × Expr × Expr) := do
  let init ← varDecl
  discard (expect .comma)
  let condition ← expr
  discard (expect .comma)
  let step ← expr
  return (init, condition, step)

theorem forLoop_eq (block : ParseM Block) :
    forLoop block = (do
      let word ← take
      let head ← loopHead
      blockStart
      let body ← block
      return .forLoop head.1 head.2.1 head.2.2 body (← spanSince word.span.start)) := by
  simp only [forLoop, loopHead, bind_assoc, pure_bind]

theorem loopHead_tracks :
    Tracks Takes all loopHead state fun head used after =>
      ∀ decls : Array VarDecl, after.program.decls.toList <+: decls.toList →
        LieIn [head.1.outline decls, head.2.1.outline, head.2.2.outline] used := by
  refine varDecl_tracks.bind fun init used mid _ covers => ?_
  refine (expect_tracks rfl).discard.bind fun _ comma mid₁ takes₁ _ => ?_
  refine (expr_tracks mid₁).bind fun condition used₁ mid₂ takes₂ goes => ?_
  refine (expect_tracks rfl).discard.bind fun _ comma' mid₃ takes₃ _ => ?_
  refine (expr_tracks mid₃).bind fun step used₂ after takes₄ goes' => .pure fun decls grown => ?_
  have behind := (takes₁.trans (takes₂.trans (takes₃.trans takes₄))).decls
  have exprs : LieIn [condition.outline, step.outline] (used₁ ++ (comma' ++ used₂)) :=
    (LieIn.of_over goes).append ((LieIn.of_over goes').prepend _)
  rw [List.append_nil]
  exact (LieIn.of_covers (covers decls (behind.trans grown))).append (exprs.prepend _)

theorem forLoop_tracks (hblock : TracksBlocks all block) (word : state.kind = .forWord) :
    Tracks Moves all (forLoop block) state (StmtFrom state) := by
  rw [forLoop_eq]
  refine (take_tracks (by rw [word]; rfl)).lift.bind fun token passed mid moves taken => ?_
  obtain ⟨takes, used, rfl, -⟩ := taken
  rw [used] at takes
  refine loopHead_tracks.lift.bind fun head passed₁ mid₁ moves₁ read => ?_
  refine blockStart_tracks.bind fun _ passed₂ mid₂ moves₂ started => ?_
  refine (hblock mid₂).bind fun body passed₃ after moves₃ read' => .spanSince_bind (.pure ?_)
  obtain ⟨takes₁, read⟩ := read
  obtain ⟨colon, line, -, -, splits, -⟩ := started
  obtain ⟨line', splits', same⟩ := (takes.trans takes₁).splits splits
  have whole := moves.trans (moves₁.trans (moves₂.trans moves₃))
  have words : solid (passed ++ (passed₁ ++ (passed₂ ++ passed₃))) =
      state.current :: (solid passed₁ ++ (solid passed₂ ++ solid passed₃)) := by
    simp [used]
  refine .stmt rfl fun decls grown => ?_
  have header := read decls ((moves₂.trans moves₃).decls.trans grown)
  obtain ⟨goes, lays⟩ := read' decls grown
  refine ⟨?_, fun depth column => ?_⟩
  · rw [Stmt.CoversIn, Stmt.outline, List.append_nil, words]
    have lie := header.append ((LieIn.of_over goes).prepend (solid passed₂))
    exact (covers_node (whole.goesOver words) (lie.prepend [state.current])).toOver
  · rw [Stmt.headers]
    refine .cons splits' ⟨column, ?_⟩
      (lays depth (by rw [moves₂.indent, moves₁.indent, moves.indent, column]))
    rw [same]
    exact ⟨⟨_, _, rfl, word, rfl⟩, (header.prepend _).extend⟩

/-- Clauses are read from words that their outlines lie in, and their headers are laid out, whatever
is declared later. -/
def ClausesFrom (outlines : Array VarDecl → List Outline) (headers : Nat → List Header)
    (state : ParseState) (passed : List Token) (after : ParseState) : Prop :=
  ∀ decls : Array VarDecl, after.program.decls.toList <+: decls.toList →
    LieIn (outlines decls) (solid passed) ∧ ∀ depth, state.indent = stepWidth * depth →
      LaysOut decls state.rest after.rest (headers depth)

theorem ClausesFrom.nil {passed : List Token} {after : ParseState}
    (same : wordLines state.rest = wordLines after.rest) :
    ClausesFrom (fun _ => []) (fun _ => []) state passed after :=
  fun _ _ => ⟨.nil, fun _ _ => .nil same⟩

theorem ClausesFrom.append {outlines outlines' : Array VarDecl → List Outline}
    {headers headers' : Nat → List Header} {passed passed' : List Token} {mid after : ParseState}
    (h : ClausesFrom outlines headers state passed mid) (indent : mid.indent = state.indent)
    (moves : mid.Moves passed' after) (h' : ClausesFrom outlines' headers' mid passed' after) :
    ClausesFrom (fun decls => outlines decls ++ outlines' decls)
      (fun depth => headers depth ++ headers' depth) state (passed ++ passed') after := by
  intro decls grown
  obtain ⟨lie, lays⟩ := h decls (moves.decls.trans grown)
  obtain ⟨lie', lays'⟩ := h' decls grown
  refine ⟨by rw [solid_append]; exact lie.append lie', fun depth column => ?_⟩
  exact (lays depth column).append (lays' depth (indent.trans column))

/-- An `elif` that stands at a column, or nothing but blank lines. -/
theorem elif_tracks (hblock : TracksBlocks all block) {column : Nat}
    (indent : state.indent = column) :
    Tracks Moves all (do
      modify ParseState.passBlankLines
      if ← atWord column .elifWord then
        discard take
        return some (← guarded block)
      else return none) state (Continues
        (ClausesFrom (fun _ => []) (fun _ => []) state)
        fun branch => ClausesFrom
          (fun decls => [branch.condition.outline, branch.body.outline decls])
          (fun depth => ⟨depth, .elif branch⟩ :: branch.body.headers (depth + 1)) state) := by
  refine passBlankLines_tracks.bind fun _ passed mid moves here => ?_
  obtain ⟨spacing, -, same⟩ := here
  refine (atWord_tracks rfl).bind fun found passed' mid' moves' seen => ?_
  obtain ⟨spacing', seen⟩ := seen
  cases found with
  | false =>
      rw [if_neg Bool.false_ne_true] at seen ⊢
      exact .pure (.nil (by rw [seen, same]))
  | true =>
      rw [if_pos rfl] at seen ⊢
      obtain ⟨word, margin⟩ := seen
      refine (take_tracks (by rw [word]; rfl)).lift.discard.bind fun _ token mid₁ moves₁ taken => ?_
      obtain ⟨_, takes, used, rfl, -⟩ := taken
      refine (guarded_tracks hblock).bind fun branch passed₂ after moves₂ read => .pure ?_
      obtain ⟨line, next, splits, lie, read⟩ := read
      obtain ⟨line', splits', words⟩ := takes.splits splits
      intro decls grown
      obtain ⟨lie', lays⟩ := read decls grown
      refine ⟨by simpa using ((lie'.prepend _).prepend _).prepend _, fun depth deep => ?_⟩
      have lays' := lays depth (by rw [moves₁.indent, moves'.indent, moves.indent, deep])
      refine (LaysOut.nil same.symm).append
        (margin (.cons splits' ⟨indent.symm.trans deep, ?_⟩ lays'))
      rw [words, used]
      exact ⟨_, _, rfl, word, lie⟩

/-- The `elif` clauses that stand at a column. -/
theorem elifs_tracks (hblock : TracksBlocks all block) {column : Nat}
    (indent : state.indent = column) :
    Tracks Moves all (collect do
      modify ParseState.passBlankLines
      if ← atWord column .elifWord then
        discard take
        return some (← guarded block)
      else return none) state fun others => ClausesFrom
        (fun decls => Branch.outlines decls others)
        (fun depth => Branch.headersElif depth others) state := by
  refine Tracks.collect (fun others passed inner => inner.indent = column ∧ ClausesFrom
      (fun decls => Branch.outlines decls others)
      (fun depth => Branch.headersElif depth others) state passed inner) _
    (fun others passed inner kept => ?_) ⟨indent, ?_⟩
  · obtain ⟨here, read⟩ := kept
    refine (elif_tracks hblock here).mono fun next? more after moves next => ?_
    have both := fun outlines headers (h : ClausesFrom outlines headers inner more after) =>
      read.append (here.trans indent.symm) moves h
    cases next? with
    | none => simpa using both _ _ next
    | some branch =>
        refine ⟨moves.indent.trans here, ?_⟩
        simpa [Branch.outlines_eq_flatMap, Branch.headersElif_eq_flatMap] using both _ _ next
  · simpa [Branch.outlines, Branch.headersElif] using ClausesFrom.nil rfl

/-- The block of an `else` at a column. -/
theorem otherwise_tracks (hblock : TracksBlocks all block) (word : state.kind = .elseWord) :
    Tracks Moves all (do
      discard take
      blockStart
      block) state fun body passed after =>
        ∀ decls : Array VarDecl, after.program.decls.toList <+: decls.toList →
          LieIn [body.outline decls] (solid passed) ∧ ∀ depth, state.indent = stepWidth * depth →
            LaysOutFrom decls state.indent state.rest after.rest
              (⟨depth, .otherwise body⟩ :: body.headers (depth + 1)) := by
  refine (take_tracks (by rw [word]; rfl)).lift.discard.bind fun _ passed mid moves taken => ?_
  obtain ⟨_, takes, used, rfl, -⟩ := taken
  refine blockStart_tracks.bind fun _ passed₁ mid₁ moves₁ started => ?_
  obtain ⟨colon, line, kind, -, splits, words⟩ := started
  refine (hblock mid₁).mono fun body passed₂ after moves₂ read decls grown => ?_
  obtain ⟨goes, lays⟩ := read decls grown
  obtain ⟨line', splits', same⟩ := takes.splits splits
  refine ⟨by simpa using ((LieIn.of_over goes).prepend _).prepend _, fun depth column => ?_⟩
  refine .cons splits' ⟨column, ?_⟩ (lays depth (by rw [moves₁.indent, moves.indent, column]))
  rw [same, used, words]
  exact congrArg₂ (fun first second => [first, second]) word kind

/-- An `if` is the header of its first block, and its `elif` and `else` clauses are headers at its
own column. -/
theorem branching_tracks (hblock : TracksBlocks all block) (word : state.kind = .ifWord) :
    Tracks Moves all (branching block) state (StmtFrom state) := by
  refine .get_bind ?_
  refine (take_tracks (by rw [word]; rfl)).lift.bind fun token passed mid moves taken => ?_
  obtain ⟨takes, used, rfl, -⟩ := taken
  rw [used] at takes
  refine (guarded_tracks hblock).bind fun first passed₁ mid₁ moves₁ read => ?_
  obtain ⟨condition, body⟩ := first
  have column : mid₁.indent = state.indent := moves₁.indent.trans moves.indent
  refine (elifs_tracks hblock column).bind fun others passed₂ mid₂ moves₂ read₂ => ?_
  refine (atWord_tracks rfl).bind fun found passed₃ mid₃ moves₃ seen => ?_
  obtain ⟨spacing, seen⟩ := seen
  obtain ⟨line, next, splits, lie, read⟩ := read
  obtain ⟨line', splits', same⟩ := takes.splits splits
  extract_lets finish
  have finishes : ∀ otherwise passed₄ last, mid₃.Moves passed₄ last →
      ClausesFrom (fun decls => Block.optionOutlines decls otherwise)
        (fun depth => Block.headersOtherwise depth otherwise) mid₂ (passed₃ ++ passed₄) last →
      Tracks Moves all (finish otherwise) last fun stmt rest =>
        StmtFrom state stmt
          (passed ++ (passed₁ ++ (passed₂ ++ (passed₃ ++ (passed₄ ++ rest))))) := by
    intro otherwise passed₄ last moves₄ read₄
    refine .spanSince_bind (.pure ?_)
    have behind := read₂.append (moves₂.indent) (moves₃.trans moves₄) read₄
    have words : solid (passed ++ (passed₁ ++ (passed₂ ++ (passed₃ ++ (passed₄ ++ []))))) =
        state.current :: (solid passed₁ ++ solid (passed₂ ++ (passed₃ ++ passed₄))) := by
      simp [used]
    have reaches := (moves.trans (moves₁.trans (moves₂.trans (moves₃.trans moves₄))))
    refine .stmt rfl fun decls grown => ?_
    obtain ⟨lie', lays'⟩ := behind decls grown
    obtain ⟨lie₁, lays₁⟩ := read decls ((moves₂.trans (moves₃.trans moves₄)).decls.trans grown)
    refine ⟨?_, fun depth deep => ?_⟩
    · rw [Stmt.CoversIn, Stmt.outline, Branch.outlines, words]
      have parts := (lie₁.append lie').prepend [state.current]
      exact (covers_node (reaches.goesOver (by simpa using words)) (by simpa using parts)).toOver
    · have here : mid.indent = stepWidth * depth := moves.indent.trans deep
      rw [Stmt.headers, Branch.headersBelow, List.append_assoc]
      refine .cons splits' ⟨deep, ?_⟩
        ((lays₁ depth here).append (lays' depth (column.trans deep)))
      rw [same]
      exact ⟨⟨_, _, rfl, word, rfl⟩, _, others, rfl, lie.prepend _⟩
  cases found with
  | false =>
      rw [if_neg Bool.false_ne_true] at seen ⊢
      refine finishes none [] mid₃ (.refl mid₃) ?_
      simpa [Block.optionOutlines, Block.headersOtherwise] using ClausesFrom.nil (by rw [seen])
  | true =>
      rw [if_pos rfl] at seen ⊢
      obtain ⟨otherwise, margin⟩ := seen
      have clause : Tracks Moves all ((do
          discard take
          blockStart
          block) >>= fun body => finish (some body)) mid₃ fun stmt more =>
            StmtFrom state stmt (passed ++ (passed₁ ++ (passed₂ ++ (passed₃ ++ more)))) := by
        refine (otherwise_tracks hblock otherwise).bind fun body' passed₄ last moves₄ read₄ => ?_
        refine finishes (some body') passed₄ last moves₄ fun decls grown => ?_
        obtain ⟨lie₄, lays₄⟩ := read₄ decls grown
        have level : mid₃.indent = state.indent := by rw [moves₃.indent, moves₂.indent, column]
        refine ⟨by simpa [Block.optionOutlines, spacing] using lie₄, fun depth deep => ?_⟩
        have lays := lays₄ depth (moves₃.indent.trans deep)
        rw [level] at lays
        exact margin lays
      simpa only [bind_assoc, pure_bind] using clause

/-- A statement without blocks is read from the words of a line. -/
theorem StmtFrom.of_words {action : ParseM Stmt} (h : Tracks Takes all action state
      fun stmt used after => stmt.closesWithBlock = false ∧
        ∀ decls : Array VarDecl, after.program.decls.toList <+: decls.toList →
          stmt.CoversIn decls used ∧ (Construct.stmt stmt).OnWords decls used) :
    Tracks Moves all action state (StmtFrom state) := by
  refine h.lift.mono fun stmt passed after _ read => ?_
  obtain ⟨takes, plain, words⟩ := read
  rw [StmtFrom, plain, if_neg Bool.false_ne_true]
  exact ⟨takes, words⟩

theorem returns_tracks (word : state.kind = .returnWord) :
    Tracks Moves all returns state (StmtFrom state) := by
  refine StmtFrom.of_words ?_
  refine (take_tracks (by rw [word]; rfl)).bind fun token used mid takes taken => ?_
  obtain ⟨rfl, rfl, -⟩ := taken
  refine (expr_tracks mid).bind fun value read after takes' goes => .spanSince_bind (.pure ?_)
  have covers := covers_node (takes.trans takes').goesOver
    ((LieIn.of_over goes).prepend [state.current])
  refine ⟨rfl, fun decls _ => ?_⟩
  rw [List.append_nil]
  exact ⟨covers.toOver, ⟨_, _, rfl, word, rfl⟩, covers⟩

theorem breakLoop_tracks (word : state.kind = .breakWord) :
    Tracks Moves all breakLoop state (StmtFrom state) := by
  refine StmtFrom.of_words ?_
  refine (take_tracks (by rw [word]; rfl)).bind fun token used mid takes taken => .pure ?_
  obtain ⟨rfl, rfl, -⟩ := taken
  exact ⟨rfl, fun decls _ => ⟨(covers_token _).toOver, ⟨_, _, rfl, word, rfl⟩, rfl, rfl⟩⟩

theorem continueLoop_tracks (word : state.kind = .continueWord) :
    Tracks Moves all continueLoop state (StmtFrom state) := by
  refine StmtFrom.of_words ?_
  refine (take_tracks (by rw [word]; rfl)).bind fun token used mid takes taken => .pure ?_
  obtain ⟨rfl, rfl, -⟩ := taken
  exact ⟨rfl, fun decls _ => ⟨(covers_token _).toOver, ⟨_, _, rfl, word, rfl⟩, rfl, rfl⟩⟩

theorem stmtForm_tracks (hblock : TracksBlocks all block) {form : StmtForm}
    (starts : Grammar.full.stmtForm? state.kind = some form) :
    Tracks Moves all (stmtForm block form) state (StmtFrom state) := by
  cases kind : state.kind <;> rw [kind] at starts <;> cases starts
  · exact forLoop_tracks hblock kind
  · exact branching_tracks hblock kind
  · exact whileLoop_tracks hblock kind
  · exact returns_tracks kind
  · exact breakLoop_tracks kind
  · exact continueLoop_tracks kind

/-- A declaration as a statement starts where its name does. -/
theorem declare_tracks (starts : state.startsDeclaration = true) :
    Tracks Takes all (do
      let decl ← varDecl
      return Stmt.declare decl (← spanSince state.position)) state fun stmt used after =>
        stmt.closesWithBlock = false ∧
        ∀ decls : Array VarDecl, after.program.decls.toList <+: decls.toList →
          stmt.CoversIn decls used ∧ (Construct.stmt stmt).OnWords decls used := by
  refine varDecl_tracks.bind fun id used after takes covers => .spanSince_bind (.pure ?_)
  have word : state.kind.startsLine = true := by
    rw [kind_of_startsDeclaration starts]
    rfl
  have taken : used ≠ [] := by
    rintro rfl
    cases (covers _ List.prefix_rfl).goesOver.1
  obtain ⟨more, rfl⟩ := takes.exists_cons word taken
  refine ⟨rfl, fun decls grown => ?_⟩
  have whole := covers_node takes.goesOver (LieIn.of_covers (covers decls grown))
  rw [List.append_nil]
  exact ⟨whole.toOver, whole⟩

theorem stmtWith_tracks (hblock : TracksBlocks all block) :
    Tracks Moves all (stmtWith block) state (StmtFrom state) := by
  refine .of_ahead fun ahead => .get_bind ?_
  rw [ahead.grammar]
  split
  · next form starts => exact stmtForm_tracks hblock starts
  split
  · next starts => exact StmtFrom.of_words (declare_tracks starts)
  · refine StmtFrom.of_words ((expr_tracks state).bind fun value used after _ goes => .pure ?_)
    rw [List.append_nil]
    exact ⟨rfl, fun decls _ => ⟨goes, goes⟩⟩

theorem headers_of_plain {stmt : Stmt} (plain : stmt.closesWithBlock = false) (depth : Nat) :
    stmt.headers depth = [⟨depth, .stmt stmt⟩] := by
  cases stmt <;> first | rfl | cases plain

/-- A line is a statement with its headers. -/
theorem lineOf_tracks {stmt : ParseM Stmt} (hstmt : Tracks Moves all stmt state (StmtFrom state)) :
    Tracks Moves all (lineOf stmt) state (ReadFrom Stmt.CoversIn Stmt.headers state) := by
  refine hstmt.bind fun stmt passed mid moves read => ?_
  split
  · next closes =>
    rw [StmtFrom, if_pos closes] at read
    exact .pure (by rwa [List.append_nil])
  · next plain =>
    rw [StmtFrom, if_neg plain] at read
    obtain ⟨takes, read⟩ := read
    refine lineEnd_tracks.bind fun _ passed' after moves' ends => .pure fun decls grown => ?_
    obtain ⟨spacing, blanks, splits, none⟩ := ends
    obtain ⟨covers, words⟩ := read decls (moves'.decls.trans grown)
    obtain ⟨line, splits', same⟩ := takes.splits splits
    rw [none, List.append_nil] at same
    refine ⟨by simpa [spacing] using covers, fun depth column => ?_⟩
    rw [headers_of_plain (by simpa using plain)]
    exact .single splits' ⟨column, same ▸ words⟩

end Blocks

/-- A statement whose blocks nest at most some levels deep is read with its headers. -/
theorem stmtWithin_tracks (levels : Nat) (state : ParseState) :
    Tracks Moves all (stmtWithin levels) state (StmtFrom state) := by
  induction levels generalizing state with
  | zero => exact .exhausted
  | succ levels ih =>
      exact stmtWith_tracks (blockWith_tracks fun inner _ => lineOf_tracks (ih inner))

theorem stmtLine_tracks :
    Tracks Moves all stmtLine state (ReadFrom Stmt.CoversIn Stmt.headers state) :=
  lineOf_tracks (.budget_bind (stmtWithin_tracks _ state))

/-- A block is read with its headers. -/
theorem block_tracks : TracksBlocks all block :=
  blockWith_tracks fun _ _ => stmtLine_tracks

end Offside
