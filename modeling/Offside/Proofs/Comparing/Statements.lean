import Offside.Proofs.Comparing.Expressions
import Offside.Proofs.Reading.Statements

/-! # Comparing the reading of statements

A statement that stands at the start of the outermost block may be the first that is read on either
side. Blocks are never entered there, so what follows on the right alone is outside of each block.
-/

namespace Offside

open Parse ParseState

namespace Comparison

variable (c : Comparison)

/-- Both readings give the same statement, up to the end of its line or the start of the next. -/
def GivesStmt (stmt stmt' : Stmt) (after after' : ParseState) : Prop :=
  if stmt.closesWithBlock then
    c.Gives (Stmt.moved c.left) (Stmt.moved c.right) c.atLine stmt stmt' after after'
  else c.Gives (Stmt.moved c.left) (Stmt.moved c.right) c.inLine stmt stmt' after after'

/-- Both readings give the same block, up to the start of a line. -/
abbrev GivesBlock : Block → Block → ParseState → ParseState → Prop :=
  c.Gives (Block.moved c.left) (Block.moved c.right) c.atLine

/-- Two readers of blocks agree wherever fewer tokens than a bound are left on each side. -/
def BlocksBelow (bound bound' : Nat) (reader reader' : ParseM Block) : Prop :=
  ∀ state state', state.rest.length < bound → state'.rest.length < bound' →
    c.Abreast True c.atLine state state' → c.Follows reader reader' state state' c.GivesBlock

variable {c} (lawful : c.Lawful) {started : Prop} {state state' : ParseState}

theorem BlocksBelow.mono {bound bound' least least' : Nat} {reader reader' : ParseM Block}
    (h : c.BlocksBelow bound bound' reader reader') (le : least ≤ bound) (le' : least' ≤ bound') :
    c.BlocksBelow least least' reader reader' :=
  fun state state' below below' =>
    h state state' (Nat.lt_of_lt_of_le below le) (Nat.lt_of_lt_of_le below' le')

include lawful

/-- A variable declaration is read side by side. -/
theorem varDecl_follows (h : c.Abreast started c.inLine state state') :
    c.Follows varDecl varDecl state state' (c.Gives c.left.decl c.right.decl c.inLine) := by
  apply (expectName_follows lawful h).bind
  intro name name' named named' _ _ taken
  apply (expect_follows lawful taken.abreast rfl).discard.bind
  rintro _ _ behind behind' _ _ ⟨_, _, colon⟩
  apply (typeSpec_follows lawful colon.abreast).bind
  rintro type _ typed typed' _ _ ⟨rfl, here⟩
  apply Follows.kind_bind
  extract_lets finish finish'
  have finishes : ∀ (init init' : Option Expr) (last last' : ParseState),
      init.map (Expr.moved c.left) = init'.map (Expr.moved c.right) →
      c.Abreast True c.inLine last last' →
      c.Follows (finish init) (finish' init') last last' (c.Gives c.left.decl c.right.decl c.inLine) := by
    intro init init' last last' inits next
    apply Follows.spanSince_bind
    rw [← taken.value]
    exact declareVar_follows lawful next inits (next.spanSince (congrArg Span.start taken.span))
  apply Follows.ite (here.kind_iff lawful rfl)
  · intro assign
    apply (take_follows lawful here (assign ▸ rfl)).discard.bind
    rintro _ _ assigned assigned' _ _ ⟨_, _, taken⟩
    apply (expr_follows lawful taken.abreast).bind
    rintro value value' last last' _ _ ⟨same, next⟩
    exact finishes (some value) (some value') last last' (congrArg some same) next
  · intro _
    exact finishes none none typed typed' rfl here

section Blocks

variable {block block' : ParseM Block}

theorem blockWith_follows (h : c.Abreast True c.atLine state state') {line line' : ParseM Stmt}
    (hline : ∀ inner inner', inner.rest.length ≤ state.rest.length →
      inner'.rest.length ≤ state'.rest.length → c.Abreast True c.inLine inner inner' →
      c.Follows line line' inner inner' fun stmt stmt' after after' =>
        stmt.moved c.left = stmt'.moved c.right ∧ c.Abreast True c.atLine after after' ∧
          after.rest.length < inner.rest.length ∧ after'.rest.length < inner'.rest.length) :
    c.Follows (blockWith line) (blockWith line') state state' c.GivesBlock := by
  have inside : c.beyond → 0 < state.deeper.indent := fun _ => Nat.succ_pos _
  have rows : c.Follows (indented (lines line)) (indented (lines line')) state state'
      fun stmts stmts' after after' =>
        stmts.map (Stmt.moved c.left) = stmts'.map (Stmt.moved c.right) ∧
          c.Abreast True c.atLine after after' := by
    apply (lines_follows lawful _ _ h.deeper inside hline).indented
    intro stmts stmts' after after' held
    exact ⟨held.1, held.2.shallower⟩
  apply rows.bind
  rintro body body' after after' _ _ ⟨same, next⟩
  have ends := congrArg List.getLast? same
  rw [List.getLast?_map, List.getLast?_map] at ends
  cases body with
  | nil =>
      cases body' with
      | nil => exact .failHere fun _ _ => rfl
      | cons first' rest' => cases same
  | cons first rest =>
      cases body' with
      | nil => cases same
      | cons first' rest' =>
          have last := List.getLast?_eq_some_getLast (List.cons_ne_nil first rest)
          have last' := List.getLast?_eq_some_getLast (List.cons_ne_nil first' rest')
          rw [last, last', Option.map_some, Option.map_some, Option.some.injEq] at ends
          rw [last, last']
          refine .pure ⟨?_, next⟩
          have start := congrArg (fun stmt => stmt.span.start) (List.cons.inj same).1
          have stop := congrArg (fun stmt => stmt.span.stop) ends
          simp only [Stmt.span_moved] at start stop
          rw [Block.moved, Block.moved, Stmt.listMoved_eq_map, Stmt.listMoved_eq_map, same]
          congr 1
          exact congrArg₂ Span.mk start stop

theorem guarded_follows (hblock : c.BlocksBelow state.rest.length state'.rest.length block block')
    (h : c.Abreast True c.inLine state state') :
    c.Follows (guarded block) (guarded block') state state'
      (c.Gives (Branch.moved c.left) (Branch.moved c.right) c.atLine) := by
  apply (expr_follows lawful h).bind
  rintro condition condition' mid mid' stays stays' ⟨same, here⟩
  have within := stays.rest
  have within' := stays'.rest
  apply (blockStart_follows lawful here).bind
  rintro _ _ begun begun' _ _ ⟨next, shorter, shorter'⟩
  apply (hblock begun begun' (by omega) (by omega) next).bind
  rintro body body' after after' _ _ ⟨sameBody, last⟩
  exact .pure ⟨by rw [Branch.moved, Branch.moved, same, sameBody], last⟩

/-- The branches that an `if` goes on with are read side by side. -/
theorem elifs_follows (hblock : c.BlocksBelow state.rest.length state'.rest.length block block')
    (h : c.Abreast True c.atLine state state') (column : Nat) :
    c.Follows
      (collect do
        modify ParseState.passBlankLines
        if ← atWord column .elifWord then
          discard take
          return some (← guarded block)
        else return none)
      (collect do
        modify ParseState.passBlankLines
        if ← atWord column .elifWord then
          discard take
          return some (← guarded block')
        else return none) state state' fun others others' after after' =>
          others.map (Branch.moved c.left) = others'.map (Branch.moved c.right) ∧
            c.Abreast True c.atNextLine after after' := by
  apply Follows.collect _ _ (c.Abreast True c.atLine) _ _ h
  intro inner inner' bounds bounds' here
  apply (Follows.modify (passes_passBlankLines inner).stays
    (passes_passBlankLines inner').stays).bind
  rintro _ _ _ _ stays stays' ⟨rfl, rfl⟩
  have toLine := stays.rest
  have toLine' := stays'.rest
  apply (atWord_follows lawful (here.passBlankLines lawful) (.inl rfl)).bind
  rintro found _ line line' stays stays' ⟨rfl, ahead⟩
  have toWord := stays.rest
  have toWord' := stays'.rest
  cases found with
  | true =>
      obtain ⟨words, kind⟩ := ahead
      apply (take_follows lawful words (kind ▸ rfl)).discard.bind
      rintro _ _ elsewhere elsewhere' _ _ ⟨_, _, passed⟩
      have passing := passed.shorter
      have passing' := passed.shorter'
      apply (guarded_follows lawful (hblock.mono (by omega) (by omega)) passed.abreast).bind
      rintro branch branch' after after' stays stays' ⟨same, next⟩
      have last := stays.rest
      have last' := stays'.rest
      exact .pure ⟨by omega, by omega, same, next⟩
  | false => exact .pure ahead

theorem branching_follows (hblock : c.BlocksBelow state.rest.length state'.rest.length block block')
    (h : c.Abreast started c.inLine state state') (visible : state.kind.startsLine = true) :
    c.Follows (branching block) (branching block') state state' c.GivesStmt := by
  apply Follows.get_bind
  rw [← h.indent]
  apply (take_follows lawful h visible).bind
  intro word word' taken taken' _ _ passed
  have shorter := passed.shorter
  have shorter' := passed.shorter'
  apply (guarded_follows lawful (hblock.mono (Nat.le_of_lt shorter) (Nat.le_of_lt shorter'))
    passed.abreast).bind
  rintro first first' behind behind' stays stays' ⟨same, here⟩
  have within := stays.rest
  have within' := stays'.rest
  apply (elifs_follows lawful (hblock.mono (by omega) (by omega)) here state.indent).bind
  rintro others others' mid mid' stays stays' ⟨sameOthers, next⟩
  have done := stays.rest
  have done' := stays'.rest
  apply (atWord_follows lawful next (.inr rfl)).bind
  rintro found _ margin margin' stays stays' ⟨rfl, ahead⟩
  have toWord := stays.rest
  have toWord' := stays'.rest
  extract_lets finish finish'
  have finishes : ∀ (body? body?' : Option Block) (last last' : ParseState),
      body?.map (Block.moved c.left) = body?'.map (Block.moved c.right) →
      c.Abreast True c.atLine last last' →
      c.Follows (finish body?) (finish' body?') last last' c.GivesStmt := by
    intro body? body?' last last' sameBody ends
    apply Follows.spanSince_bind
    refine .pure ⟨?_, ends⟩
    have span := ends.spanSince (congrArg Span.start passed.span)
    rw [Stmt.moved, Stmt.moved, Branch.listMoved_eq_map, Branch.listMoved_eq_map, List.map_cons,
      List.map_cons, same, sameOthers, Block.optionMoved_eq_map, Block.optionMoved_eq_map, sameBody,
      span]
  cases found with
  | true =>
      obtain ⟨words, kind⟩ := ahead
      apply (take_follows lawful words (kind ▸ rfl)).discard.bind
      rintro _ _ elsewhere elsewhere' _ _ ⟨_, _, passed⟩
      have passing := passed.shorter
      have passing' := passed.shorter'
      apply (blockStart_follows lawful passed.abreast).bind
      rintro _ _ begun begun' _ _ ⟨ahead, begins, begins'⟩
      apply (hblock begun begun' (by omega) (by omega) ahead).bind
      rintro body body' last last' _ _ ⟨sameBody, ends⟩
      exact finishes (some body) (some body') last last' (congrArg some sameBody) ends
  | false => exact finishes none none margin margin' rfl (ahead.imp And.right)

theorem forLoop_follows (hblock : c.BlocksBelow state.rest.length state'.rest.length block block')
    (h : c.Abreast started c.inLine state state') (visible : state.kind.startsLine = true) :
    c.Follows (forLoop block) (forLoop block') state state' c.GivesStmt := by
  apply (take_follows lawful h visible).bind
  intro word word' taken taken' _ _ passed
  have shorter := passed.shorter
  have shorter' := passed.shorter'
  apply (varDecl_follows lawful passed.abreast).bind
  rintro init init' s₁ s₁' stays₁ stays₁' ⟨sameInit, here⟩
  apply (expect_follows lawful here rfl).discard.bind
  rintro _ _ s₂ s₂' stays₂ stays₂' ⟨_, _, comma⟩
  apply (expr_follows lawful comma.abreast).bind
  rintro condition condition' s₃ s₃' stays₃ stays₃' ⟨sameCondition, here⟩
  apply (expect_follows lawful here rfl).discard.bind
  rintro _ _ s₄ s₄' stays₄ stays₄' ⟨_, _, comma⟩
  apply (expr_follows lawful comma.abreast).bind
  rintro step step' s₅ s₅' stays₅ stays₅' ⟨sameStep, here⟩
  apply (blockStart_follows lawful here).bind
  rintro _ _ begun begun' _ _ ⟨next, begins, begins'⟩
  have header := (((stays₁.trans stays₂).trans stays₃).trans stays₄).trans stays₅
  have header' := (((stays₁'.trans stays₂').trans stays₃').trans stays₄').trans stays₅'
  have within := header.rest
  have within' := header'.rest
  apply (hblock begun begun' (by omega) (by omega) next).bind
  rintro body body' last last' _ _ ⟨sameBody, ends⟩
  apply Follows.spanSince_bind
  refine .pure ⟨?_, ends⟩
  rw [Stmt.moved, Stmt.moved, sameInit, sameCondition, sameStep, sameBody,
    ends.spanSince (congrArg Span.start passed.span)]

theorem whileLoop_follows (hblock : c.BlocksBelow state.rest.length state'.rest.length block block')
    (h : c.Abreast started c.inLine state state') (visible : state.kind.startsLine = true) :
    c.Follows (whileLoop block) (whileLoop block') state state' c.GivesStmt := by
  apply (take_follows lawful h visible).bind
  intro word word' taken taken' _ _ passed
  apply (guarded_follows lawful
    (hblock.mono (Nat.le_of_lt passed.shorter) (Nat.le_of_lt passed.shorter')) passed.abreast).bind
  rintro branch branch' last last' _ _ ⟨same, ends⟩
  apply Follows.spanSince_bind
  refine .pure ⟨?_, ends⟩
  have condition : branch.condition.moved c.left = branch'.condition.moved c.right :=
    congrArg Branch.condition same
  have body : branch.body.moved c.left = branch'.body.moved c.right := congrArg Branch.body same
  rw [Stmt.moved, Stmt.moved, condition, body,
    ends.spanSince (congrArg Span.start passed.span)]

theorem stmtForm_follows (hblock : c.BlocksBelow state.rest.length state'.rest.length block block')
    (h : c.Abreast started c.inLine state state') (visible : state.kind.startsLine = true)
    (form : StmtForm) :
    c.Follows (stmtForm block form) (stmtForm block' form) state state' c.GivesStmt := by
  cases form with
  | branch => exact branching_follows lawful hblock h visible
  | forLoop => exact forLoop_follows lawful hblock h visible
  | whileLoop => exact whileLoop_follows lawful hblock h visible
  | returns =>
      apply (take_follows lawful h visible).bind
      intro word word' taken taken' _ _ passed
      apply (expr_follows lawful passed.abreast).bind
      rintro value value' after after' _ _ ⟨same, next⟩
      apply Follows.spanSince_bind
      refine .pure ⟨?_, next⟩
      rw [Stmt.moved, Stmt.moved, same, next.spanSince (congrArg Span.start passed.span)]
  | breakLoop =>
      apply (take_follows lawful h visible).bind
      intro word word' after after' _ _ passed
      exact .pure ⟨by rw [Stmt.moved, Stmt.moved, passed.span], passed.abreast⟩
  | continueLoop =>
      apply (take_follows lawful h visible).bind
      intro word word' after after' _ _ passed
      exact .pure ⟨by rw [Stmt.moved, Stmt.moved, passed.span], passed.abreast⟩

omit lawful in
/-- The tokens that a statement of its own starts with may start a line. -/
theorem startsLine_of_stmtForm? {kind : TokenKind} {form : StmtForm}
    (h : Grammar.full.stmtForm? kind = some form) : kind.startsLine = true := by
  cases kind <;> first | rfl | cases h

theorem stmtWith_follows (hblock : c.BlocksBelow state.rest.length state'.rest.length block block')
    (h : c.Abreast started c.inLine state state') :
    c.Follows (stmtWith block) (stmtWith block') state state' c.GivesStmt := by
  apply Follows.get_bind
  rw [h.grammar, h.grammar', ← h.kind_congr lawful Grammar.full.stmtForm? rfl]
  split
  · next form found =>
    exact stmtForm_follows lawful hblock h (startsLine_of_stmtForm? found) form
  apply Follows.ite (by rw [h.startsDeclaration_eq lawful])
  · intro starts
    have name := kind_of_startsDeclaration starts
    have place := h.position lawful (name ▸ rfl)
    apply (varDecl_follows lawful h).bind
    rintro decl decl' after after' _ _ ⟨same, next⟩
    apply Follows.spanSince_bind
    refine .pure ⟨?_, next⟩
    rw [Stmt.moved, Stmt.moved, same, next.spanSince place]
  · intro _
    apply (expr_follows lawful h).bind
    rintro value value' after after' _ _ ⟨same, next⟩
    exact .pure ⟨by rw [Stmt.moved, Stmt.moved, same], next⟩

/-- A statement and the end of its line are read side by side. -/
theorem lineOf_follows {stmt stmt' : ParseM Stmt}
    (hstmt : c.Follows stmt stmt' state state' c.GivesStmt) :
    c.Follows (lineOf stmt) (lineOf stmt') state state'
      (c.Gives (Stmt.moved c.left) (Stmt.moved c.right) c.atLine) := by
  apply hstmt.bind
  intro stmt stmt' mid mid' _ _ given
  unfold GivesStmt at given
  by_cases closes : stmt.closesWithBlock = true
  · rw [if_pos closes] at given
    have closes' := congrArg Stmt.closesWithBlock given.1
    rw [Stmt.closesWithBlock_moved, Stmt.closesWithBlock_moved] at closes'
    rw [if_pos closes, if_pos (closes' ▸ closes)]
    exact .pure given
  · rw [if_neg closes] at given
    have closes' := congrArg Stmt.closesWithBlock given.1
    rw [Stmt.closesWithBlock_moved, Stmt.closesWithBlock_moved] at closes'
    rw [if_neg closes, if_neg (closes' ▸ closes)]
    apply (lineEnd_follows lawful given.2).bind
    intro _ _ after after' _ _ next
    exact .pure ⟨given.1, next⟩

end Blocks

/-- Two readers of statements whose blocks nest at most some levels deep agree where fewer tokens are
left. -/
theorem stmtWithin_follows (levels levels' : Nat) (below : state.rest.length < levels)
    (below' : state'.rest.length < levels') (h : c.Abreast started c.inLine state state') :
    c.Follows (stmtWithin levels) (stmtWithin levels') state state' c.GivesStmt := by
  induction levels generalizing levels' started state state' with
  | zero => exact absurd below (Nat.not_lt_zero _)
  | succ levels ih =>
      cases levels' with
      | zero => exact absurd below' (Nat.not_lt_zero _)
      | succ levels' =>
          refine stmtWith_follows lawful ?_ h
          intro block block' inside inside' here
          apply blockWith_follows lawful here
          intro inner inner' within within' here
          have line := lineOf_follows lawful (ih levels' (by omega) (by omega) here)
          apply (line.both here.ready.1 here.ready.2
            (lineOf_safe (stmtWithin_safe levels inner (by omega)))
            (lineOf_safe (stmtWithin_safe levels' inner' (by omega)))).mono
          rintro stmt stmt' after after' _ _ ⟨given, read, read'⟩
          exact ⟨given.1, given.2, read.shorter, read'.shorter⟩

/-- A statement with the end of its line is read side by side, and passes a token. -/
theorem stmtLine_follows (h : c.Abreast started c.inLine state state') :
    c.Follows stmtLine stmtLine state state' fun stmt stmt' after after' =>
      c.Gives (Stmt.moved c.left) (Stmt.moved c.right) c.atLine stmt stmt' after after' ∧
        after.rest.length < state.rest.length ∧ after'.rest.length < state'.rest.length := by
  have stmts : c.Follows stmt stmt state state' c.GivesStmt :=
    .budget_bind (stmtWithin_follows lawful _ _ (Nat.lt_succ_self _) (Nat.lt_succ_self _) h)
  apply ((lineOf_follows lawful stmts).both h.ready.1 h.ready.2 stmtLine_safe stmtLine_safe).mono
  rintro stmt stmt' after after' _ _ ⟨given, read, read'⟩
  exact ⟨given, read.shorter, read'.shorter⟩

/-- A block is read side by side. -/
theorem block_follows (h : c.Abreast True c.atLine state state') :
    c.Follows block block state state' c.GivesBlock := by
  apply blockWith_follows lawful h
  intro inner inner' _ _ here
  apply (stmtLine_follows lawful here).mono
  rintro stmt stmt' after after' _ _ ⟨given, shorter⟩
  exact ⟨given.1, given.2, shorter⟩

end Comparison

end Offside
