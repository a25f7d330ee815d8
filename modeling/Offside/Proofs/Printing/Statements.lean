import Offside.Proofs.Printing.Declarations

/-! # Printed statements are read back

A statement is read back in front of a line that is outside of it. Its blocks are one step further
in, so that no line of a block is taken for one that goes on with the statement.
-/

namespace Offside

open Parse ParseState Word TokenKind

section Heads

variable {decimal : Number.Binary64 → String} {program : Program} {state : ParseState}
  {tail : List Word}

/-- Whether a kind of token starts statements other than declarations. -/
def TokenKind.startsStmt (kind : TokenKind) : Prop :=
  (Grammar.full.stmtForm? kind).isSome ∨ (Grammar.full.operandForm? kind).isSome

theorem startsLine_of_startsStmt {kind : TokenKind} (h : kind.startsStmt) :
    kind.startsLine = true := by
  cases kind with
  | eof | space | tab | newline => rcases h with h | h <;> cases h
  | _ => rfl

theorem ne_of_startsStmt {kind other : TokenKind} (h : kind.startsStmt)
    (starts : Grammar.full.stmtForm? other = none ∧ Grammar.full.operandForm? other = none) :
    kind ≠ other := by
  rintro rfl
  rw [TokenKind.startsStmt, starts.1, starts.2] at h
  rcases h with h | h <;> cases h

/-- A statement starts with a token that starts statements, or with the name that it declares. -/
theorem Stmt.Spelled.head {stmt : Stmt} (spelled : stmt.Spelled Admits)
    (found : ∀ id ∈ stmt.handles, ∃ decl, program.decl? id = some decl) (level : Nat) :
    ∃ word rest, stmt.words decimal program level = word :: rest ∧ word.kind.startsStmt := by
  cases spelled with
  | expression spelled =>
      obtain ⟨word, rest, words, starts⟩ := spelled.head decimal
      exact ⟨word, rest ++ [mark newline], by rw [Stmt.words, words, List.cons_append], .inr starts⟩
  | @declare decl span =>
      obtain ⟨found, declared⟩ := found decl (by simp [Stmt.handles])
      obtain ⟨rest, words⟩ := VarId.head decimal declared
      rw [Stmt.words, words]
      exact ⟨_, _, rfl, .inr rfl⟩
  | @branch first others otherwise span _ _ _ =>
      obtain ⟨condition, body⟩ := first
      exact ⟨_, _, rfl, .inl rfl⟩
  | _ => exact ⟨_, _, rfl, .inl rfl⟩

theorem stmtForm?_of_operandForm? {kind : TokenKind}
    (h : (Grammar.full.operandForm? kind).isSome) : Grammar.full.stmtForm? kind = none := by
  cases kind <;> first | rfl | cases h

/-- An expression is not taken for a declaration. -/
theorem Expr.Spelled.not_startsDeclaration {good : TokenKind → String → Prop} {value : Expr}
    (spelled : value.Spelled Admits) (ready : state.Ready good)
    (words : state.words = value.words decimal ++ mark newline :: tail) :
    state.startsDeclaration = false := by
  rw [startsDeclaration_eq ready, words]
  cases spelled with
  | @literal value span _ =>
      cases value with
      | bool value => cases value <;> rfl
      | int value =>
          by_cases negative : value < 0
          · rw [Expr.words, Literal.words, if_pos negative]
            rfl
          · rw [Expr.words, Literal.words, if_neg negative]
            rfl
      | float value =>
          by_cases negative : value.isNegative = true
          · rw [Expr.words, Literal.words, if_pos negative]
            rfl
          · rw [Expr.words, Literal.words, if_neg negative]
            rfl
      | _ => rfl
  | _ => rfl

/-- A statement that declares nothing itself is not taken for a declaration. -/
theorem Stmt.Spelled.not_startsDeclaration {good : TokenKind → String → Prop} {stmt : Stmt}
    (spelled : stmt.Spelled Admits) (silent : stmt.declared? = none) (ready : state.Ready good)
    {level : Nat} (words : state.words = stmt.words decimal program level ++ tail) :
    state.startsDeclaration = false := by
  cases spelled with
  | declare => cases silent
  | expression spelled =>
      rw [Stmt.words, List.append_assoc] at words
      exact spelled.not_startsDeclaration ready words
  | @branch first _ _ _ =>
      obtain ⟨condition, body⟩ := first
      rw [startsDeclaration_eq ready, words]
      rfl
  | _ =>
      rw [startsDeclaration_eq ready, words]
      rfl

end Heads

section Simple

variable {decimal : Number.Binary64 → String} {program : Program} {ρ : Renaming}
  {state : ParseState} {tail : List Word} {block : ParseM Block}

/-- The words behind a statement, before the end of its line if it does not end with a block. -/
def Stmt.behind (stmt : Stmt) (tail : List Word) : List Word :=
  if stmt.closesWithBlock then tail else mark newline :: tail

/-- A statement has been read back, up to some words. -/
structure Stmt.ReadBack (program : Program) (ρ : Renaming) (state : ParseState) (stmt : Stmt)
    (tail : List Word) (stmt' : Stmt) (after : ParseState) : Prop where
  same : stmt'.renamed .same = stmt.renamed ρ
  words : after.words = tail
  redeclares : Redeclares program ρ state stmt.handles 0 after

/-- A block has been read back, up to some words. -/
structure Block.ReadBack (program : Program) (ρ : Renaming) (state : ParseState) (block : Block)
    (tail : List Word) (block' : Block) (after : ParseState) : Prop where
  same : block'.renamed .same = block.renamed ρ
  words : after.words = tail
  redeclares : Redeclares program ρ state block.handles 0 after

/-- A statement that starts with a word of its own is read in the form that the word starts. -/
theorem stmtWith_reads_form {form : StmtForm} {returns : Stmt → ParseState → Prop}
    (starts : Grammar.full.stmtForm? (headKind state.words) = some form)
    (hform : Reads Leads (stmtForm block form) state returns) :
    Reads Leads (stmtWith block) state returns := by
  intro ready
  refine Runs.get_bind ?_ ready
  rw [ready.grammar, ready.kind_eq, starts]
  exact hform

theorem stmtWith_reads_expression (faithful : Faithful decimal) {value : Expr}
    (spelled : value.Spelled Admits)
    (words : state.words = value.words decimal ++ mark newline :: tail) :
    Reads Leads (stmtWith block) state
      (Stmt.ReadBack program ρ state (.expression value) (mark newline :: tail)) := by
  intro ready
  refine Runs.get_bind ?_ ready
  obtain ⟨word, rest, printed, starts⟩ := spelled.head decimal
  have kind : state.kind = word.kind := by
    rw [ready.kind_eq, words, printed]
    rfl
  rw [ready.grammar, kind, stmtForm?_of_operandForm? starts]
  simp only [spelled.not_startsDeclaration ready words, Bool.false_eq_true, if_false]
  apply (expr_reads faithful spelled words rfl).lift.bind
  intro value' after _ read
  obtain ⟨passes, kept, words⟩ := read
  exact .pure ⟨by rw [Stmt.renamed, Stmt.renamed, kept], words, .of_passes passes⟩

theorem stmtWith_reads_declare (faithful : Faithful decimal) {decl : VarId} {span : Span}
    (due : Due program ρ state [decl])
    (words : state.words = decl.words decimal program ++ mark newline :: tail) :
    Reads Leads (stmtWith block) state
      (Stmt.ReadBack program ρ state (.declare decl span) (mark newline :: tail)) := by
  intro ready
  refine Runs.get_bind ?_ ready
  obtain ⟨found, declared, _⟩ := due.found decl (by simp)
  obtain ⟨rest, printed⟩ := VarId.head decimal declared
  have ahead := words
  rw [printed] at ahead
  have kind : state.kind = identifier := by
    rw [ready.kind_eq, ahead]
    rfl
  have starts : state.startsDeclaration = true := by
    rw [startsDeclaration_eq ready, ahead]
    rfl
  rw [ready.grammar, kind]
  simp only [Grammar.full, starts, if_true]
  apply (varDecl_reads faithful due words rfl (by simp [mark])).bind
  intro decl' after _ read
  obtain ⟨rfl, redeclares, words⟩ := read
  apply Runs.spanSince_bind
  intro span
  exact .pure ⟨rfl, words, redeclares⟩

theorem returns_reads (faithful : Faithful decimal) {value : Expr} {span : Span}
    (spelled : value.Spelled Admits)
    (words : state.words =
      mark returnWord :: mark space :: (value.words decimal ++ mark newline :: tail)) :
    Reads Leads returns state
      (Stmt.ReadBack program ρ state (.returns value span) (mark newline :: tail)) := by
  apply (take_reads words (by simp [mark])).lift.bind
  intro word mid _ taken
  obtain ⟨passes, _, ahead⟩ := taken
  rw [skip_cons_of_blank rfl, spelled.skip_words] at ahead
  apply (expr_reads faithful spelled ahead rfl).lift.bind
  intro value' after _ read
  obtain ⟨passes', kept, words⟩ := read
  apply Runs.spanSince_bind
  intro span
  exact .pure ⟨by rw [Stmt.renamed, Stmt.renamed, kept], words, .of_passes (passes.trans passes')⟩

theorem breakLoop_reads {span : Span} (words : state.words = mark breakWord :: mark newline :: tail) :
    Reads Leads breakLoop state
      (Stmt.ReadBack program ρ state (.breakLoop span) (mark newline :: tail)) := by
  apply (take_reads words (by simp [mark])).lift.bind
  intro word after _ taken
  obtain ⟨passes, _, words⟩ := taken
  exact .pure ⟨rfl, words, .of_passes passes⟩

theorem continueLoop_reads {span : Span}
    (words : state.words = mark continueWord :: mark newline :: tail) :
    Reads Leads continueLoop state
      (Stmt.ReadBack program ρ state (.continueLoop span) (mark newline :: tail)) := by
  apply (take_reads words (by simp [mark])).lift.bind
  intro word after _ taken
  obtain ⟨passes, _, words⟩ := taken
  exact .pure ⟨rfl, words, .of_passes passes⟩

end Simple

section Blocks

variable {decimal : Number.Binary64 → String} {program : Program} {ρ : Renaming}
  {state : ParseState} {tail : List Word} {block : ParseM Block} {level bound : Nat}

/-- The next line is not inside a block at a level of nesting. -/
abbrev Outside (level : Nat) : List Word → Prop :=
  NextLine fun level' _ => level' < level

theorem After.outside {words : List Word} (h : After level words) : Outside (level + 1) words :=
  h.mono fun _ _ before => Nat.lt_succ_of_le (before.elim Nat.le_of_lt fun here => here.1.le)

variable (decimal program ρ) in
/-- Where fewer words than a bound are left, a reader reads printed blocks back. -/
def ReadsBlocks (bound : Nat) (reader : ParseM Block) : Prop :=
  ∀ (block : Block) (level : Nat) (state : ParseState) (tail : List Word),
    state.words.length < bound → block.Spelled Admits → Due program ρ state block.handles →
    state.words = block.words decimal program (level + 1) ++ tail →
    state.indent = stepWidth * level → Outside (level + 1) tail →
    Reads Leads reader state (Block.ReadBack program ρ state block tail)

theorem ReadsBlocks.mono {least : Nat} {reader : ParseM Block}
    (h : ReadsBlocks decimal program ρ bound reader) (le : least ≤ bound) :
    ReadsBlocks decimal program ρ least reader :=
  fun block level state tail below => h block level state tail (Nat.lt_of_lt_of_le below le)

/-- A reader of statements with the ends of their lines reads printed ones back, wherever no more
words than a bound are left. -/
def ReadsLines (decimal : Number.Binary64 → String) (program : Program) (ρ : Renaming)
    (bound level : Nat) (reader : ParseM Stmt) : Prop :=
  ∀ (stmt : Stmt) (state : ParseState) (tail : List Word),
    state.words.length ≤ bound → stmt.Spelled Admits → Due program ρ state stmt.handles →
    state.words = stmt.words decimal program level ++ tail →
    state.indent = stepWidth * level → After level tail →
    Reads Leads reader state (Stmt.ReadBack program ρ state stmt tail)

/-- A printed block is read back if its lines are. -/
theorem blockWith_reads {line : ParseM Stmt} {body : Block}
    (hline : ReadsLines decimal program ρ state.words.length (level + 1) line)
    (spelled : body.Spelled Admits) (due : Due program ρ state body.handles)
    (words : state.words = body.words decimal program (level + 1) ++ tail)
    (indent : state.indent = stepWidth * level) (outside : Outside (level + 1) tail) :
    Reads Leads (blockWith line) state (Block.ReadBack program ρ state body tail) := by
  cases spelled with
  | @mk stmts span nonempty spelled =>
      rw [Block.words, Stmt.listWords_eq_flatMap] at words
      have deeper : state.deeper.indent = stepWidth * (level + 1) := by
        rw [Nat.mul_succ, ← indent]
        rfl
      have inside : Reads Leads (lines line) state.deeper fun stmts' after =>
          after.words = tail ∧ stmts'.map (Stmt.renamed .same) = stmts.map (Stmt.renamed ρ) ∧
            Redeclares program ρ state.deeper (Stmt.listHandles stmts) 0 after := by
        apply lines_reads (fun stmt => stmt.words decimal program (level + 1))
          (fun sources items after =>
            items.map (Stmt.renamed .same) = sources.map (Stmt.renamed ρ) ∧
              Redeclares program ρ state.deeper (Stmt.listHandles sources) 0 after)
        · intro sources items mid after passes held
          exact ⟨held.1, held.2.before_passes passes⟩
        · intro stmt listed
          have found : ∀ id ∈ stmt.handles, ∃ decl, program.decl? id = some decl := by
            intro id held
            apply due.declared
            rw [Block.handles, Stmt.listHandles_eq_flatMap]
            exact List.mem_flatMap_of_mem listed held
          obtain ⟨word, rest, words, starts⟩ := (spelled stmt listed).head found (level + 1)
          exact ⟨word, rest, words, startsLine_of_startsStmt starts,
            ne_of_startsStmt starts ⟨rfl, rfl⟩, ne_of_startsStmt starts ⟨rfl, rfl⟩⟩
        · intro front stmt back items inner behind all within indent words after held
          rw [← length_words, ← length_words] at within
          have split : Stmt.listHandles stmts =
              Stmt.listHandles front ++ (stmt.handles ++ Stmt.listHandles back) := by
            simp [all, Stmt.listHandles_eq_flatMap]
          rw [Block.handles, split] at due
          replace due := due.deeper
          apply (hline stmt inner behind within (spelled stmt (by simp [all]))
            (due.right held.2).left words indent after).mono
          intro stmt' last _ read
          refine ⟨read.words, ?_, ?_⟩
          · simp only [List.map_append, List.map_cons, List.map_nil, held.1, read.same]
          · have both := held.2.trans read.redeclares
            simpa [Stmt.listHandles_eq_flatMap] using both
        · exact words
        · exact outside
        · exact deeper
        · exact ⟨rfl, .nothing rfl rfl⟩
      have block : Reads Leads (indented (lines line)) state fun stmts' after =>
          after.words = tail ∧ stmts'.map (Stmt.renamed .same) = stmts.map (Stmt.renamed ρ) ∧
            Redeclares program ρ state (Stmt.listHandles stmts) 0 after :=
        Runs.indented inside fun stmts' after read => ⟨read.1, read.2.1, read.2.2.indented⟩
      apply block.bind
      intro stmts' after _ read
      obtain ⟨words, same, redeclares⟩ := read
      cases stmts' with
      | nil => exact absurd (List.map_eq_nil_iff.1 same.symm) nonempty
      | cons first rest =>
          rw [List.head?_cons, List.getLast?_cons]
          refine .pure ⟨?_, words, redeclares⟩
          rw [Block.renamed, Block.renamed, Stmt.listRenamed_eq_map, Stmt.listRenamed_eq_map, same]

/-- A printed condition is read back with the block behind it. -/
theorem guarded_reads (faithful : Faithful decimal)
    (hblock : ReadsBlocks decimal program ρ state.words.length block) {condition : Expr}
    {body : Block} (spelled : condition.Spelled Admits) (spelledBody : body.Spelled Admits)
    (due : Due program ρ state body.handles)
    (words : state.words = condition.words decimal ++ mark colon :: mark newline ::
      (body.words decimal program (level + 1) ++ tail))
    (indent : state.indent = stepWidth * level) (outside : Outside (level + 1) tail) :
    Reads Leads (guarded block) state fun branch after =>
      branch.renamed .same = Branch.renamed ρ ⟨condition, body⟩ ∧ after.words = tail ∧
        Redeclares program ρ state body.handles 0 after := by
  apply (expr_reads faithful spelled words rfl).lift.bind
  intro condition' mid _ read
  obtain ⟨toColon, kept, ahead⟩ := read
  apply (blockStart_reads ahead).lift.bind
  intro _ begun _ read
  obtain ⟨toBlock, ahead⟩ := read
  have passes := toColon.trans toBlock
  have below : begun.words.length < state.words.length := by
    rw [words, ahead]
    simp
    omega
  apply (hblock body level begun tail below spelledBody (due.passes passes) ahead
    (passes.indent.trans indent) outside).bind
  intro body' after _ read
  refine .pure ⟨?_, read.words, read.redeclares.after_passes passes⟩
  rw [Branch.renamed, Branch.renamed, kept, read.same]

/-- The lines that go on with an `if` are not inside its blocks. -/
theorem outside_branches (others : List Branch)
    (next : NextLine (fun level' kind => level' < level ∨ level' = level ∧ kind ≠ elifWord) tail) :
    Outside (level + 1)
      (Branch.listWords decimal program level (margin level ++ [mark elifWord]) others ++ tail) := by
  cases others with
  | nil =>
      rw [Branch.listWords, List.nil_append]
      exact next.mono fun _ _ before => Nat.lt_succ_of_le (before.elim Nat.le_of_lt fun here => here.1.le)
  | cons branch rest =>
      obtain ⟨condition, body⟩ := branch
      simp only [Branch.listWords, List.cons_append, List.append_assoc, List.nil_append]
      exact .line (Nat.lt_succ_self level) rfl

/-- Printed `elif` branches are read back. -/
theorem elifs_reads (faithful : Faithful decimal)
    (hblock : ReadsBlocks decimal program ρ bound block) (within : state.words.length ≤ bound)
    {others : List Branch} (spelled : ∀ branch ∈ others, branch.Spelled Admits)
    (due : Due program ρ state (Branch.listHandles others))
    (words : state.words =
      Branch.listWords decimal program level (margin level ++ [mark elifWord]) others ++ tail)
    (next : NextLine (fun level' kind => level' < level ∨ level' = level ∧ kind ≠ elifWord) tail)
    (indent : state.indent = stepWidth * level) :
    Reads Leads (collect do
        modify ParseState.passBlankLines
        if ← atWord (stepWidth * level) .elifWord then
          discard take
          return some (← guarded block)
        else return none) state fun others' after =>
      others'.map (Branch.renamed .same) = others.map (Branch.renamed ρ) ∧ after.words = tail ∧
        Redeclares program ρ state (Branch.listHandles others) 0 after := by
  apply Runs.collect fun others' inner => ∃ front back, others = front ++ back ∧
    others'.map (Branch.renamed .same) = front.map (Branch.renamed ρ) ∧
    inner.words =
      Branch.listWords decimal program level (margin level ++ [mark elifWord]) back ++ tail ∧
    inner.indent = stepWidth * level ∧
    Redeclares program ρ state (Branch.listHandles front) 0 inner
  · intro others' inner fewer kept
    obtain ⟨front, back, all, same, words, indent, redeclares⟩ := kept
    apply (Runs.modify (passes_passBlankLines inner)).bind
    intro _ line _ unchanged
    rw [passBlankLines_of_nextLine (words ▸ outside_branches back next)] at unchanged
    subst unchanged
    cases back with
    | nil =>
        rw [Branch.listWords, List.nil_append] at words
        rw [List.append_nil] at all
        have other : NextLine (fun level' kind => ¬ (level' = level ∧ kind = elifWord))
            line.words := by
          rw [words]
          apply next.mono
          intro level' kind before both
          rcases before with less | here
          · exact absurd both.1 (Nat.ne_of_lt less)
          · exact here.2 both.2
        apply (atWord_reads_other (by simp) other).lift.bind
        intro found after _ read
        obtain ⟨passes, rfl, ahead⟩ := read
        exact .pure ⟨all ▸ same, ahead.trans words, all ▸ redeclares.before_passes passes⟩
    | cons branch back =>
        obtain ⟨condition, body⟩ := branch
        have outside : Outside (level + 1) (Branch.listWords decimal program level
            (margin level ++ [mark elifWord]) back ++ tail) := outside_branches back next
        simp only [Branch.listWords, List.cons_append, List.append_assoc, List.nil_append] at words
        apply (atWord_reads words rfl rfl).lift.bind
        intro found elif _ read
        obtain ⟨toWord, rfl, ahead⟩ := read
        apply (take_reads ahead (by simp [mark])).lift.discard.bind
        intro _ mid _ taken
        obtain ⟨_, toCondition, _, ahead⟩ := taken
        have spelled := spelled ⟨condition, body⟩ (by simp [all])
        cases spelled with
        | mk spelledCondition spelledBody =>
            rw [skip_cons_of_blank rfl, spelledCondition.skip_words] at ahead
            have passes := toWord.trans toCondition
            have shorter : mid.words.length < line.words.length := by
              rw [ahead, words]
              simp
              omega
            have fits : mid.words.length ≤ bound := by
              rw [← length_words, ← length_words] at fewer
              omega
            have split : Branch.listHandles others =
                Branch.listHandles front ++ (body.handles ++ Branch.listHandles back) := by
              simp [all, Branch.listHandles_eq_flatMap]
            rw [split] at due
            apply (guarded_reads faithful (hblock.mono fits) spelledCondition spelledBody
              ((due.right redeclares).left.passes passes) ahead (passes.indent.trans indent)
              outside).bind
            intro branch after leads read
            obtain ⟨kept, ahead, grown⟩ := read
            refine .pure ⟨?_, front ++ [⟨condition, body⟩], back, ?_, ?_, ahead, ?_, ?_⟩
            · have := leads.rest.length_le
              rw [length_words, length_words] at shorter
              omega
            · rw [all, List.append_assoc]
              rfl
            · simp only [List.map_append, same, List.map_cons, List.map_nil, kept]
            · exact leads.indent.trans (passes.indent.trans indent)
            · have both := redeclares.trans (grown.after_passes passes)
              simpa [Branch.listHandles_eq_flatMap] using both
  · exact ⟨[], others, rfl, rfl, words, indent, .nothing rfl rfl⟩

/-- A line that goes on with an `if` after its branches is no branch. -/
theorem next_otherwise (otherwise : Option Block) (after : After level tail) :
    NextLine (fun level' kind => level' < level ∨ level' = level ∧ kind ≠ elifWord)
      (Block.otherwiseWords decimal program level otherwise ++ tail) := by
  cases otherwise with
  | none => exact after.mono fun _ _ before => before.imp_right fun here => ⟨here.1, here.2.1⟩
  | some body =>
      simp only [Block.otherwiseWords, List.cons_append, List.append_assoc]
      exact .line (.inr ⟨rfl, by simp [mark]⟩) rfl

/-- A printed `if` is read back with the lines that go on with it. -/
theorem branching_reads (faithful : Faithful decimal)
    (hblock : ReadsBlocks decimal program ρ state.words.length block) {first : Branch}
    {others : List Branch} {otherwise : Option Block} {span : Span}
    (spelled : (Stmt.branch (first :: others) otherwise span).Spelled Admits)
    (due : Due program ρ state (Stmt.branch (first :: others) otherwise span).handles)
    (words : state.words =
      (Stmt.branch (first :: others) otherwise span).words decimal program level ++ tail)
    (indent : state.indent = stepWidth * level) (after : After level tail) :
    Reads Leads (branching block) state
      (Stmt.ReadBack program ρ state (.branch (first :: others) otherwise span) tail) := by
  obtain ⟨condition, body⟩ := first
  cases spelled with
  | branch spelledFirst spelledOthers spelledOtherwise =>
      cases spelledFirst with
      | mk spelledCondition spelledBody =>
          simp only [Stmt.words, Branch.listWords, List.cons_append, List.append_assoc,
            List.nil_append] at words
          simp only [Stmt.handles, Branch.listHandles, List.append_assoc] at due
          have next : NextLine (fun level' kind => level' < level ∨ level' = level ∧ kind ≠ elifWord)
              (Block.otherwiseWords decimal program level otherwise ++ tail) :=
            next_otherwise otherwise after
          apply Runs.get_bind
          rw [indent]
          apply (take_reads words (by simp [mark])).lift.bind
          intro word mid _ taken
          obtain ⟨toCondition, _, ahead⟩ := taken
          rw [skip_cons_of_blank rfl, spelledCondition.skip_words] at ahead
          have shorter : mid.words.length < state.words.length := by
            rw [ahead, words]
            simp only [List.length_cons, List.length_append]
            omega
          apply (guarded_reads faithful (hblock.mono (Nat.le_of_lt shorter)) spelledCondition
            spelledBody (due.left.passes toCondition) ahead (toCondition.indent.trans indent)
            (outside_branches others next)).bind
          intro first behind leads read
          obtain ⟨keptFirst, ahead, grown⟩ := read
          replace due := due.right (grown.after_passes toCondition)
          have within := leads.rest.length_le
          rw [← length_words, ← length_words] at within
          apply (elifs_reads faithful hblock (Nat.le_trans within (Nat.le_of_lt shorter))
            spelledOthers due.left ahead next
            (leads.indent.trans (toCondition.indent.trans indent))).bind
          intro others' last leads' read
          obtain ⟨keptOthers, ahead, grown'⟩ := read
          replace due := due.right grown'
          have finishes : ∀ otherwise' inner, inner.words = tail →
              otherwise'.map (Block.renamed .same) = otherwise.map (Block.renamed ρ) →
              Redeclares program ρ last (Block.optionHandles otherwise) 0 inner →
              Reads Leads
                (do return .branch (first :: others') otherwise' (← spanSince word.span.start))
                inner (Stmt.ReadBack program ρ state
                  (.branch (⟨condition, body⟩ :: others) otherwise span) tail) := by
            intro otherwise' inner words keptOtherwise grown''
            apply Runs.spanSince_bind
            intro span
            refine .pure ⟨?_, words, ?_⟩
            · simp only [Stmt.renamed, Branch.listRenamed_eq_map, Block.optionRenamed_eq_map,
                List.map_cons, keptFirst, keptOthers, keptOtherwise]
            · have all := (grown.after_passes toCondition).trans (grown'.trans grown'')
              simpa only [Stmt.handles, Branch.listHandles, List.append_assoc] using all
          cases otherwise with
          | none =>
              rw [Block.otherwiseWords, List.nil_append] at ahead
              have other : NextLine (fun level' kind => ¬ (level' = level ∧ kind = elseWord))
                  last.words := by
                rw [ahead]
                apply after.mono
                intro level' kind before both
                rcases before with less | here
                · exact absurd both.1 (Nat.ne_of_lt less)
                · exact here.2.2 both.2
              apply (atWord_reads_other (by simp) other).lift.bind
              intro found margin _ read
              obtain ⟨toWord, rfl, same⟩ := read
              exact finishes none margin (same.trans ahead) rfl (.of_passes toWord)
          | some body' =>
              simp only [Block.otherwiseWords, List.cons_append, List.append_assoc] at ahead
              apply (atWord_reads ahead rfl rfl).lift.bind
              intro found elseLine _ read
              obtain ⟨toWord, rfl, words⟩ := read
              apply (take_reads words (by simp [mark])).lift.discard.bind
              intro _ colon _ taken
              obtain ⟨_, toColon, _, words⟩ := taken
              rw [skip_of_not_blank rfl] at words
              apply (blockStart_reads words).lift.bind
              intro _ begun _ read
              obtain ⟨toBlock, words⟩ := read
              have passes := (toWord.trans toColon).trans toBlock
              have below : begun.words.length < state.words.length := by
                have fewer := (leads.trans (leads'.trans passes.leads)).rest.length_le
                rw [← length_words, ← length_words] at fewer
                exact Nat.lt_of_le_of_lt fewer shorter
              have indent : begun.indent = stepWidth * level :=
                (leads.trans (leads'.trans passes.leads)).indent.trans
                  (toCondition.indent.trans indent)
              apply (hblock body' level begun tail below (spelledOtherwise body' rfl)
                (due.passes passes) words indent after.outside).bind
              intro body'' inner _ read
              exact finishes (some body'') inner read.words (by simp [read.same])
                (read.redeclares.after_passes passes)

/-- A printed `while` is read back. -/
theorem whileLoop_reads (faithful : Faithful decimal)
    (hblock : ReadsBlocks decimal program ρ state.words.length block) {condition : Expr}
    {body : Block} {span : Span} (spelled : condition.Spelled Admits)
    (spelledBody : body.Spelled Admits) (due : Due program ρ state body.handles)
    (words : state.words = mark whileWord :: mark space :: (condition.words decimal ++
      mark colon :: mark newline :: (body.words decimal program (level + 1) ++ tail)))
    (indent : state.indent = stepWidth * level) (after : After level tail) :
    Reads Leads (whileLoop block) state
      (Stmt.ReadBack program ρ state (.whileLoop condition body span) tail) := by
  apply (take_reads words (by simp [mark])).lift.bind
  intro word mid _ taken
  obtain ⟨passes, _, ahead⟩ := taken
  rw [skip_cons_of_blank rfl, spelled.skip_words] at ahead
  have shorter : mid.words.length ≤ state.words.length := by
    rw [ahead, words]
    exact Nat.le_add_right _ 2
  apply (guarded_reads faithful (hblock.mono shorter) spelled spelledBody (due.passes passes) ahead
    (passes.indent.trans indent) after.outside).bind
  intro branch last _ read
  obtain ⟨same, words, redeclares⟩ := read
  apply Runs.spanSince_bind
  intro span
  rw [Branch.renamed, Branch.renamed, Branch.mk.injEq] at same
  refine .pure ⟨?_, words, redeclares.after_passes passes⟩
  rw [Stmt.renamed, Stmt.renamed, same.1, same.2]

/-- A printed `for` is read back. -/
theorem forLoop_reads (faithful : Faithful decimal)
    (hblock : ReadsBlocks decimal program ρ state.words.length block) {init : VarId}
    {condition step : Expr} {body : Block} {span : Span} (spelled : condition.Spelled Admits)
    (spelledStep : step.Spelled Admits) (spelledBody : body.Spelled Admits)
    (due : Due program ρ state ([init] ++ body.handles))
    (words : state.words = mark forWord :: mark space :: (init.words decimal program ++
      mark comma :: mark space :: (condition.words decimal ++ mark comma :: mark space ::
        (step.words decimal ++ mark colon :: mark newline ::
          (body.words decimal program (level + 1) ++ tail)))))
    (indent : state.indent = stepWidth * level) (after : After level tail) :
    Reads Leads (forLoop block) state
      (Stmt.ReadBack program ρ state (.forLoop init condition step body span) tail) := by
  apply (take_reads words (by simp [mark])).lift.bind
  intro word s₁ leads₁ taken
  obtain ⟨passes, _, ahead⟩ := taken
  obtain ⟨decl, found, _⟩ := due.found init (by simp)
  rw [skip_cons_of_blank rfl, VarId.skip_words found] at ahead
  apply (varDecl_reads faithful (due.left.passes passes) ahead rfl (by simp [mark])).bind
  intro init' s₂ leads₂ read
  obtain ⟨rfl, declared, ahead⟩ := read
  apply (mark_reads ahead (by simp)).lift.bind
  intro _ s₃ leads₃ read
  obtain ⟨toCondition, ahead⟩ := read
  rw [skip_cons_of_blank rfl, spelled.skip_words] at ahead
  apply (expr_reads faithful spelled ahead rfl).lift.bind
  intro condition' s₄ leads₄ read
  obtain ⟨toComma, kept, ahead⟩ := read
  apply (mark_reads ahead (by simp)).lift.bind
  intro _ s₅ leads₅ read
  obtain ⟨toStep, ahead⟩ := read
  rw [skip_cons_of_blank rfl, spelledStep.skip_words] at ahead
  apply (expr_reads faithful spelledStep ahead rfl).lift.bind
  intro step' s₆ leads₆ read
  obtain ⟨toColon, keptStep, ahead⟩ := read
  apply (blockStart_reads ahead).lift.bind
  intro _ s₇ leads₇ read
  obtain ⟨toBlock, ahead⟩ := read
  have header := (((toCondition.trans toComma).trans toStep).trans toColon).trans toBlock
  replace declared := declared.after_passes passes
  have below : s₇.words.length < state.words.length := by
    rw [ahead, words]
    simp
    omega
  have indent : s₇.indent = stepWidth * level :=
    header.indent.trans (leads₂.indent.trans (leads₁.indent.trans indent))
  apply (hblock body level s₇ tail below spelledBody ((due.right declared).passes header) ahead
    indent after.outside).bind
  intro body' last _ read
  apply Runs.spanSince_bind
  intro span
  refine .pure ⟨?_, read.words, declared.trans (read.redeclares.after_passes header)⟩
  rw [Stmt.renamed, Stmt.renamed, kept, keptStep, read.same]
  rfl

/-- A printed statement is read back, up to the end of its line if it does not end with a block. -/
theorem stmtWith_reads (faithful : Faithful decimal)
    (hblock : ReadsBlocks decimal program ρ state.words.length block) {stmt : Stmt}
    (spelled : stmt.Spelled Admits) (due : Due program ρ state stmt.handles)
    (words : state.words = stmt.words decimal program level ++ tail)
    (indent : state.indent = stepWidth * level) (after : After level tail) :
    Reads Leads (stmtWith block) state
      (Stmt.ReadBack program ρ state stmt (stmt.behind tail)) := by
  have whole := spelled
  cases spelled with
  | @branch first _ _ _ =>
      obtain ⟨condition, body⟩ := first
      apply stmtWith_reads_form (by rw [words]; rfl)
      exact branching_reads faithful hblock whole due words indent after
  | forLoop spelledCondition spelledStep spelledBody =>
      simp only [Stmt.words, List.cons_append, List.append_assoc] at words
      apply stmtWith_reads_form (by rw [words]; rfl)
      exact forLoop_reads faithful hblock spelledCondition spelledStep spelledBody due words indent
        after
  | whileLoop spelledCondition spelledBody =>
      simp only [Stmt.words, List.cons_append, List.append_assoc] at words
      apply stmtWith_reads_form (by rw [words]; rfl)
      exact whileLoop_reads faithful hblock spelledCondition spelledBody due words indent after
  | returns spelled =>
      simp only [Stmt.words, List.cons_append, List.append_assoc, List.nil_append] at words
      apply stmtWith_reads_form (by rw [words]; rfl)
      exact returns_reads faithful spelled words
  | expression spelled =>
      rw [Stmt.words, List.append_assoc] at words
      exact stmtWith_reads_expression faithful spelled words
  | declare =>
      rw [Stmt.words, List.append_assoc] at words
      exact stmtWith_reads_declare faithful due words
  | breakLoop =>
      apply stmtWith_reads_form (by rw [words]; rfl)
      exact breakLoop_reads words
  | continueLoop =>
      apply stmtWith_reads_form (by rw [words]; rfl)
      exact continueLoop_reads words

/-- A printed statement is read back with the end of its line. -/
theorem lineOf_reads {reader : ParseM Stmt} {stmt : Stmt}
    (hstmt : Reads Leads reader state
      (Stmt.ReadBack program ρ state stmt (stmt.behind tail))) :
    Reads Leads (lineOf reader) state (Stmt.ReadBack program ρ state stmt tail) := by
  apply hstmt.bind
  intro stmt' mid _ read
  have closes : stmt'.closesWithBlock = stmt.closesWithBlock := by
    rw [← Stmt.closesWithBlock_renamed .same stmt', read.same, Stmt.closesWithBlock_renamed]
  have words := read.words
  rw [Stmt.behind] at words
  rw [closes]
  split
  · next block =>
    rw [if_pos block] at words
    exact .pure ⟨read.same, words, read.redeclares⟩
  · next line =>
    rw [if_neg line] at words
    apply (lineEnd_reads words).lift.bind
    intro _ after _ ended
    exact .pure ⟨read.same, ended.2, read.redeclares.before_passes ended.1⟩

end Blocks

section Lines

variable {decimal : Number.Binary64 → String} {program : Program} {ρ : Renaming}

/-- Readers of statements whose blocks nest at most some levels deep read printed statements back
where fewer words are left. -/
theorem stmtWithin_reads (faithful : Faithful decimal) {stmt : Stmt} {state : ParseState}
    {tail : List Word} {level : Nat} (levels : Nat) (below : state.words.length < levels)
    (spelled : stmt.Spelled Admits) (due : Due program ρ state stmt.handles)
    (words : state.words = stmt.words decimal program level ++ tail)
    (indent : state.indent = stepWidth * level) (after : After level tail) :
    Reads Leads (stmtWithin levels) state
      (Stmt.ReadBack program ρ state stmt (stmt.behind tail)) := by
  induction levels generalizing stmt state tail level with
  | zero => exact absurd below (Nat.not_lt_zero _)
  | succ levels ih =>
      apply stmtWith_reads faithful _ spelled due words indent after
      intro block level inner tail shorter spelled due words indent outside
      apply blockWith_reads _ spelled due words indent outside
      intro stmt line tail within spelled due words indent after
      exact lineOf_reads (ih (by omega) spelled due words indent after)

theorem stmtLine_reads (faithful : Faithful decimal) (bound level : Nat) :
    ReadsLines decimal program ρ bound level stmtLine := by
  intro stmt state tail _ spelled due words indent after
  apply lineOf_reads
  apply Runs.budget_bind
  rw [← length_words]
  exact stmtWithin_reads faithful _ (Nat.lt_succ_self _) spelled due words indent after

theorem block_reads (faithful : Faithful decimal) {body : Block} {state : ParseState}
    {tail : List Word} {level : Nat} (spelled : body.Spelled Admits)
    (due : Due program ρ state body.handles)
    (words : state.words = body.words decimal program (level + 1) ++ tail)
    (indent : state.indent = stepWidth * level) (outside : Outside (level + 1) tail) :
    Reads Leads block state (Block.ReadBack program ρ state body tail) :=
  blockWith_reads (stmtLine_reads faithful _ _) spelled due words indent outside

end Lines

end Offside
