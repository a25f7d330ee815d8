import Offside.Proofs.Placing.Programs
import Offside.Proofs.Reading.Numbering

/-! # Indentation is nesting

The lines with words that spell a program are the headers of what it is made of, in order, each
indented as deep as it lies.
-/

namespace Offside

open Parse ParseState

section Blocks

mutual

/-- The blocks in a statement. -/
def Stmt.blocks : Stmt → List Block
  | .branch branches otherwise _ => Branch.listBlocks branches ++ Block.optionBlocks otherwise
  | .block body | .forLoop _ _ _ body _ | .whileLoop _ body _ => body.blocks
  | .returns .. | .expression _ | .declare .. | .breakLoop _ | .continueLoop _ => []

/-- A block and the blocks in it. -/
def Block.blocks : Block → List Block
  | ⟨body, span⟩ => ⟨body, span⟩ :: Stmt.listBlocks body

/-- The blocks in some statements. -/
def Stmt.listBlocks : List Stmt → List Block
  | [] => []
  | stmt :: rest => stmt.blocks ++ Stmt.listBlocks rest

/-- The blocks in some branches. -/
def Branch.listBlocks : List Branch → List Block
  | [] => []
  | ⟨_, body⟩ :: rest => body.blocks ++ Branch.listBlocks rest

/-- The blocks in a block that may be missing. -/
def Block.optionBlocks : Option Block → List Block
  | none => []
  | some body => body.blocks

end

/-- The statement blocks of a program. -/
def Program.blocks (program : Program) : List Block :=
  (program.records.flatMap RecordDecl.methods ++ program.functions ++ program.main.toList).flatMap
    (fun function => function.body.blocks) ++ Stmt.listBlocks program.statements

variable {good : TokenKind → String → Prop} {block : Block}

mutual

/-- The blocks in a statement that can be read are not empty. -/
theorem Stmt.Spelled.filled {stmt : Stmt} (spelled : stmt.Spelled good) :
    ∀ block ∈ stmt.blocks, block.body ≠ [] := by
  cases stmt with
  | block body => cases spelled
  | branch branches otherwise span =>
      cases spelled with
      | @branch first others _ _ spelledFirst spelledOthers spelledBody =>
          rw [Stmt.blocks, List.forall_mem_append]
          have all := List.forall_mem_cons.2 ⟨spelledFirst, spelledOthers⟩
          exact ⟨Branch.list_filled (first :: others) all, Block.option_filled otherwise spelledBody⟩
  | forLoop init condition step body span =>
      cases spelled with
      | forLoop _ _ spelled => exact Block.filled body spelled
  | whileLoop condition body span =>
      cases spelled with
      | whileLoop _ spelled => exact Block.filled body spelled
  | returns | expression | declare | breakLoop | continueLoop => exact List.forall_mem_nil _
termination_by sizeOf stmt

theorem Block.filled (block : Block) :
    block.Spelled good → ∀ inner ∈ block.blocks, inner.body ≠ [] := by
  obtain ⟨body, span⟩ := block
  intro spelled
  cases spelled with
  | mk filled spelled =>
      rw [Block.blocks, List.forall_mem_cons]
      exact ⟨filled, Stmt.list_filled body spelled⟩
termination_by sizeOf block

theorem Stmt.list_filled (body : List Stmt) (spelled : ∀ stmt ∈ body, stmt.Spelled good) :
    ∀ block ∈ Stmt.listBlocks body, block.body ≠ [] := by
  cases body with
  | nil => exact List.forall_mem_nil _
  | cons stmt rest =>
      rw [List.forall_mem_cons] at spelled
      rw [Stmt.listBlocks, List.forall_mem_append]
      exact ⟨spelled.1.filled, Stmt.list_filled rest spelled.2⟩
termination_by sizeOf body

theorem Branch.list_filled (branches : List Branch) :
    (∀ branch ∈ branches, branch.Spelled good) →
    ∀ block ∈ Branch.listBlocks branches, block.body ≠ [] := by
  cases branches with
  | nil => exact fun _ => List.forall_mem_nil _
  | cons branch rest =>
      obtain ⟨condition, body⟩ := branch
      intro spelled
      rw [List.forall_mem_cons] at spelled
      cases spelled.1 with
      | mk _ spelledBody =>
          rw [Branch.listBlocks, List.forall_mem_append]
          exact ⟨Block.filled body spelledBody, Branch.list_filled rest spelled.2⟩
termination_by sizeOf branches

theorem Block.option_filled (block? : Option Block) (spelled : ∀ body ∈ block?, body.Spelled good) :
    ∀ block ∈ Block.optionBlocks block?, block.body ≠ [] := by
  cases block? with
  | none => exact List.forall_mem_nil _
  | some body => exact Block.filled body (spelled body rfl)
termination_by sizeOf block?

end

theorem Program.Spelled.filled {program : Program} (spelled : program.Spelled good) :
    ∀ block ∈ program.blocks, block.body ≠ [] := by
  intro block listed
  simp only [blocks, List.mem_append, List.mem_flatMap, Option.mem_toList] at listed
  rcases listed with ⟨function, (⟨record, listed, method⟩ | listed) | listed, inside⟩ | listed
  · exact Block.filled _ ((spelled.records record listed).methods function method).body block inside
  · exact Block.filled _ (spelled.functions function listed).body block inside
  · exact Block.filled _ (spelled.main function listed).body block inside
  · exact Stmt.list_filled _ (fun stmt listed => (spelled.statements stmt listed).1) block listed

end Blocks

/-- Tokens have the same lines with words as those of them that are read. -/
theorem wordLines_ofTokens (tokens : List Token) (file : String) :
    wordLines (ParseState.ofTokens tokens file).rest = wordLines tokens := by
  unfold ParseState.ofTokens
  split
  · next none => rw [List.getLast?_eq_none_iff.1 none]
  next last ends =>
    split
    · next closes =>
      have whole : tokens.dropLast ++ [last] = tokens := List.dropLast_append_getLast? last ends
      have same : linesWithWords (tokens.dropLast ++ [last]) = linesWithWords tokens.dropLast := by
        rw [linesWithWords_append (by rw [closes]; rfl), linesWithWords_nil, List.append_nil]
      rw [whole] at same
      exact congrArg (List.map WordLine.ofLine) same.symm
    · rfl

/-- If some tokens, of which at most the last is the end of the input, spell a program, then their
lines with words are the headers of what the program is made of: those of its items as they stand in
the source, one behind the other. A header starts where its line does behind the blanks, is indented
one step for each block and body of a record type around it, and ends with its line if it has no
block. No block is empty. -/
theorem Program.ofTokens_indented {tokens : List Token} {file : String} {program : Program}
    (inside : ∀ token ∈ tokens.dropLast, token.kind ≠ .eof)
    (h : Program.ofTokens tokens file = .ok program) :
    (∃ items, program.Arranged items ∧
      List.Forall₂ (Header.Heads program.decls) (wordLines tokens)
        (items.flatMap (SourceItem.headers 0))) ∧
    ∀ block ∈ program.blocks, block.body ≠ [] := by
  constructor
  · have arranges := ofTokens_arranges file inside
    rw [h, wordLines_ofTokens] at arranges
    obtain ⟨items, arranged, -, heads⟩ := arranges
    exact ⟨items, arranged, heads⟩
  · have outcome := @ofTokens_outcome (fun _ _ => True) tokens file fun _ _ => trivial
    rw [h] at outcome
    obtain ⟨count, sound⟩ := outcome
    exact sound.spelled.filled

/-- A text with a record type, a method and an `if`, whose lines are indented with spaces or tabs. -/
def indentedText : String :=
  "hotpot Pot\n    size: int = 1\n\n    def a(x: int):\n\t\tx # test\ndef main():\n    if true:\n" ++
    "        (1)\n    elif false:\n        2\n\n    else:\n\t    3\n"

/-- Lines are as deep as they are indented, whether with spaces or with tabs. -/
theorem Program.ofTokens_indented_nested : ∃ tokens program,
    Token.scan indentedText "pots" = .ok tokens ∧ (∀ token ∈ tokens.dropLast, token.kind ≠ .eof) ∧
    Program.ofTokens tokens "pots" = .ok program ∧
    (wordLines tokens).map WordLine.column = [0, 4, 4, 8, 0, 4, 8, 4, 8, 4, 8] ∧
    (∃ items, program.Arranged items ∧
      List.Forall₂ (Header.Heads program.decls) (wordLines tokens)
        (items.flatMap (SourceItem.headers 0))) ∧
    ∀ block ∈ program.blocks, block.body ≠ [] := by
  have columns : (Token.scan indentedText "pots").toOption.map
      (fun tokens => (wordLines tokens).map WordLine.column) =
        some [0, 4, 4, 8, 0, 4, 8, 4, 8, 4, 8] := by
    decide +kernel
  have reads : (Program.ofSource indentedText "pots").isOk = true := by
    decide +kernel
  obtain ⟨program, read⟩ := exists_ok_of_isOk reads
  obtain ⟨tokens, scanned, spelled⟩ := Program.exists_tokens_of_ofSource read
  obtain ⟨inside, -⟩ := ofTokens_of_scan scanned
  rw [scanned] at columns
  exact ⟨tokens, program, scanned, inside, spelled, Option.some.inj columns,
    Program.ofTokens_indented inside spelled⟩

end Offside
