import Mathlib.Data.List.Forall2
import Offside.Proofs.Placing.Taking

/-! # Headers and lines

What a program is made of has lines of its own: a global variable or a property is one, and so is a
statement without blocks; anything else starts with one, its header, and each `elif` and `else` of
an `if` is another. A header is as deep as there are blocks and bodies of record types around it.
Here headers are laid out over lines of tokens.
-/

namespace Offside

open Parse ParseState Outline

/-- What stands on a line with words. -/
inductive Construct where
  | function (function : Function)
  | record (record : RecordDecl)
  /-- A global variable, or a property of a record type. -/
  | variable (id : VarId)
  | stmt (stmt : Stmt)
  | elif (branch : Branch)
  | otherwise (body : Block)

/-- The first line of something, or the only one. -/
structure Header where
  /-- The number of blocks and bodies of record types around it. -/
  depth : Nat
  /-- What it is the first line of. -/
  construct : Construct

mutual

/-- The headers in a statement, in order. -/
def Stmt.headers (depth : Nat) : Stmt → List Header
  | node@(.branch branches otherwise _) =>
    ⟨depth, .stmt node⟩ ::
      (Branch.headersBelow depth branches ++ Block.headersOtherwise depth otherwise)
  | node@(.forLoop _ _ _ body _) | node@(.whileLoop _ body _) | node@(.block body) =>
    ⟨depth, .stmt node⟩ :: body.headers (depth + 1)
  | node@(.returns ..) | node@(.expression _) | node@(.declare ..) | node@(.breakLoop _)
  | node@(.continueLoop _) => [⟨depth, .stmt node⟩]

/-- The headers in a block. -/
def Block.headers (depth : Nat) : Block → List Header
  | ⟨body, _⟩ => Stmt.listHeaders depth body

/-- The headers in some statements. -/
def Stmt.listHeaders (depth : Nat) : List Stmt → List Header
  | [] => []
  | stmt :: rest => stmt.headers depth ++ Stmt.listHeaders depth rest

/-- The headers in some branches, of which the first belongs to the `if` and the others are `elif`.
-/
def Branch.headersBelow (depth : Nat) : List Branch → List Header
  | [] => []
  | ⟨_, body⟩ :: rest => body.headers (depth + 1) ++ Branch.headersElif depth rest

/-- The headers in some branches that are `elif`. -/
def Branch.headersElif (depth : Nat) : List Branch → List Header
  | [] => []
  | ⟨condition, body⟩ :: rest =>
    ⟨depth, .elif ⟨condition, body⟩⟩ ::
      (body.headers (depth + 1) ++ Branch.headersElif depth rest)

/-- The headers in an `else`, if there is one. -/
def Block.headersOtherwise (depth : Nat) : Option Block → List Header
  | none => []
  | some body => ⟨depth, .otherwise body⟩ :: body.headers (depth + 1)

end

/-- The headers in a function. -/
def Function.headers (depth : Nat) (function : Function) : List Header :=
  ⟨depth, .function function⟩ :: function.body.headers (depth + 1)

/-- The headers in a member of a record type. -/
def Parse.Member.headers (depth : Nat) : Parse.Member → List Header
  | .property id => [⟨depth, .variable id⟩]
  | .method function => function.headers depth

/-- The headers in a record type with its members in a given order. -/
def RecordDecl.headers (depth : Nat) (record : RecordDecl) (members : List Parse.Member) :
    List Header :=
  ⟨depth, .record record⟩ :: members.flatMap (Parse.Member.headers (depth + 1))

theorem Stmt.listHeaders_eq_flatMap (depth : Nat) (stmts : List Stmt) :
    Stmt.listHeaders depth stmts = stmts.flatMap (Stmt.headers depth) := by
  induction stmts with
  | nil => rfl
  | cons stmt rest ih => rw [Stmt.listHeaders, ih, List.flatMap_cons]

theorem Branch.headersElif_eq_flatMap (depth : Nat) (branches : List Branch) :
    Branch.headersElif depth branches = branches.flatMap fun branch =>
      ⟨depth, .elif branch⟩ :: branch.body.headers (depth + 1) := by
  induction branches with
  | nil => rfl
  | cons branch rest ih =>
      cases branch with
      | mk condition body => rw [Branch.headersElif, ih, List.flatMap_cons, List.cons_append]

/-- Some words start with a word of a certain kind, where a stretch of source starts. -/
def StartsWith (words : List Token) (kind : TokenKind) (span : Span) : Prop :=
  ∃ first rest, words = first :: rest ∧ first.kind = kind ∧ first.span.start = span.start

/-- What some words of a line say of a construct: it starts with the first of them, the parts in its
header lie in them, and if it has no block, it ends with the last of them. -/
def Construct.OnWords (decls : Array VarDecl) (words : List Token) : Construct → Prop
  | .function declared =>
    StartsWith words .defWord declared.span ∧ (declared.signature.outline decls).Covers words
  | .record declared =>
    StartsWith words .hotpotWord declared.span ∧
      LieIn (declared.parent.toList.map Name.outline) words ∧
      (declared.properties = [] → declared.methods = [] → declared.span.GoesOver words)
  | .variable id => (id.outline decls).Covers words
  | .stmt (.block _) => False
  | .stmt (.returns value span) =>
    StartsWith words .returnWord span ∧ (Outline.node span [value.outline]).Covers words
  | .stmt (.branch branches _ span) =>
    StartsWith words .ifWord span ∧ ∃ first others, branches = first :: others ∧
      LieIn [first.condition.outline] words
  | .stmt (.forLoop init condition step _ span) =>
    StartsWith words .forWord span ∧
      LieIn [init.outline decls, condition.outline, step.outline] words
  | .stmt (.whileLoop condition _ span) =>
    StartsWith words .whileWord span ∧ LieIn [condition.outline] words
  | .stmt (.expression value) => value.outline.Over words
  | .stmt (.declare id span) => (Outline.node span [id.outline decls]).Covers words
  | .stmt (.breakLoop span) => StartsWith words .breakWord span ∧ span.GoesOver words
  | .stmt (.continueLoop span) => StartsWith words .continueWord span ∧ span.GoesOver words
  | .elif branch => ∃ first rest, words = first :: rest ∧ first.kind = .elifWord ∧
    LieIn [branch.condition.outline] rest
  | .otherwise _ => words.map Token.kind = [.elseWord, .colon]

/-- A line with words: the columns before the first of them, and the words. -/
structure WordLine where
  column : Nat
  words : List Token

/-- A line with its words, where it has any. -/
def WordLine.ofLine (line : List Token) : WordLine :=
  ⟨width (line.takeWhile fun token => token.kind.isBlank), solid line⟩

/-- The lines of some tokens that have words. -/
def wordLines (tokens : List Token) : List WordLine :=
  (linesWithWords tokens).map WordLine.ofLine

/-- A line is a header: it is indented as deep as it lies, and its words are those of a construct. -/
structure Header.Heads (decls : Array VarDecl) (line : WordLine) (header : Header) : Prop where
  column : line.column = stepWidth * header.depth
  words : header.construct.OnWords decls line.words

/-- The lines from some place on up to another one are some headers. -/
def LaysOut (decls : Array VarDecl) (rest behind : List Token) (headers : List Header) : Prop :=
  ∃ lines, wordLines rest = lines ++ wordLines behind ∧
    List.Forall₂ (Header.Heads decls) lines headers

/-- The lines from some place on up to another one are some headers, where the first line starts at a
column and its blanks have been passed. -/
def LaysOutFrom (decls : Array VarDecl) (column : Nat) (rest behind : List Token)
    (headers : List Header) : Prop :=
  ∃ line next lines, Splits rest line next ∧ wordLines next = lines ++ wordLines behind ∧
    List.Forall₂ (Header.Heads decls) (⟨column, solid line⟩ :: lines) headers

section Lines

variable {decls : Array VarDecl} {rest next behind line : List Token} {headers others : List Header}
  {column : Nat} {header : Header}

theorem LaysOut.nil (same : wordLines rest = wordLines behind) : LaysOut decls rest behind [] :=
  ⟨[], same, .nil⟩

theorem LaysOut.append (h : LaysOut decls rest next headers)
    (h' : LaysOut decls next behind others) :
    LaysOut decls rest behind (headers ++ others) := by
  obtain ⟨lines, same, heads⟩ := h
  obtain ⟨more, same', heads'⟩ := h'
  exact ⟨lines ++ more, by rw [same, same', List.append_assoc], List.rel_append heads heads'⟩

/-- A header in front of the lines that follow it. -/
theorem LaysOutFrom.cons (splits : Splits rest line next)
    (heads : header.Heads decls ⟨column, solid line⟩) (h : LaysOut decls next behind headers) :
    LaysOutFrom decls column rest behind (header :: headers) := by
  obtain ⟨lines, same, heads'⟩ := h
  exact ⟨line, next, lines, splits, same, .cons heads heads'⟩

theorem LaysOutFrom.single (splits : Splits rest line behind)
    (heads : header.Heads decls ⟨column, solid line⟩) :
    LaysOutFrom decls column rest behind [header] :=
  .cons splits heads (.nil rfl)

/-- A line that starts with a word goes on with it. -/
theorem Splits.exists_cons {token : Token} (h : Splits (token :: rest) line next)
    (word : token.kind.startsLine = true) : ∃ more, line = token :: more := by
  obtain ⟨plain, ends, same, ending⟩ := h
  cases line with
  | cons first more => exact ⟨more, by rw [List.cons_append, List.cons.injEq] at same; rw [same.1]⟩
  | nil =>
      rw [List.nil_append] at same
      subst same
      cases ending with
      | newline newline =>
          rw [newline] at word
          cases word

/-- Where the blanks of a line have been passed, it starts in front of them. -/
theorem LaysOutFrom.laysOut {margin : List Token} {token : Token} {more : List Token}
    (h : LaysOutFrom decls (width margin) (token :: more) behind headers)
    (blank : ∀ token ∈ margin, token.kind.isBlank = true) (word : token.kind.startsLine = true)
    (same : wordLines rest = wordLines (margin ++ token :: more)) :
    LaysOut decls rest behind headers := by
  obtain ⟨line, next, lines, splits, same', heads⟩ := h
  obtain ⟨line, rfl⟩ := splits.exists_cons word
  have visible := isBlank_of_startsLine word
  have whole : Splits (margin ++ token :: more) (margin ++ token :: line) next :=
    splits.prepend fun token listed => endsLine_of_isBlank (blank token listed)
  have first :
      WordLine.ofLine (margin ++ token :: line) = ⟨width margin, solid (token :: line)⟩ := by
    have passed :
        (margin ++ token :: line).takeWhile (fun token => token.kind.isBlank) = margin := by
      rw [List.takeWhile_append_of_pos blank, List.takeWhile_cons, visible]
      simp
    rw [WordLine.ofLine, passed, solid_append, solid_of_blanks blank, List.nil_append]
  refine ⟨⟨width margin, solid (token :: line)⟩ :: lines, ?_, heads⟩
  rw [same, wordLines, whole.linesWithWords ⟨token, by simp, visible⟩, List.map_cons, first,
    List.cons_append, ← same', wordLines]

end Lines

end Offside
