import Offside.Proofs.Reading.Rows

/-! # Canonical printing

A program is printed as words, one construct to a line. Operands and receivers stand in parentheses
whatever they are, so that no precedence matters. Record types come first, then functions, the entry
point, global variables and free statements.

How floating-point numbers are written is a parameter. The sign is written apart from the number.
-/

namespace Offside

open Word

namespace Number.Binary64

/-- Whether the sign of a number is a minus. -/
def isNegative (number : Binary64) : Bool :=
  0x8000000000000000 ≤ number.bits

/-- A number without its sign. -/
def magnitude (number : Binary64) : Binary64 :=
  if number.isNegative then number.negate else number

end Number.Binary64

/-- The words of a type. -/
def DataType.words : DataType → List Word
  | .array element => mark .openBracket :: words element ++ [mark .closeBracket]
  | .null => [mark .nullWord]
  | type => [Word.name type.text]

/-- The words of a type are spelled as the type is. -/
theorem DataType.listText_words (type : DataType) : listText type.words = type.text.toList := by
  cases type with
  | array element =>
      have ih := DataType.listText_words element
      rw [words, List.cons_append, listText_cons, listText_append, ih, text]
      simp [Word.text, mark, TokenKind.spelling]
  | _ => simp [words, Word.text, mark, Word.name, TokenKind.spelling, text]
termination_by sizeOf type

section Printing

variable (decimal : Number.Binary64 → String)

/-- The words of a constant. -/
def Literal.words : Literal → List Word
  | .null => [mark .nullWord]
  | .int value =>
    if value < 0 then [mark (.operator .minus), natural value.natAbs]
    else [natural value.natAbs]
  | .float value =>
    if value.isNegative then [mark (.operator .minus), ⟨.float, decimal value.magnitude⟩]
    else [⟨.float, decimal value.magnitude⟩]
  | .bool value => [mark (if value then .trueWord else .falseWord)]
  | .string value => [⟨.string, value⟩]

mutual

/-- The words of an expression. -/
def Expr.words : Expr → List Word
  | .literal value _ => value.words decimal
  | .array values _ =>
    mark .openBracket :: separated (Expr.listWords values) ++ [mark .closeBracket]
  | .reference name _ => [Word.name name]
  | .binary operator left right _ =>
    mark .openParen :: Expr.words left ++ mark .closeParen :: mark .space ::
      mark (.operator operator) :: mark .space :: mark .openParen :: Expr.words right ++
      [mark .closeParen]
  | .unary operator operand _ =>
    mark (.operator operator) :: mark .openParen :: Expr.words operand ++ [mark .closeParen]
  | .call callee args _ =>
    Word.name callee.text :: mark .openParen :: separated (Arg.listWords args) ++
      [mark .closeParen]
  | .method receiver callee args _ =>
    mark .openParen :: Expr.words receiver ++ mark .closeParen :: mark .dot ::
      Word.name callee.text :: mark .openParen :: separated (Arg.listWords args) ++
      [mark .closeParen]
  | .property receiver member _ =>
    mark .openParen :: Expr.words receiver ++ [mark .closeParen, mark .dot, Word.name member.text]

/-- The words of each of some expressions. -/
def Expr.listWords : List Expr → List (List Word)
  | [] => []
  | value :: rest => Expr.words value :: Expr.listWords rest

/-- The words of each of some arguments. -/
def Arg.listWords : List Arg → List (List Word)
  | [] => []
  | ⟨label, value⟩ :: rest =>
    (Word.name label.text :: mark .colon :: mark .space :: Expr.words value) ::
      Arg.listWords rest

end

theorem Expr.listWords_eq_map (values : List Expr) :
    Expr.listWords decimal values = values.map (Expr.words decimal) := by
  induction values with
  | nil => rfl
  | cons value rest ih => rw [Expr.listWords, ih, List.map_cons]

/-- The words of an argument. -/
def Arg.words (arg : Arg) : List Word :=
  Word.name arg.label.text :: mark .colon :: mark .space :: arg.value.words decimal

theorem Arg.listWords_eq_map (args : List Arg) :
    Arg.listWords decimal args = args.map (Arg.words decimal) := by
  induction args with
  | nil => rfl
  | cons arg rest ih =>
      cases arg with
      | mk label value => rw [Arg.listWords, ih, List.map_cons, Arg.words]

/-- The words of a declaration. -/
def VarDecl.words (decl : VarDecl) : List Word :=
  Word.name decl.name :: mark .colon :: mark .space :: decl.type.words ++
    match decl.init with
    | none => []
    | some init => mark .space :: mark (.operator .assign) :: mark .space :: init.words decimal

variable (program : Program)

/-- The words of the declaration with a handle. -/
def VarId.words (id : VarId) : List Word :=
  ((program.decl? id).map (VarDecl.words decimal)).getD []

mutual

/-- The words of a statement at a level of nesting, from behind its margin to the end of its last
line. -/
def Stmt.words (level : Nat) : Stmt → List Word
  | .block body => Block.words level body
  | .returns value _ => mark .returnWord :: mark .space :: value.words decimal ++ [mark .newline]
  | .branch branches otherwise _ =>
    Branch.listWords level [mark .ifWord] branches ++ Block.otherwiseWords level otherwise
  | .forLoop init condition step body _ =>
    mark .forWord :: mark .space :: init.words decimal program ++ mark .comma :: mark .space ::
      condition.words decimal ++ mark .comma :: mark .space :: step.words decimal ++
      mark .colon :: mark .newline :: Block.words (level + 1) body
  | .whileLoop condition body _ =>
    mark .whileWord :: mark .space :: condition.words decimal ++ mark .colon :: mark .newline ::
      Block.words (level + 1) body
  | .expression value => value.words decimal ++ [mark .newline]
  | .declare decl _ => decl.words decimal program ++ [mark .newline]
  | .breakLoop _ => [mark .breakWord, mark .newline]
  | .continueLoop _ => [mark .continueWord, mark .newline]

/-- The words of the lines of a block. -/
def Block.words (level : Nat) : Block → List Word
  | ⟨body, _⟩ => Stmt.listWords level body

/-- The words of some lines. -/
def Stmt.listWords (level : Nat) : List Stmt → List Word
  | [] => []
  | stmt :: rest => margin level ++ Stmt.words level stmt ++ Stmt.listWords level rest

/-- The words of some branches, of which the first opens in a way of its own. -/
def Branch.listWords (level : Nat) (opening : List Word) : List Branch → List Word
  | [] => []
  | ⟨condition, body⟩ :: rest =>
    opening ++ mark .space :: condition.words decimal ++ mark .colon :: mark .newline ::
      Block.words (level + 1) body ++
      Branch.listWords level (margin level ++ [mark .elifWord]) rest

/-- The words of an `else`, if there is one. -/
def Block.otherwiseWords (level : Nat) : Option Block → List Word
  | none => []
  | some body =>
    margin level ++ mark .elseWord :: mark .colon :: mark .newline :: Block.words (level + 1) body

end

theorem Stmt.listWords_eq_flatMap (level : Nat) (stmts : List Stmt) :
    Stmt.listWords decimal program level stmts =
      stmts.flatMap fun stmt => margin level ++ stmt.words decimal program level := by
  induction stmts with
  | nil => rfl
  | cons stmt rest ih => rw [Stmt.listWords, ih, List.flatMap_cons]

/-- The words of a function at a level of nesting, from behind its margin on. -/
def Function.words (level : Nat) (function : Function) : List Word :=
  mark .defWord :: mark .space :: Word.name function.name :: mark .openParen ::
    separated (function.signature.params.map fun param => param.decl.words decimal program) ++
    mark .closeParen :: mark .colon :: mark .space :: function.signature.returnType.words ++
    mark .newline :: function.body.words decimal program (level + 1)

/-- The words of the name of a parent. -/
def parentWords : Option Name → List Word
  | none => []
  | some parent => [mark .colon, mark .space, Word.name parent.text]

/-- The words of a record type. Its properties come before its methods. -/
def RecordDecl.words (record : RecordDecl) : List Word :=
  mark .hotpotWord :: mark .space :: Word.name record.name :: parentWords record.parent ++
    mark .newline ::
    record.properties.flatMap (fun id =>
      margin 1 ++ id.words decimal program ++ [mark .newline]) ++
    record.methods.flatMap fun method => margin 1 ++ method.words decimal program 1

/-- The words of a program. -/
def Program.words : List Word :=
  program.records.flatMap (RecordDecl.words decimal program) ++
    program.functions.flatMap (Function.words decimal program 0) ++
    program.main.toList.flatMap (Function.words decimal program 0) ++
    program.globals.flatMap (fun id => id.words decimal program ++ [mark .newline]) ++
    program.statements.flatMap (Stmt.words decimal program 0)

/-- The canonical text of a program. -/
def Program.printed : String :=
  String.ofList (listText (program.words decimal))

end Printing

end Offside
