import Offside.Error
import Offside.Number.Digits
import Offside.Token.Basic

/-!
# Lexemes

A lexeme is the stretch of text at the front of a source that the lexer reads in one go: a comment,
a line break, a word, a number, a string, an operator, a mark, or a single character that means
nothing. `Lexeme.read` finds it from the first character and what follows it; each class of lexemes
is as long as it can be.
-/

namespace Offside

/-- A lexeme read from the front of a text. -/
structure Lexeme where
  /-- The kind of its token. A comment has none. -/
  kind? : Option TokenKind
  /-- The value of its token. -/
  value : List Char
  /-- The stretch of text it takes up. -/
  slice : List Char
  deriving DecidableEq, Repr, Inhabited

namespace Lexeme

/-- A lexeme whose value is its spelling. -/
def spelled (kind : TokenKind) (slice : List Char) : Lexeme :=
  ⟨some kind, slice, slice⟩

/-- Whether a character breaks a line. -/
def isLineBreak (c : Char) : Bool :=
  c == '\n' || c == '\r'

/-- Whether a character may start a word: an ASCII letter or the underscore. -/
def isWordStart (c : Char) : Bool :=
  c.isAlpha || c == '_'

/-- Whether a character may stand inside a word. -/
def isWordPart (c : Char) : Bool :=
  isWordStart c || c.isDigit

/-- Whether a character may stand inside a number. Letters are read with it, and refused later. -/
def isNumberPart (c : Char) : Bool :=
  isWordPart c || c == '.'

/-- Whether a character opens a string. -/
def isQuote (c : Char) : Bool :=
  c == '\x22' || c == '\x27'

/-- Whether a character may stand in an operator. -/
def isOperatorPart (c : Char) : Bool :=
  "~*+-/<>=%^|&!".toList.contains c

/-- A comment reaches up to the end of its line. -/
def comment (mark : Char) (rest : List Char) : Lexeme :=
  ⟨none, [], mark :: rest.takeWhile fun c => !isLineBreak c⟩

/-- A carriage return and a line feed after it are one line break. -/
def lineBreak (first : Char) (rest : List Char) : Lexeme :=
  match first, rest with
  | '\r', '\n' :: _ => spelled .newline ['\r', '\n']
  | _, _ => spelled .newline [first]

/-- A word is a keyword or else an identifier. -/
def word (first : Char) (rest : List Char) : Lexeme :=
  let slice := first :: rest.takeWhile isWordPart
  spelled ((TokenKind.ofKeyword? (String.ofList slice)).getD .identifier) slice

/-- The greatest magnitude of an integer literal. It fits only behind a minus sign. -/
def greatestMagnitude : Nat := 0x8000000000000000

/-- The kind of a number, if its spelling is one: digits alone up to the greatest magnitude, or
digits around one point, of which those behind it may be missing. -/
def numberKind? (slice : List Char) : Option TokenKind :=
  let whole := slice.takeWhile fun c => c != '.'
  if whole.all Char.isDigit then
    match slice.dropWhile fun c => c != '.' with
    | [] => if Number.digitsValue whole ≤ greatestMagnitude then some .int else none
    | _ :: fraction => if fraction.all Char.isDigit then some .float else none
  else none

/-- A number takes up every letter, digit, underscore and point that follows. -/
def number (first : Char) (rest : List Char) : Except ErrorCause Lexeme :=
  let slice := first :: rest.takeWhile isNumberPart
  match numberKind? slice with
  | some kind => .ok (spelled kind slice)
  | none => .error (.numberParseError (String.ofList slice))

/-- A string ends at the next quote of its own sort. It may reach over several lines. -/
def string (quote : Char) (rest : List Char) : Except ErrorCause Lexeme :=
  let content := rest.takeWhile fun c => c != quote
  match rest.dropWhile fun c => c != quote with
  | [] => .error (.unterminatedString (String.ofList [quote]))
  | _ :: _ => .ok ⟨some .string, content, quote :: content ++ [quote]⟩

/-- An operator of one character. -/
def shortOperator (first : Char) : Except ErrorCause Lexeme :=
  match Operator.ofSymbol? (String.ofList [first]) with
  | some operator => .ok (spelled (.operator operator) [first])
  | none => .error (.unknownOperator (String.ofList [first]))

/-- An operator of two characters if there is one, and otherwise of one character. -/
def operator (first : Char) (rest : List Char) : Except ErrorCause Lexeme :=
  match rest with
  | second :: _ =>
    if isOperatorPart second then
      match Operator.ofSymbol? (String.ofList [first, second]) with
      | some operator => .ok (spelled (.operator operator) [first, second])
      | none => shortOperator first
    else shortOperator first
  | [] => shortOperator first

/-- One point, or an ellipsis. -/
def dots (rest : List Char) : Lexeme :=
  match rest with
  | '.' :: '.' :: _ => spelled .ellipsis ['.', '.', '.']
  | '.' :: '<' :: _ => spelled .ellipsisLess ['.', '.', '<']
  | _ => spelled .dot ['.']

/-- The tokens that are one fixed character. -/
def mark? : Char → Option TokenKind
  | ' ' => some .space
  | '\t' => some .tab
  | ':' => some .colon
  | ',' => some .comma
  | '(' => some .openParen
  | ')' => some .closeParen
  | '[' => some .openBracket
  | ']' => some .closeBracket
  | _ => none

/-- The lexeme at the front of a text that starts with `first`. -/
def read (first : Char) (rest : List Char) : Except ErrorCause Lexeme :=
  if first = '#' then .ok (comment first rest)
  else if isLineBreak first then .ok (lineBreak first rest)
  else if isWordStart first then .ok (word first rest)
  else if first.isDigit then number first rest
  else if isQuote first then string first rest
  else if isOperatorPart first then operator first rest
  else if first = '.' then .ok (dots rest)
  else .ok (spelled ((mark? first).getD .unknown) [first])

end Lexeme

end Offside
