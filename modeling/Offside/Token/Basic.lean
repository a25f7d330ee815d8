import Offside.Source.Position
import Offside.Token.Operator

/-!
# Tokens

A token is a kind, a value and the stretch of source it was read from. Blanks and line breaks are
tokens too, since the layout of a program decides how it nests; comments are not.
-/

namespace Offside

/-- The kinds of tokens. -/
inductive TokenKind where
  /-- The end of the input. -/
  | eof
  | int
  | float
  | identifier
  /-- Reserved: no spelling denotes it. -/
  | char
  | string
  | operator (op : Operator)
  | colon
  | comma
  /-- Three points. -/
  | ellipsis
  /-- Two points and a less-than sign. -/
  | ellipsisLess
  | openParen
  | closeParen
  | openBracket
  | closeBracket
  | dot
  /-- One space. -/
  | space
  | tab
  | newline
  /-- A character that starts no token of the language. -/
  | unknown
  | forWord
  | ifWord
  | elseWord
  | elifWord
  | inWord
  | whileWord
  | returnWord
  | breakWord
  | continueWord
  | trueWord
  | falseWord
  | nullWord
  | defWord
  | hotpotWord
  deriving DecidableEq, Repr, Inhabited

namespace TokenKind

/-- Every kind of token, once. -/
def all : List TokenKind :=
  [eof, int, float, identifier, char, string] ++ Operator.all.map operator ++
  [colon, comma, ellipsis, ellipsisLess, openParen, closeParen, openBracket, closeBracket, dot,
    space, tab, newline, unknown, forWord, ifWord, elseWord, elifWord, inWord, whileWord,
    returnWord, breakWord, continueWord, trueWord, falseWord, nullWord, defWord, hotpotWord]

/-- The name of a kind, as messages show it. -/
def name : TokenKind → String
  | eof => "EOF"
  | int => "Int"
  | float => "Float"
  | identifier => "Identifier"
  | char => "Char"
  | string => "String"
  | operator op => "Operator(" ++ op.symbol ++ ")"
  | colon => "Colon"
  | comma => "Comma"
  | ellipsis => "Ellipsis"
  | ellipsisLess => "EllipsisLess"
  | openParen => "OpenParen"
  | closeParen => "CloseParen"
  | openBracket => "OpenBracket"
  | closeBracket => "CloseBracket"
  | dot => "Dot"
  | space => "Whitespace"
  | tab => "Tab"
  | newline => "NewLine"
  | unknown => "Unknown"
  | forWord => "For"
  | ifWord => "If"
  | elseWord => "Else"
  | elifWord => "Elif"
  | inWord => "In"
  | whileWord => "While"
  | returnWord => "Return"
  | breakWord => "Break"
  | continueWord => "Continue"
  | trueWord => "True"
  | falseWord => "False"
  | nullWord => "Null"
  | defWord => "Def"
  | hotpotWord => "Hotpot"

/-- The kind with a given name. -/
def ofName? (text : String) : Option TokenKind :=
  all.find? fun kind => kind.name == text

/-- The reserved words with the kinds they denote. -/
def keywords : List (String × TokenKind) :=
  [("for", forWord), ("if", ifWord), ("else", elseWord), ("elif", elifWord), ("in", inWord),
    ("while", whileWord), ("return", returnWord), ("break", breakWord),
    ("continue", continueWord), ("true", trueWord), ("false", falseWord), ("null", nullWord),
    ("def", defWord), ("hotpot", hotpotWord)]

/-- The kind a reserved word denotes. -/
def ofKeyword? (word : String) : Option TokenKind :=
  keywords.lookup word

/-- Whether a kind is space inside a line, which separates tokens and means nothing else. -/
def isBlank : TokenKind → Bool
  | space | tab => true
  | _ => false

/-- Whether a token of this kind shows its value in a summary. -/
def showsValue : TokenKind → Bool
  | string | identifier | int | float | unknown => true
  | _ => false

end TokenKind

/-- A token of a source text. -/
structure Token where
  /-- What sort of token it is. -/
  kind : TokenKind
  /-- The text it stands for: its spelling, or the content of a string. -/
  value : String
  /-- Where it was read. -/
  span : Span
  deriving DecidableEq, Repr, Inhabited

namespace Token

/-- The token that ends every token list, at a given place. -/
def endOfInput (place : Position) : Token :=
  ⟨.eof, "EOF", ⟨place, place⟩⟩

/-- What a message calls the token. -/
def designation (token : Token) : String :=
  match token.kind with
  | .newline => "newline"
  | .eof => "end of input"
  | _ => token.value

/-- The token written out with its parts named. -/
def text (token : Token) : String :=
  "Token \x7b\nkind: " ++ token.kind.name ++ ",\nvalue: " ++ token.value ++ "\x7d"

/-- One line about the token: its kind and, where it varies, its value. -/
def summary (token : Token) : String :=
  token.kind.name ++ " (" ++ (if token.kind.showsValue then token.value else "") ++ ")"

end Token

end Offside
