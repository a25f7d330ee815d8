import Offside.Source.Bytes
import Offside.Token.Lexeme

/-!
# From a source text to tokens

The text is read lexeme by lexeme. Each character either starts a lexeme or lies inside the one that
was read last, so reading the characters one after the other, with the number of those that are
still inside, needs nothing but recursion on the text.
-/

namespace Offside

namespace Lexeme

/-- The token of a lexeme that starts after `byte` bytes of `file`. -/
def token? (lexeme : Lexeme) (file : String) (byte : Nat) : Option Token :=
  lexeme.kind?.map fun kind =>
    ⟨kind, String.ofList lexeme.value, Span.ofBytes file byte (byteLength lexeme.slice)⟩

end Lexeme

namespace Token

/-- The tokens of a text that starts after `byte` bytes of `file`, of which the first `inside`
characters belong to a lexeme that has been read. -/
def scanFrom (file : String) : (byte inside : Nat) → List Char → Except Error (List Token)
  | byte, _, [] => .ok [endOfInput (Position.ofByte file byte)]
  | byte, inside + 1, c :: rest => scanFrom file (byte + c.utf8Size) inside rest
  | byte, 0, c :: rest =>
    match Lexeme.read c rest with
    | .error cause => .error ⟨cause, Position.ofByte file byte⟩
    | .ok lexeme =>
      match scanFrom file (byte + c.utf8Size) (lexeme.slice.length - 1) rest with
      | .error error => .error error
      | .ok tokens => .ok ((lexeme.token? file byte).toList ++ tokens)

end Token

/-- The tokens of a source text, of which the last and no other marks the end of the input. -/
def Token.scan (source : String) (file : String := Position.defaultFile) :
    Except Error (List Token) :=
  Token.scanFrom file 0 0 source.toList

end Offside
