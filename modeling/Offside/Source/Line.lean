import Offside.Source.Bytes
import Offside.Text.Blank

/-!
# Lines of a source text

A line ends with its line feed; only the last line may be without one. The lines of a text put
together are the text again, and each byte of the text lies in one of them.
-/

namespace Offside

/-- The lines of a text, each with its line feed. -/
def splitLines : List Char → List (List Char)
  | [] => []
  | c :: rest =>
    if c = '\n' then [c] :: splitLines rest
    else
      match splitLines rest with
      | [] => [[c]]
      | line :: lines => (c :: line) :: lines

/-- Putting the lines of a text together gives the text. -/
@[simp] theorem flatten_splitLines (text : List Char) : (splitLines text).flatten = text := by
  induction text with
  | nil => rfl
  | cons c rest ih =>
    simp only [splitLines]
    split
    · simp [ih]
    · split
      · next h => simp_all
      · next h => simp_all

/-- A line of a source text, with a place on it. -/
structure Line where
  /-- The number of the line, from one. -/
  number : Nat
  /-- The text of the line, with its line feed. -/
  text : List Char
  /-- The bytes of the line before the place. -/
  column : Nat
  deriving DecidableEq, Repr, Inhabited

/-- The line that holds a byte, among lines of which the first has a given number. The byte is given
by the number of bytes from the start of the first line. -/
def lineHolding (number byte : Nat) : List (List Char) → Option Line
  | [] => none
  | line :: rest =>
    if byte < byteLength line then some ⟨number, line, byte⟩
    else lineHolding (number + 1) (byte - byteLength line) rest

/-- The place at the end of some lines: behind the last character of the last line that is not
blank. -/
def lastLine (lines : List (List Char)) : Line :=
  match lines.getLast? with
  | none => ⟨1, [], 0⟩
  | some line => ⟨lines.length, line, byteLength (Text.trimEnd line)⟩

/-- The line of a text that holds a byte. The byte after the last counts as the end of the last
line, and no line holds a later one. -/
def lineAt? (content : List Char) (byte : Nat) : Option Line :=
  if byteLength content < byte then none
  else
    let lines := splitLines content
    some ((lineHolding 1 byte lines).getD (lastLine lines))

end Offside
