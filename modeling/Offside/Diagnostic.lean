import Offside.Error
import Offside.Source.Line

/-!
# Diagnostics

A diagnostic shows an error as text: its name and tip, the file, and the line it shows at, under
which a caret stands at the place. Spaces and tabs at the start of the line are left out.
-/

namespace Offside.Diagnostic

/-- Whether a character is indentation. -/
def isIndentation (c : Char) : Bool :=
  c == ' ' || c == '\t'

/-- A text moved to the right edge of a column of a certain width. -/
def padLeft (fill : Char) (width : Nat) (text : List Char) : List Char :=
  List.replicate (width - text.length) fill ++ text

/-- The name of an error, with its tip if it has one. -/
def heading (error : Error) : List Char :=
  "Error: ".toList ++ error.cause.name.toList ++
    match error.cause.tip? with
    | none => []
    | some tip => " (".toList ++ tip.toList ++ [')']

/-- The line that an error shows at, between a margin with its number and a caret. -/
def excerpt (line : Line) : List (List Char) :=
  let number := (toString line.number).toList
  let margin := padLeft ' ' (number.length + 2) ['|']
  let text := line.text.dropWhile isIndentation
  let removed := (line.text.takeWhile isIndentation).length
  [margin,
    number ++ " | ".toList ++ Text.trimEnd text,
    margin ++ [' '] ++ padLeft '-' (line.column - removed + 1) ['^']]

/-- The lines of a diagnostic. Where the error has no place in the source, there is no excerpt. -/
def lines (error : Error) (source file : String) : List (List Char) :=
  [heading error, "-> ".toList ++ file.toList] ++
    match lineAt? source.toList error.position.offset.toNat with
    | none => []
    | some line => excerpt line

/-- The text of a diagnostic. Each of its lines ends with a line feed. -/
def render (error : Error) (source file : String) : String :=
  String.ofList ((lines error source file).flatMap fun line => line ++ ['\n'])

end Offside.Diagnostic
