import Offside.Source.Bytes
import Offside.Source.Position

/-!
# A cursor in a source text

A cursor stands after some number of bytes of a source text. It may be moved past the end, where
nothing remains.
-/

namespace Offside

/-- A source text, its file name and the number of bytes already read. -/
structure Cursor where
  /-- The whole text. -/
  source : String
  /-- Name of the file the text comes from. -/
  file : String := Position.defaultFile
  /-- Bytes before the cursor. -/
  byte : Nat := 0
  deriving Repr

namespace Cursor

/-- Moves the cursor forward by a number of bytes. -/
def forward (cursor : Cursor) (bytes : Nat) : Cursor :=
  { cursor with byte := cursor.byte + bytes }

/-- The text at and after the cursor. -/
def rest (cursor : Cursor) : List Char :=
  dropBytes cursor.byte cursor.source.toList

/-- The character at the cursor, if the text has not ended. -/
def char? (cursor : Cursor) : Option Char :=
  cursor.rest.head?

/-- Whether the whole text lies before the cursor. -/
def atEnd (cursor : Cursor) : Bool :=
  byteLength cursor.source.toList ≤ cursor.byte

/-- The cursor's place. -/
def position (cursor : Cursor) : Position :=
  Position.ofByte cursor.file cursor.byte

/-- The stretch of the next `length` bytes. -/
def span (cursor : Cursor) (length : Nat) : Span :=
  Span.ofBytes cursor.file cursor.byte length

end Cursor

end Offside
