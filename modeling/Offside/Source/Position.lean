/-!
# Places in a source text

A place is a byte offset together with the name of the file it lies in. Offsets are 32-bit words, so
a place beyond the fourth gibibyte wraps; every shorter text is addressed exactly.
-/

namespace Offside

/-- A byte offset into the UTF-8 form of a source file, and the file's name. -/
structure Position where
  /-- Bytes before the place, as a 32-bit word. -/
  offset : UInt32
  /-- Name of the file. -/
  file : String
  deriving DecidableEq, Repr, Inhabited

namespace Position

/-- The file name used when a source text comes without one. -/
def defaultFile : String := "shell"

/-- The place after `byte` bytes of `file`. -/
def ofByte (file : String) (byte : Nat) : Position :=
  ⟨UInt32.ofNat byte, file⟩

/-- The place used for faults that belong to no source text. -/
def null : Position :=
  ⟨0, "<null>"⟩

end Position

/-- The half-open stretch of a source text from `start` up to `stop`. -/
structure Span where
  /-- Place of the first byte. -/
  start : Position
  /-- Place after the last byte. -/
  stop : Position
  deriving DecidableEq, Repr, Inhabited

namespace Span

/-- The stretch of `length` bytes that begins after `byte` bytes of `file`. -/
def ofBytes (file : String) (byte length : Nat) : Span :=
  ⟨Position.ofByte file byte, Position.ofByte file (byte + length)⟩

end Span

end Offside
