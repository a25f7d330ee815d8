import Offside.CommandLine
import Offside.Number.Duration

/-!
# The program

Runs the command line against the files, the clock and the standard outputs of the system.
-/

namespace Offside.CommandLine

/-- The number and the text of a fault of the operating system, if it has them. -/
def systemFault? : IO.Error → Option (UInt32 × String)
  | .alreadyExists _ code details | .invalidArgument _ code details
  | .permissionDenied _ code details | .resourceExhausted _ code details
  | .inappropriateType _ code details | .noSuchThing _ code details => some (code, details)
  | .interrupted _ code details | .noFileOrDirectory _ code details => some (code, details)
  | .otherError code details | .resourceBusy code details | .resourceVanished code details
  | .unsupportedOperation code details | .hardwareFault code details
  | .unsatisfiedConstraints code details | .illegalOperation code details
  | .protocolError code details | .timeExpired code details => some (code, details)
  | .unexpectedEof | .userError _ => none

/-- The number of a fault, which the system may give with the opposite sign. -/
def faultNumber (code : UInt32) : Nat :=
  if code < 0x80000000 then code.toNat else (-code).toNat

/-- What the faults that arise when a file is read are called. -/
def faultText? : (number : Nat) → Option String
  | 2 => some "No such file or directory"
  | 13 => some "Permission denied"
  | 20 => some "Not a directory"
  | 21 => some "Is a directory"
  | 36 => some "File name too long"
  | 40 => some "Too many levels of symbolic links"
  | _ => none

/-- Why a file cannot be read. A fault that is not the system's is that of its content. -/
def readFault (error : IO.Error) : String :=
  match systemFault? error with
  | some (code, details) =>
    let number := faultNumber code
    (faultText? number).getD details ++ " (os error " ++ toString number ++ ")"
  | none => "stream did not contain valid UTF-8"

/-- The system as a host. -/
def system : Host IO Nat where
  read path := do
    try return .ok (← IO.FS.readFile path)
    catch error => return .error (readFault error)
  now := IO.monoNanosNow
  since start := return Number.Duration.text ((← IO.monoNanosNow) - start)
  out text := do
    let stream ← IO.getStdout
    stream.putStr text
  err text := do
    let stream ← IO.getStderr
    stream.putStr text

end Offside.CommandLine

/-- Checks the file that the arguments name. -/
def main (arguments : List String) : IO UInt32 :=
  Offside.CommandLine.run Offside.CommandLine.system arguments
