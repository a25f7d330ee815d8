import Offside.Diagnostic
import Offside.Typing.Analysis

/-!
# The command line

The program reads a file, checks it and reports how long each stage took, or shows the first error.
What it does to the world outside goes through a host, so that it can be run against any.
-/

namespace Offside.CommandLine

/-- What the arguments ask for. -/
structure Options where
  /-- Whether the tokens are listed. -/
  showTokens : Bool := false
  /-- How local names are resolved. -/
  lookup : LocalLookup := .innermost
  /-- The file to be checked. -/
  path : Option String := none
  deriving DecidableEq, Repr, Inhabited

/-- How the program is called. -/
def usage : String :=
  "Usage: hotpot [--tokens] [--last-declaration-wins] <file>"

/-- Reads the arguments in order. An unknown option or a second file is refused. -/
def readArguments : Options → List String → Option Options
  | options, [] => some options
  | options, argument :: rest =>
    if argument = "--tokens" then readArguments { options with showTokens := true } rest
    else if argument = "--last-declaration-wins" then
      readArguments { options with lookup := .lastInBody } rest
    else if argument.toList.take 2 = ['-', '-'] ∨ options.path.isSome then none
    else readArguments { options with path := some argument } rest

/-- The parts of a path between its slashes. -/
def splitPath : List Char → List (List Char)
  | [] => [[]]
  | c :: rest =>
    match splitPath rest with
    | [] => [[c]]
    | part :: parts => if c = '/' then [] :: part :: parts else (c :: part) :: parts

/-- The name that a path ends with: its last part other than an empty one or a single point. A path
that has none, or ends by going up, is its own name. -/
def fileName (path : String) : String :=
  let parts := (splitPath path.toList).filter fun part => part ≠ [] ∧ part ≠ ['.']
  match parts.getLast? with
  | none => path
  | some last => if last = ['.', '.'] then path else String.ofList last

/-- What the program needs from the world outside. -/
structure Host (m : Type → Type) (Instant : Type) where
  /-- The text of a file, or why it cannot be read. -/
  read : (path : String) → m (Except String String)
  /-- The current time. -/
  now : m Instant
  /-- How long ago a time was. -/
  since : Instant → m String
  /-- Writes to the standard output. -/
  out : String → m Unit
  /-- Writes to the standard error output. -/
  err : String → m Unit

/-- The exit code of a successful run. -/
def success : UInt32 := 0

/-- The exit code of a run that has shown an error in the file. -/
def failure : UInt32 := 1

/-- The exit code of a run that has checked nothing. -/
def refused : UInt32 := 2

variable {m : Type → Type} [Monad m] {Instant : Type}

/-- Shows an error in a file. -/
def report (host : Host m Instant) (path source : String) (error : Error) : m UInt32 := do
  host.out (Diagnostic.render error source path)
  return failure

/-- Checks the text of a file, stage by stage. -/
def checkText (host : Host m Instant) (options : Options) (path source : String) : m UInt32 := do
  let file := fileName path
  let start ← host.now
  match Token.scan source file with
  | .error error => report host path source error
  | .ok tokens =>
    host.out ("Tokenized in " ++ (← host.since start) ++ "\n")
    if options.showTokens then
      tokens.forM fun token => host.out (token.summary ++ "\n")
    let parseStart ← host.now
    match Program.ofTokens tokens file with
    | .error error => report host path source error
    | .ok program =>
      host.out ("Parsed in " ++ (← host.since parseStart) ++ "\n")
      let checkStart ← host.now
      match (Program.check program options.lookup).2 with
      | .error error => report host path source error
      | .ok () =>
        host.out ("Type checked in " ++ (← host.since checkStart) ++ "\n")
        let functions := program.functions.length + program.main.toList.length
        host.out
          ("Checked " ++ toString program.globals.length ++ " globals, "
            ++ toString program.records.length ++ " hotpots and "
            ++ toString functions ++ " functions in " ++ (← host.since start) ++ "\n")
        return success

/-- Runs the program with some arguments, and returns its exit code. -/
def run (host : Host m Instant) (arguments : List String) : m UInt32 := do
  match readArguments {} arguments with
  | some options@{ path := some path, .. } =>
    match ← host.read path with
    | .error reason =>
      host.err ("Failed to read " ++ path ++ ": " ++ reason ++ "\n")
      return refused
    | .ok source => checkText host options path source
  | _ =>
    host.err (usage ++ "\n")
    return refused

end Offside.CommandLine
