import Offside.CommandLine
import Offside.Main
import Offside.Proofs.Typing.Sources
import Offside.Source.Cursor
import Offside.Traversal.Trace
import Offside.Proofs.Lexing.Words
import Offside.Proofs.Printing.Declarations
import Offside.Proofs.Printing.Entries
import Offside.Proofs.Printing.Programs
import Offside.Proofs.Comparing.Actions
import Offside.Proofs.Comparing.Concatenation
import Offside.Proofs.Comparing.Layout
import Offside.Proofs.Flow.Execution
import Offside.Proofs.Flow.Returning
import Offside.Proofs.Lexing.Munching
import Offside.Proofs.Lexing.Tiling
import Offside.Proofs.Registry
import Offside.Proofs.Traversal.Nodes
import Offside.Proofs.Traversal.Surveying
import Offside.Proofs.Traversal.Visiting
import Offside.Proofs.Ordering.Reordering
import Offside.Proofs.Restoring.Clients
import Offside.Proofs.Placing.Indentation
import Offside.Proofs.Placing.Diagnostics
import Offside.Proofs.Precedence.Climbing
import Offside.Proofs.Signs.Reading
import Offside.Proofs.Agreeing.Programs
import Offside.Proofs.Rechecking.Checks
import Offside.Proofs.Excerpts
import Offside.Proofs.Scoping.Belonging
import Offside.Proofs.Globals.Construction
import Offside.Proofs.Lexing.Spelling
import Offside.Proofs.Lexing.LineBreaks
import Offside.Proofs.Inheritance
import Offside.Proofs.Reading.Levels
import Offside.Proofs.Reading.Operands
import Offside.Proofs.Signs.Members
import Offside.Proofs.Lines
import Offside.Proofs.Reading.Types
import Offside.Proofs.Reading.Ending
import Offside.Proofs.Sizes.Programs
