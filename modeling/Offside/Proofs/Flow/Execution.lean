import Offside.Syntax.Address
import Offside.Syntax.Program

/-! # Executions

Which way control takes through the statements of a body depends on values that are not modelled
here. So a run may take any branch, and go round a loop any number of times; expressions are run to
their end. What matters is how a run ends, and at which address if it returns.
-/

namespace Offside

/-- How a run ends. -/
inductive Exit where
  /-- What stands behind is run next. -/
  | falls
  /-- The loop around is left. -/
  | breaks
  /-- The loop around goes on with its next round. -/
  | continues
  /-- The function is left with a value, which stands at an address. -/
  | returns (address : Address) (value : Expr)

/-- What can be run. -/
inductive Code where
  | stmt (stmt : Stmt)
  | block (block : Block)
  /-- The statements of a block from the one at an index on. -/
  | rest (index : Nat) (stmts : List Stmt)
  /-- The rounds of a loop that are still to come. -/
  | rounds (body : Block)

/-- Code at an address can be run to an exit. -/
inductive Code.Runs : Address → Code → Exit → Prop where
  | block {address body exit} :
    Runs (address.part (.body 0)) (.block body) exit → Runs address (.stmt (.block body)) exit
  | returns {address value span} :
    Runs address (.stmt (.returns value span)) (.returns (address.part .value) value)
  | branch {address index branch branches otherwise span exit} :
    branches[index]? = some branch →
    Runs (address.part (.body index)) (.block branch.body) exit →
    Runs address (.stmt (.branch branches otherwise span)) exit
  | otherwise {address branches body span exit} :
    Runs (address.part .otherwise) (.block body) exit →
    Runs address (.stmt (.branch branches (some body) span)) exit
  /-- Without an `else`, no branch need be taken. -/
  | noBranch {address branches span} : Runs address (.stmt (.branch branches none span)) .falls
  | forLoop {address init condition step body span exit} :
    Runs (address.part (.body 0)) (.rounds body) exit →
    Runs address (.stmt (.forLoop init condition step body span)) exit
  | whileLoop {address condition body span exit} :
    Runs (address.part (.body 0)) (.rounds body) exit →
    Runs address (.stmt (.whileLoop condition body span)) exit
  | expression {address value} : Runs address (.stmt (.expression value)) .falls
  | declare {address decl span} : Runs address (.stmt (.declare decl span)) .falls
  | breakLoop {address span} : Runs address (.stmt (.breakLoop span)) .breaks
  | continueLoop {address span} : Runs address (.stmt (.continueLoop span)) .continues
  | body {address body span exit} :
    Runs address (.rest 0 body) exit → Runs address (.block ⟨body, span⟩) exit
  | nil {address index} : Runs address (.rest index []) .falls
  | next {address index stmt rest exit} :
    Runs (address.part (.statement index)) (.stmt stmt) .falls →
    Runs address (.rest (index + 1) rest) exit → Runs address (.rest index (stmt :: rest)) exit
  | leaves {address index stmt rest exit} :
    Runs (address.part (.statement index)) (.stmt stmt) exit → exit ≠ .falls →
    Runs address (.rest index (stmt :: rest)) exit
  | stops {address body} : Runs address (.rounds body) .falls
  | again {address body round exit} :
    Runs address (.block body) round → round = .falls ∨ round = .continues →
    Runs address (.rounds body) exit → Runs address (.rounds body) exit
  | breaks {address body} :
    Runs address (.block body) .breaks → Runs address (.rounds body) .falls
  | returnsInside {address body place value} :
    Runs address (.block body) (.returns place value) →
    Runs address (.rounds body) (.returns place value)

/-- The body of a function hangs at a root of a program. -/
inductive Program.BodyAt (program : Program) : Root → Function → Prop where
  | function {index function} :
    program.functions[index]? = some function → BodyAt program (.function index) function
  | main {function} : program.main = some function → BodyAt program .main function
  | method {index methodIndex record function} :
    program.records[index]? = some record → record.methods[methodIndex]? = some function →
    BodyAt program (.method index methodIndex) function

/-- Whether code surely returns, as far as that can be seen from its last statement. -/
def Code.returnsAlways : Code → Bool
  | .stmt single => single.returnsAlways
  | .block whole => whole.returnsAlways
  | .rest _ stmts => Stmt.lastReturnsAlways stmts
  | .rounds _ => false

theorem Branch.allReturnAlways_iff {branches : List Branch} :
    Branch.allReturnAlways branches = true ↔
      ∀ branch ∈ branches, branch.body.returnsAlways = true := by
  induction branches with
  | nil => simp [Branch.allReturnAlways]
  | cons branch rest ih =>
      obtain ⟨condition, body⟩ := branch
      simp [Branch.allReturnAlways, ih]

/-- Code that surely returns is never run up to what stands behind it. -/
theorem Code.Runs.not_falls {address : Address} {code : Code} {exit : Exit}
    (run : Code.Runs address code exit) (returns : code.returnsAlways = true) : exit ≠ .falls := by
  induction run with
  | block _ ih | body _ ih => exact ih returns
  | returns => simp
  | @branch _ _ _ _ otherwise _ _ found _ ih =>
      cases otherwise with
      | none => simp [Code.returnsAlways, Stmt.returnsAlways] at returns
      | some body =>
          rw [Code.returnsAlways, Stmt.returnsAlways, Bool.and_eq_true,
            Branch.allReturnAlways_iff] at returns
          exact ih (returns.2 _ (List.mem_of_getElem? found))
  | otherwise _ ih =>
      rw [Code.returnsAlways, Stmt.returnsAlways, Bool.and_eq_true] at returns
      exact ih returns.1
  | @next _ _ stmt rest _ _ _ first others =>
      -- Only the last statement counts; those before it may well be run through.
      cases rest with
      | nil => exact absurd rfl (first returns)
      | cons => exact others returns
  | leaves _ leaves => exact leaves
  | _ => simp [Code.returnsAlways, Stmt.returnsAlways, Stmt.lastReturnsAlways] at returns

end Offside
