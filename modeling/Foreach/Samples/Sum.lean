import Foreach.Evaluation.Evaluator
import Foreach.Lowering.ForeachLoop
import Foreach.Samples.Basic
import Foreach.Source.Writing

/-!
# The sum of the items of an enumerable

A function that adds up the items of its argument with a lowered loop:

    var sum = 0; foreach (var item in enumerable) sum += item; return sum;

It can be built for any enumerable type, written as source text, and run for a fixture over given
items.
-/
namespace Foreach

/-- A function in an arena of its own. -/
structure SumProgram where
  /-- The nodes. -/
  arena : Arena
  /-- The function. -/
  root : NodeId
deriving DecidableEq

/-- What a run of the sum gives. -/
structure SumRun where
  /-- The sum of the items. -/
  sum : Int64
  /-- How often the enumerator was disposed of. -/
  disposals : Int64
deriving DecidableEq

/-- Why there is no sum. -/
inductive SumError where
  /-- The loop cannot be lowered. -/
  | lowering (error : LoweringError)
  /-- The evaluation failed. -/
  | evaluation (error : EvaluationError)
deriving DecidableEq

/-- The diagnostic of an error. -/
def SumError.diagnostic : SumError → Diagnostic
  | lowering error => error.diagnostic
  | evaluation error => error.diagnostic

namespace SumProgram

/-- Build the sum over an enumerable type. -/
def construct (registry : Registry) (policy : Policy) (type : TypeId) :
    Construction (Except LoweringError NodeId) := do
  let enumerable ← Construction.parameter "enumerable" type
  let sum ← Construction.var "sum" .int
  let zero ← Construction.int 0
  let start ← Construction.assign sum zero
  let plan : LoopPlan := { locals := [sum], preamble := [start], result := some sum }
  let addItem := fun binding => do
    let item ← Construction.currentItem registry binding
    Construction.addAssign sum item
  match ← Construction.foreachLoop registry policy enumerable plan addItem with
  | .error error => return .error error
  | .ok body => .ok <$> Construction.lambda [enumerable] body

/-- The sum over an enumerable type, in an arena of its own. -/
def lower (registry : Registry) (policy : Policy) (type : TypeId) :
    Checked (Except LoweringError SumProgram) := do
  let (built, arena) ← (construct registry policy type).run .empty
  return built.map fun root => { arena, root }

/-- The source text of a sum. -/
def render (program : SumProgram) (registry : Registry) (width : Nat) : Checked String :=
  Source.bodyText registry program.arena width program.root

/-- The bound on the evaluation of a sum: one round for each item, and the nodes on the way to the
innermost one. -/
def evaluationBound (items : List Int64) : Nat := items.length + 16

/-- Run the sum for a fixture over given items. -/
def run (samples : Samples) (policy : Policy) (fixture : Fixture) (items : List Int64) :
    Checked (Except SumError SumRun) := do
  match ← lower samples.registry policy fixture.enumerable with
  | .error error => return .error (.lowering error)
  | .ok sum =>
    let (heap, enumerable) := Samples.newEnumerable .empty fixture items
    let program : Program := ⟨samples.registry, sum.arena, samples.natives⟩
    let (result, machine) ←
      program.invoke (evaluationBound items) sum.root [.object enumerable] (Machine.start heap)
    let outcome : Except EvaluationError SumRun := do
      let total ← (← result).asInt
      let disposals ← Samples.disposals machine.heap enumerable
      return { sum := total, disposals }
    return outcome.mapError .evaluation

end SumProgram

end Foreach
