import Foreach.Evaluation.Environment
import Foreach.Evaluation.Natives
import Foreach.Tree.Arena
import Foreach.Types.MemberLookup
import Foreach.Types.TypeName

/-!
# Evaluation of program trees

Evaluation of a node gives a value, fails, or is on its way out of a loop. Blocks and functions
have scopes of their own, which are left again however they end. A disposal that follows a
statement runs however the statement ends, and if it does not complete itself, its own end counts.

A member called on an object is the one that the object's type runs for it; on any other value it is
the member as it is named. A call on the null reference fails.

A loop may go on forever, so evaluation has a bound: it is used up by one with every node on the way
inwards and with every further round of a loop.
-/
namespace Foreach

/-- What evaluation refers to but never changes. -/
structure Program where
  /-- Types and members. -/
  registry : Registry
  /-- Trees. -/
  arena : Arena
  /-- What members do. -/
  natives : Natives

/-- What evaluation changes. -/
structure Machine where
  /-- The values of bindings. -/
  environment : Environment
  /-- Objects and arrays. -/
  heap : Heap
deriving DecidableEq

/-- A machine with nothing declared. -/
def Machine.start (heap : Heap) : Machine := ⟨.empty, heap⟩

/-- Why a node has no value. -/
inductive Interrupt where
  /-- Evaluation failed. -/
  | failure (error : EvaluationError)
  /-- The loop of a label is being left. -/
  | leaving (label : Label)
deriving DecidableEq

/-- The error that an interrupt is when nothing is left that could stop it. -/
def Interrupt.error : Interrupt → EvaluationError
  | failure error => error
  | leaving _ => .invalidBreak

/-- Evaluation of a part of a tree. -/
abbrev Evaluation := ExceptT Interrupt (StateT Machine Checked)

/-- Evaluation of a whole tree. -/
abbrev Run := ExceptT EvaluationError (StateT Machine Checked)

namespace Evaluation

/-- A result or failure that does not touch the machine. -/
def given {α : Type} (result : Except EvaluationError α) : Evaluation α :=
  match result with
  | .ok value => return value
  | .error error => throw (.failure error)

/-- Work on the heap of the machine. -/
def onHeap {α : Type} (action : HeapAction α) : Evaluation α :=
  fun (machine : Machine) => do
    let (result, heap) ← action machine.heap
    let machine := { machine with heap }
    return match result with
      | .ok value => (.ok value, machine)
      | .error error => (.error (.failure error), machine)

/-- Evaluation whose interrupt is an answer. -/
def attempt {α : Type} (evaluation : Evaluation α) : Evaluation (Except Interrupt α) :=
  fun (machine : Machine) => do
    let (result, machine) ← evaluation machine
    return (.ok result, machine)

/-- What was answered in place of an interrupt, as that interrupt again. -/
def resume {α : Type} (result : Except Interrupt α) : Evaluation α := ExceptT.mk (pure result)

/-- Change the scopes of the machine. -/
def changeScopes (change : Environment → Environment) : Evaluation Unit :=
  modify fun machine => { machine with environment := change machine.environment }

/-- Evaluation in a scope of its own. -/
def inScope {α : Type} (evaluation : Evaluation α) : Evaluation α := do
  changeScopes Environment.push
  let result ← attempt evaluation
  changeScopes Environment.pop
  resume result

/-- Evaluation of a whole tree by evaluation of its root. -/
def finish {α : Type} (evaluation : Evaluation α) : Run α :=
  fun (machine : Machine) => do
    let (result, machine) ← evaluation machine
    return match result with
      | .ok value => (.ok value, machine)
      | .error interrupt => (.error interrupt.error, machine)

end Evaluation

namespace Program

/-- The name of a member with the name of its type. -/
def memberName (program : Program) (member : MemberId) : Checked String := do
  let entry ← program.registry.member member
  return (← program.registry.displayName entry.owner) ++ "." ++ entry.name

/-- The failure to read or assign a binding. -/
def bindingFailure (program : Program) (binding : NodeId) (error : BindingError) :
    Checked EvaluationError := do
  let name := (← program.arena.kind binding).bindingName?.getD binding.describe
  return match error with
    | .unassigned => .unassigned name
    | .undeclared => .invalidHandle ("'" ++ name ++ "' is not in scope")

/-- The value of a binding. -/
def read (program : Program) (binding : NodeId) : Evaluation Value := do
  match (← get).environment.lookup binding with
  | .ok value => return value
  | .error error => throw (.failure (← program.bindingFailure binding error))

/-- Assign to a binding. -/
def write (program : Program) (binding : NodeId) (value : Value) : Evaluation Unit := do
  match (← get).environment.assign binding value with
  | .ok environment => modify fun machine => { machine with environment }
  | .error error => throw (.failure (← program.bindingFailure binding error))

/-- The member that runs when a member is called on a value. -/
def dispatch (program : Program) (heap : Heap) (receiver : Value) (member : MemberId) :
    Checked MemberId :=
  match heap.runtimeType? receiver with
  | none => return member
  | some type => return (← program.registry.findImplementation? type member).getD member

/-- Call a member on a value. -/
def callMember (program : Program) (receiver : Value) (member : MemberId)
    (arguments : List Value) : Evaluation Value := do
  if receiver.isNull then throw (.failure (.nullReference (← program.memberName member)))
  else
    let target ← program.dispatch (← get).heap receiver member
    match program.natives.body? target with
    | none => throw (.failure (.noNativeBody (← program.memberName target)))
    | some body => Evaluation.onHeap (body receiver arguments)

/-- Declare bindings without values in the innermost scope. -/
def declareAll (bindings : List NodeId) : Evaluation Unit :=
  bindings.forM fun binding =>
    Evaluation.changeScopes fun environment => environment.declare binding

/-- The value of the last of some statements that run in order. -/
def runAll (evaluate : NodeId → Evaluation Value) : Value → List NodeId → Evaluation Value
  | last, [] => return last
  | _, next :: rest => do runAll evaluate (← evaluate next) rest

/-- Evaluate a node of a kind, given how other nodes are evaluated. A further round of a loop is
another evaluation of the loop itself. -/
def evaluateNode (program : Program) (evaluate : NodeId → Evaluation Value) (id : NodeId) :
    NodeKind → Evaluation Value
  | .parameter _ | .var _ => program.read id
  | .int value => return .int value
  | .bool value => return .bool value
  | .null => return .null
  | .assign target value => do
    let value ← evaluate value
    program.write target value
    return value
  | .addAssign target value => do
    let increment ← Evaluation.given (← evaluate value).asInt
    let before ← Evaluation.given (← program.read target).asInt
    let sum := Value.int (before + increment)
    program.write target sum
    return sum
  | .call receiver method arguments => do
    let receiver ← evaluate receiver
    let arguments ← (program.arena.list arguments).mapM evaluate
    program.callMember receiver method arguments
  | .property receiver property => do
    let receiver ← evaluate receiver
    program.callMember receiver property []
  | .convert operand => evaluate operand
  | .notEqual left right => do
    let left ← evaluate left
    let right ← evaluate right
    return .bool (left ≠ right)
  | .block locals statements =>
    Evaluation.inScope do
      declareAll (program.arena.list locals)
      runAll evaluate .void (program.arena.list statements)
  | .ifThen condition consequence => do
    if ← Evaluation.given (← evaluate condition).asBool then
      let _ ← evaluate consequence
      return .void
    else return .void
  | .ifThenElse condition consequence alternative => do
    let holds ← Evaluation.given (← evaluate condition).asBool
    let _ ← evaluate (if holds then consequence else alternative)
    return .void
  | .loop body exit => do
    match ← Evaluation.attempt (evaluate body) with
    | .ok _ => evaluate id
    | .error interrupt => if interrupt = .leaving exit then return .void else throw interrupt
  | .breakTo label => throw (.leaving label)
  | .tryFinally body cleanup => do
    let result ← Evaluation.attempt (evaluate body)
    let _ ← evaluate cleanup
    Evaluation.resume result
  | .lambda _ _ => throw (.failure (.typeMismatch "value" "lambda"))

/-- Evaluate a node within a bound. -/
def evaluate (program : Program) : Nat → NodeId → Evaluation Value
  | 0, _ => fun (_ : Machine) => .error .exhausted
  | bound + 1, id => do
    program.evaluateNode (program.evaluate bound) id (← program.arena.kind id)

/-- Evaluate a tree within a bound. -/
def eval (program : Program) (bound : Nat) (root : NodeId) : Run Value :=
  Evaluation.finish (program.evaluate bound root)

/-- Give the parameters of a function their values. -/
def bindParameters (parameters : List NodeId) (arguments : List Value) : Evaluation Unit :=
  (parameters.zip arguments).forM fun (parameter, argument) =>
    Evaluation.changeScopes fun environment => environment.define parameter argument

/-- Call a function within a bound. -/
def invoke (program : Program) (bound : Nat) (function : NodeId) (arguments : List Value) :
    Run Value := do
  match ← program.arena.kind function with
  | .lambda parameters body =>
    let parameters := program.arena.list parameters
    if parameters.length ≠ arguments.length then
      throw (.argumentCount parameters.length arguments.length)
    else
      Evaluation.finish (Evaluation.inScope do
        bindParameters parameters arguments
        program.evaluate bound body)
  | _ => throw (.invalidHandle (function.describe ++ " is not a lambda"))

end Program

end Foreach
