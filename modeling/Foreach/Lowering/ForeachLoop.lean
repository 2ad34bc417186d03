import Foreach.Lowering.Using
import Foreach.Pattern.Enumerable

/-!
# Lowering a loop over the items of an enumerable

The loop becomes a block:

* the enumerator is got from the enumerable and kept in a variable;
* the statements of the preamble run;
* while the enumerator goes on to a next item, the body runs; after that, however it ends, the
  enumerator is disposed of;
* the result, if there is one, is the value of the block.

What is wrong with the enumerable is looked for before the first node is added (`resolveLoop`), so
that a loop that is refused there leaves nothing behind. `openLoop` adds what comes before the body
and tells the body what it needs to know, and `closeLoop` adds the rest. It would still refuse the
loop, with the body in the tree, if its enumerator had no disposal.
-/
namespace Foreach

/-- What the body of a loop may use. -/
structure LoopBinding where
  /-- The variable that holds the enumerator. -/
  enumerator : NodeId
  /-- What reads the current item. -/
  current : MemberId
  /-- The type of the items. -/
  itemType : TypeId
deriving DecidableEq

/-- What surrounds a loop in its block. -/
structure LoopPlan where
  /-- Further variables of the block. -/
  locals : List NodeId := []
  /-- Statements between getting the enumerator and the loop. -/
  preamble : List NodeId := []
  /-- The value of the block. -/
  result : Option NodeId := none

/-- The members and types that a loop over an enumerable uses. -/
structure LoopMembers where
  /-- What gives the enumerator. -/
  getEnumerator : MemberId
  /-- The type of the enumerator. -/
  enumeratorType : TypeId
  /-- What reads the current item. -/
  current : MemberId
  /-- What goes on to the next item. -/
  moveNext : MemberId
  /-- How the enumerator is disposed of, if it is. -/
  disposal : Option DisposalStrategy
deriving DecidableEq

/-- A loop whose body is still to come. -/
structure OpenLoop where
  /-- What the loop uses. -/
  members : LoopMembers
  /-- The statement that gets the enumerator. -/
  start : NodeId
  /-- What the body may use. -/
  binding : LoopBinding
deriving DecidableEq

/-- The member that an incomplete enumerator lacks: `Current` if both are missing. -/
def EnumeratorShape.missing (shape : EnumeratorShape) : MissingMember :=
  if shape.current.isNone then .current else .moveNext

namespace Registry

/-- What a loop over a type uses, or why there is no such loop. -/
def resolveLoop (registry : Registry) (policy : Policy) (type : TypeId) :
    Checked (Except LoweringError LoopMembers) := do
  let (found, shape) ← registry.isEnumerable policy type
  match shape.getEnumerator, shape.enumerator.type with
  | some getEnumerator, some enumeratorType =>
    match found, shape.enumerator.current, shape.enumerator.moveNext with
    | true, some current, some moveNext =>
      let disposal ← registry.classifyDisposal enumeratorType
      if disposal.isNone then
        return .error (.notDisposable (← registry.metadataName enumeratorType))
      else return .ok { getEnumerator, enumeratorType, current, moveNext, disposal }
    | _, _, _ =>
      let typeName ← registry.displayName type
      let enumeratorName ← registry.displayName enumeratorType
      return .error (.invalidEnumerator typeName enumeratorName shape.enumerator.missing)
  | _, _ => return .error (.notEnumerable (← registry.displayName type))

end Registry

namespace Construction

/-- Read the current item of a loop. -/
def currentItem (registry : Registry) (binding : LoopBinding) : Construction NodeId :=
  property registry binding.enumerator binding.current

/-- Add what comes before the body of a loop that is known to be possible. -/
def startLoop (registry : Registry) (enumerable : NodeId) (members : LoopMembers) :
    Construction OpenLoop := do
  let enumerator ← var "enumerator" members.enumeratorType
  let acquired ← call registry enumerable members.getEnumerator []
  let start ← assign enumerator acquired
  let itemType ← registry.valueTypeOf members.current
  return { members, start, binding := { enumerator, current := members.current, itemType } }

/-- Add what comes before the body of a loop, or say why there is no such loop. -/
def openLoop (registry : Registry) (policy : Policy) (enumerable : NodeId) :
    Construction (Except LoweringError OpenLoop) := do
  let type ← typeOf enumerable
  match ← registry.resolveLoop policy type with
  | .error error => return .error error
  | .ok members => .ok <$> startLoop registry enumerable members

/-- Add what comes after the body of a loop, or say that its enumerator has no disposal. -/
def closeLoop (registry : Registry) (opened : OpenLoop) (plan : LoopPlan) (body : NodeId) :
    Construction (Except LoweringError NodeId) := do
  let enumerator := opened.binding.enumerator
  let hasNext ← call registry enumerator opened.members.moveNext []
  let looped ← whileLoop hasNext body
  match ← dispose registry enumerator opened.members.disposal with
  | none => return .error (.notDisposable (← registry.metadataName opened.members.enumeratorType))
  | some disposal =>
    let guarded ← tryFinally looped disposal
    .ok <$> block (enumerator :: plan.locals)
      (opened.start :: plan.preamble ++ guarded :: plan.result.toList)

/-- A loop over the items of an enumerable, whose body is built from what it may use. -/
def foreachLoop (registry : Registry) (policy : Policy) (enumerable : NodeId) (plan : LoopPlan)
    (body : LoopBinding → Construction NodeId) : Construction (Except LoweringError NodeId) := do
  match ← openLoop registry policy enumerable with
  | .error error => return .error error
  | .ok opened =>
    let step ← body opened.binding
    closeLoop registry opened plan step

end Construction

end Foreach
