import Foreach.Types.MemberLookup
import Foreach.Types.WellKnown

/-!
# Disposal

How a resource of a given type is disposed of. Most resources are disposed of through the disposal
contract. A value that lives on the stack alone is never converted to a contract, so its type has
to declare a public method of the right name itself.
-/
namespace Foreach

/-- The ways to dispose of a resource. -/
inductive DisposalStrategy where
  /-- Through the contract; a value type is never null. -/
  | valueType
  /-- Through the contract, unless the reference is null. -/
  | referenceType
  /-- By a direct call of the type's own method. -/
  | byRefLike (dispose : MemberId)
deriving DecidableEq

namespace DisposalStrategy

/-- Whether the resource is converted to the contract. -/
def convertsToInterface : DisposalStrategy → Bool
  | valueType | referenceType => true
  | byRefLike _ => false

/-- The method of a direct call. -/
def dispose? : DisposalStrategy → Option MemberId
  | byRefLike dispose => some dispose
  | valueType | referenceType => none

/-- The name of a strategy. -/
def name : DisposalStrategy → String
  | valueType => "ValueType"
  | referenceType => "ReferenceType"
  | byRefLike _ => "ByRefLike"

/-- The name of a strategy together with the method of a direct call. -/
def describe (strategy : DisposalStrategy) : String :=
  match strategy.dispose? with
  | none => strategy.name
  | some dispose => strategy.name ++ " \x7b dispose: " ++ dispose.describe ++ " \x7d"

end DisposalStrategy

/-- What is said of a resource that cannot be disposed of. -/
def notDisposableName : String := "NotDisposable"

namespace Registry

/-- Whether a member is the method that disposes of a value on the stack. -/
def isOwnDispose (entry : MemberEntry) : Bool :=
  isMethodOf contractNames.dispose [] entry && entry.flags.isPublicInstance

/-- The method declared on a type itself that disposes of its values without a contract. -/
def ownDispose? (registry : Registry) (type : TypeId) : Option MemberId :=
  registry.findMember? type isOwnDispose

/-- How a value of a type is disposed of, if it can be. -/
def classifyDisposal (registry : Registry) (type : TypeId) :
    Checked (Option DisposalStrategy) := do
  if ← registry.isByRefLike type then return (registry.ownDispose? type).map .byRefLike
  else if ← registry.isAssignableTo type .disposable then
    return some (if ← registry.isValueType type then .valueType else .referenceType)
  else return none

end Registry

end Foreach
