import Foreach.Lowering.Error
import Foreach.Pattern.Disposal
import Foreach.Tree.Construction
import Foreach.Types.TypeName

/-!
# Using a resource

A statement that uses a resource becomes a statement that runs and a disposal that runs after it,
however it ends. The disposal is that of the resource's type:

* a value type: `((IDisposable)resource).Dispose();`
* a reference type: `if (resource != null) ((IDisposable)resource).Dispose();`
* a value on the stack: `resource.Dispose();`

A resource that cannot be disposed of is refused before any node is added.
-/
namespace Foreach.Construction

/-- Call the method of the disposal contract on a resource. -/
def disposeThroughContract (registry : Registry) (resource : NodeId) : Construction NodeId := do
  let method ← registry.disposeMethod
  let receiver ← convert resource .disposable
  call registry receiver method []

/-- The statement that disposes of a resource by a strategy. -/
def disposeBy (registry : Registry) (resource : NodeId) : DisposalStrategy → Construction NodeId
  | .valueType => disposeThroughContract registry resource
  | .referenceType => do
    let type ← typeOf resource
    let missing ← null type
    let present ← notEqual resource missing
    let call ← disposeThroughContract registry resource
    ifThen present call
  | .byRefLike method => call registry resource method []

/-- The statement that disposes of a resource; none where there is no strategy for it. -/
def dispose (registry : Registry) (resource : NodeId) :
    Option DisposalStrategy → Construction (Option NodeId)
  | some strategy => some <$> disposeBy registry resource strategy
  | none => return none

/-- A body that uses the resource held by a binding. -/
def useResource (registry : Registry) (resource body : NodeId) :
    Construction (Except LoweringError NodeId) := do
  requireKind NodeKind.isBinding resource
  let type ← typeOf resource
  let strategy ← registry.classifyDisposal type
  match ← dispose registry resource strategy with
  | none => return .error (.notDisposable (← registry.metadataName type))
  | some disposal => .ok <$> tryFinally body disposal

end Foreach.Construction
