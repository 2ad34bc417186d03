import Foreach.Types.Registry

/-!
# The hierarchy of types

A type is connected to others by its base and by its interfaces. `baseChain` follows bases from a
type upwards; a chain that runs in a circle is followed for as many steps as there are types.
`allInterfaces` gives the interfaces reached through one interface link or more, the nearest first,
each once. `isAssignableTo` says when a value of one type can serve as a value of another.

A base is not checked when it is set, so a walk along bases may end at a handle that names no type.
`Walk` keeps what was visited before, because a search that finds its answer there never looks
further.
-/
namespace Foreach

/-- The types visited by a walk along bases, in order. -/
structure Walk where
  /-- The types, all registered. -/
  visited : List TypeId
  /-- Whether the walk ended for another reason than a handle that names no type. -/
  complete : Bool
deriving DecidableEq

namespace Walk

/-- All types of a walk, which has to be complete. -/
def toList (walk : Walk) : Checked (List TypeId) :=
  if walk.complete then .ok walk.visited else .error .violation

/-- The first answer along a walk. The walk has to be complete only if there is none. -/
def search {α : Type} (walk : Walk) (answer : TypeId → Option α) : Checked (Option α) :=
  match walk.visited.findSome? answer with
  | some found => .ok (some found)
  | none => if walk.complete then .ok none else .error .violation

end Walk

namespace Registry

/-- Walk along bases for a number of steps. -/
def walkBases (registry : Registry) : Nat → Option TypeId → Walk
  | _, none => ⟨[], true⟩
  | 0, some _ => ⟨[], true⟩
  | steps + 1, some type =>
    match registry.type? type with
    | none => ⟨[], false⟩
    | some entry =>
      let above := registry.walkBases steps entry.base
      ⟨type :: above.visited, above.complete⟩

/-- The walk from a type along bases, with as many steps as there are types. -/
def baseWalk (registry : Registry) (type : TypeId) : Walk :=
  registry.walkBases registry.size (some type)

/-- A type, its base, the base of that, and so on. -/
def baseChain (registry : Registry) (type : TypeId) : Checked (List TypeId) :=
  (registry.baseWalk type).toList

/-- Append what is neither known nor listed yet, in order. -/
def appendNew (known listed extra : List TypeId) : List TypeId :=
  extra.foldl (fun listed next =>
    if next ∈ known ∨ next ∈ listed then listed else listed ++ [next]) listed

/-- Visit the pending interfaces in order, each followed later by the interfaces it adds. One step
visits one interface, and no interface is visited twice. -/
def closeInterfaces (registry : Registry) : Nat → List TypeId → List TypeId → List TypeId
  | 0, reached, _ => reached
  | _ + 1, reached, [] => reached
  | steps + 1, reached, next :: pending =>
    registry.closeInterfaces steps (reached ++ [next])
      (appendNew (reached ++ [next]) pending (registry.interfacesOf next))

/-- The types whose declared interfaces are a type's own: an interface itself, and for another type
its base chain. -/
def interfaceRoots (registry : Registry) (type : TypeId) : Checked (List TypeId) := do
  if ← registry.isInterface type then return [type] else registry.baseChain type

/-- The interfaces that a type has, directly or through bases and other interfaces. -/
def allInterfaces (registry : Registry) (type : TypeId) : Checked (List TypeId) := do
  let roots ← registry.interfaceRoots type
  return registry.closeInterfaces registry.size []
    (appendNew [] [] (roots.flatMap registry.interfacesOf))

/-- Whether a type has an interface. -/
def implements (registry : Registry) (type interface : TypeId) : Checked Bool :=
  return (← registry.allInterfaces type).contains interface

/-- Whether a type is a definition or an instance of it. -/
def isInstanceOf (registry : Registry) (type definition : TypeId) : Checked Bool :=
  if type = definition then .ok true
  else return (← registry.entry type).definition = some definition

/-- The type itself and its interfaces, as far as they are a definition or instances of it. -/
def instantiationsOf (registry : Registry) (type definition : TypeId) :
    Checked (List TypeId) := do
  let own ← registry.isInstanceOf type definition
  let interfaces ← registry.allInterfaces type
  let found ← interfaces.filterM fun interface => registry.isInstanceOf interface definition
  return if own then type :: found else found

/-- Whether a value of one type can serve as a value of another: the types are the same, or the
target is an interface of the type, `object`, or one of the type's bases. Values that live on the
stack alone serve as no interface and as no `object`, and a generic parameter is not known to have
values that are objects. -/
def isAssignableTo (registry : Registry) (type target : TypeId) : Checked Bool := do
  if type = target then return true
  else if ← registry.isInterface target then
    if ← registry.isByRefLike type then return false else registry.implements type target
  else if target = .object then
    let flags := (← registry.entry type).flags
    return !flags.byRefLike && !flags.genericParameter
  else
    let found ← (registry.baseWalk type).search fun base =>
      if base = target then some base else none
    return found.isSome

end Registry

end Foreach
