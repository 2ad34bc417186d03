import Foreach.Pattern.Disposal

/-!
# Types that can be enumerated

A type can be enumerated if it has a public method without parameters called `GetEnumerator`, whose
result has a readable property `Current` and a method `MoveNext` without parameters that answers
with a truth value. The members may stand on the types themselves, with no contract involved, or be
those of the enumeration contracts that the types have.

A search that finds only some of the members tells which ones, so that an error can name what is
missing. A policy decides between the two contracts, and between several instances of one.
-/
namespace Foreach

/-- Which enumerable contract is looked at first. -/
inductive InterfaceOrder where
  /-- The generic one. -/
  | genericFirst
  /-- The untyped one. -/
  | nonGenericFirst
deriving DecidableEq

/-- What several instances of one contract mean. -/
inductive Ambiguity where
  /-- The first one counts. -/
  | firstDeclared
  /-- None counts. -/
  | reject
deriving DecidableEq

/-- The word for an order of contracts. -/
def InterfaceOrder.word : InterfaceOrder → String
  | genericFirst => "generic-first"
  | nonGenericFirst => "non-generic-first"

/-- The word for a way with several instances. -/
def Ambiguity.word : Ambiguity → String
  | firstDeclared => "first-declared"
  | reject => "reject"

/-- How a search decides. -/
structure Policy where
  /-- Which contract is looked at first. -/
  interfaceOrder : InterfaceOrder := .genericFirst
  /-- What several instances of one contract mean. -/
  ambiguity : Ambiguity := .firstDeclared
deriving DecidableEq

/-- What was found of an enumerator. -/
structure EnumeratorShape where
  /-- The type that was looked at. -/
  type : Option TypeId := none
  /-- What reads the current item. -/
  current : Option MemberId := none
  /-- What goes on to the next item. -/
  moveNext : Option MemberId := none
  /-- What disposes of the enumerator; looked for in complete enumerators only. -/
  dispose : Option MemberId := none
  /-- The type of the items. -/
  itemType : Option TypeId := none
deriving DecidableEq

/-- What was found of an enumerable. -/
structure EnumerableShape where
  /-- The type that declares what gives the enumerator. -/
  type : Option TypeId := none
  /-- What gives the enumerator. -/
  getEnumerator : Option MemberId := none
  /-- What was found of the enumerator. -/
  enumerator : EnumeratorShape := {}
deriving DecidableEq

/-- Whether an enumerator has what enumeration needs. -/
def EnumeratorShape.isComplete (shape : EnumeratorShape) : Bool :=
  shape.current.isSome && shape.moveNext.isSome

/-- Whether an enumerable has what enumeration needs. -/
def EnumerableShape.isComplete (shape : EnumerableShape) : Bool :=
  shape.getEnumerator.isSome && shape.enumerator.isComplete

/-- The enumerable contracts in the order in which they are looked at. -/
def InterfaceOrder.contracts : InterfaceOrder → TypeId × TypeId
  | genericFirst => (.genericEnumerable, .enumerable)
  | nonGenericFirst => (.enumerable, .genericEnumerable)

/-- The one instance that counts among those of a contract. -/
def Ambiguity.choose : Ambiguity → List TypeId → Option TypeId
  | _, [] => none
  | _, [single] => some single
  | firstDeclared, first :: _ => some first
  | reject, _ => none

/-- The first answer of a question, or of another one if the first has none. -/
def firstAnswer {α : Type} (first second : Checked (Option α)) : Checked (Option α) := do
  match ← first with
  | some found => return some found
  | none => second

namespace Registry

/-- The contract through which a type is used: the contract itself if it has no parameters, else
the instance of it that counts. -/
def contractOf? (registry : Registry) (policy : Policy) (type contract : TypeId) :
    Checked (Option TypeId) := do
  let entry ← registry.entry contract
  if !entry.parameters.isEmpty then
    return policy.ambiguity.choose (← registry.instantiationsOf type contract)
  else if type = contract then return some contract
  else return if ← registry.implements type contract then some contract else none

/-- The answer of a question about a contract, if there is one. -/
def inContract {α : Type} (contract : Checked (Option TypeId))
    (question : TypeId → Checked (Option α)) : Checked (Option α) := do
  match ← contract with
  | some found => question found
  | none => return none

/-- What gives an enumerator of a type. -/
def findGetEnumerator? (registry : Registry) (policy : Policy) (type : TypeId) :
    Checked (Option MemberId) :=
  let contracts := policy.interfaceOrder.contracts
  let find := fun scope => registry.findMethod? scope contractNames.getEnumerator []
  firstAnswer (find type)
    (inContract
      (firstAnswer (registry.contractOf? policy type contracts.1)
        (registry.contractOf? policy type contracts.2))
      find)

/-- What reads the current item of an enumerator. -/
def findCurrent? (registry : Registry) (policy : Policy) (type : TypeId) :
    Checked (Option MemberId) :=
  let find := fun scope => registry.findProperty? scope contractNames.current
  firstAnswer (find type)
    (inContract
      (firstAnswer (registry.contractOf? policy type .genericEnumerator)
        (registry.contractOf? policy type .enumerator))
      find)

/-- The public method of a type that goes on to the next item. The first method of the name
counts, so one of another result type hides those of bases. -/
def findOwnMoveNext? (registry : Registry) (type : TypeId) : Checked (Option MemberId) := do
  match ← registry.findMethod? type contractNames.moveNext [] with
  | none => return none
  | some found => return if (← registry.valueTypeOf found) = .bool then some found else none

/-- What goes on to the next item of an enumerator. -/
def findMoveNext? (registry : Registry) (policy : Policy) (type : TypeId) :
    Checked (Option MemberId) :=
  firstAnswer (registry.findOwnMoveNext? type)
    (inContract (registry.contractOf? policy type .enumerator) fun scope =>
      registry.findMethod? scope contractNames.moveNext [])

/-- What disposes of an enumerator. -/
def findDispose? (registry : Registry) (type : TypeId) : Checked (Option MemberId) := do
  if ← registry.isByRefLike type then return registry.ownDispose? type
  else if ← registry.isAssignableTo type .disposable then
    firstAnswer (registry.findMethod? type contractNames.dispose [])
      (registry.findMethod? .disposable contractNames.dispose [])
  else return none

/-- Whether a type is an enumerator, with what it has of one. What disposes of it is looked for once
the other members are there. -/
def isEnumerator (registry : Registry) (policy : Policy) (type : TypeId) :
    Checked (Bool × EnumeratorShape) := do
  let current ← registry.findCurrent? policy type
  let itemType ← current.mapM registry.valueTypeOf
  let moveNext ← registry.findMoveNext? policy type
  let shape : EnumeratorShape := { type := some type, current, moveNext, itemType }
  if current.isNone || moveNext.isNone then return (false, shape)
  else return (true, { shape with dispose := ← registry.findDispose? type })

/-- Whether a type is an enumerable, with what it has of one. -/
def isEnumerable (registry : Registry) (policy : Policy) (type : TypeId) :
    Checked (Bool × EnumerableShape) := do
  match ← registry.findGetEnumerator? policy type with
  | none => return (false, {})
  | some getEnumerator =>
    let entry ← registry.member getEnumerator
    let (found, enumerator) ← registry.isEnumerator policy entry.valueType
    return (found,
      { type := some entry.owner, getEnumerator := some getEnumerator, enumerator })

/-- What a type has of an enumerable. -/
def enumerableShape (registry : Registry) (policy : Policy) (type : TypeId) :
    Checked EnumerableShape :=
  return (← registry.isEnumerable policy type).2

/-- What the search for an enumerable finds is what the type has of one. -/
theorem enumerableShape_of_isEnumerable {registry : Registry} {policy : Policy} {type : TypeId}
    {found : Bool} {shape : EnumerableShape}
    (searched : registry.isEnumerable policy type = .ok (found, shape)) :
    registry.enumerableShape policy type = .ok shape := by
  rw [enumerableShape, searched]
  rfl

end Registry

end Foreach
