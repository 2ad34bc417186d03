import Foreach.Evaluation.Natives

/-!
# Bodies of the fixtures

The enumerable of a fixture is an object with two fields: the array of its items, and a counter of
how many of its enumerators have been disposed of. An enumerator is an object with three: the array
of items, the index of the current one, which is -1 before the first, and the enumerable that it
came from.
-/
namespace Foreach.Samples

/-- The field of an enumerable and of an enumerator that holds the items. -/
def itemsField : Nat := 0

/-- The field of an enumerable that counts disposals. -/
def disposalsField : Nat := 1

/-- The field of an enumerator that holds the index of the current item. -/
def indexField : Nat := 1

/-- The field of an enumerator that holds the enumerable it came from. -/
def ownerField : Nat := 2

/-- A new enumerator of a type, before the first item. -/
def getEnumerator (enumerator : TypeId) : NativeBody := fun receiver _ => do
  let owner ← HeapAction.given receiver.asObject
  let items ← HeapAction.field owner itemsField
  let made ← HeapAction.newObject enumerator [items, .int (-1), .object owner]
  return .object made

/-- The item at the index of an enumerator. -/
def current : NativeBody := fun receiver _ => do
  let state ← HeapAction.given receiver.asObject
  let items ← HeapAction.arrayField state itemsField
  let index ← HeapAction.intField state indexField
  match (← get).element? items index with
  | some item => return item
  | none => throw (.invalidHandle ("Current read at index " ++ Text.writeInteger index))

/-- The next index; the greatest one is its own next. -/
def nextIndex (index : Int64) : Int64 := if index = Int64.maxValue then index else index + 1

/-- Go on to the next item, and say whether there is one. The index stays at the last item. -/
def moveNext : NativeBody := fun receiver _ => do
  let state ← HeapAction.given receiver.asObject
  let items ← HeapAction.arrayField state itemsField
  let items ← HeapAction.ask fun heap => heap.array items
  let next := nextIndex (← HeapAction.intField state indexField)
  if Heap.isInside items next then
    HeapAction.setField state indexField (.int next)
    return .bool true
  else return .bool false

/-- Count a disposal on the enumerable that an enumerator came from. The counter cannot be counted
beyond the greatest integer. -/
def dispose : NativeBody := fun receiver _ => do
  let state ← HeapAction.given receiver.asObject
  let owner ← HeapAction.objectField state ownerField
  let disposals ← HeapAction.intField owner disposalsField
  Checked.require (disposals ≠ Int64.maxValue)
  HeapAction.setField owner disposalsField (.int (disposals + 1))
  return .void

end Foreach.Samples
