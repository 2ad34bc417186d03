import Foreach.Evaluation.Value
import Foreach.Handle

/-!
# The heap

Objects with fields, and arrays. Both are only ever added; a field of an object may change, and an
array never does. `HeapAction` is work on a heap that may fail; what it did before it failed stays
done.
-/
namespace Foreach

/-- An object. -/
structure HeapObject where
  /-- The type that the object was made with. -/
  type : TypeId
  /-- The fields, by position. -/
  fields : List Value
deriving DecidableEq

/-- All objects and arrays. -/
structure Heap where
  /-- The objects, each at its position. -/
  objects : Array HeapObject
  /-- The arrays, each at its position. -/
  arrays : Array (Array Value)
deriving DecidableEq

namespace Heap

/-- The heap with nothing on it. -/
def empty : Heap := ⟨#[], #[]⟩

/-- Add an object. -/
def newObject (heap : Heap) (type : TypeId) (fields : List Value) : Heap × ObjectId :=
  ({ heap with objects := heap.objects.push ⟨type, fields⟩ }, ⟨heap.objects.size⟩)

/-- Add an array. -/
def newArray (heap : Heap) (values : Array Value) : Heap × ArrayId :=
  ({ heap with arrays := heap.arrays.push values }, ⟨heap.arrays.size⟩)

/-- The number of objects. -/
def objectCount (heap : Heap) : Nat := heap.objects.size

/-- An object. -/
def object (heap : Heap) (object : ObjectId) : Except EvaluationError HeapObject :=
  match heap.objects[object.index]? with
  | some found => .ok found
  | none => .error (.invalidHandle object.describe)

/-- An array. -/
def array (heap : Heap) (array : ArrayId) : Except EvaluationError (Array Value) :=
  match heap.arrays[array.index]? with
  | some found => .ok found
  | none => .error (.invalidHandle array.describe)

/-- The text of a field. -/
def fieldName (object : ObjectId) (index : Nat) : String := s!"{object.describe}.{index}"

/-- A field of an object. -/
def field (heap : Heap) (object : ObjectId) (index : Nat) : Except EvaluationError Value := do
  let found ← heap.object object
  match found.fields[index]? with
  | some value => return value
  | none => .error (.invalidHandle (fieldName object index))

/-- Change a field of an object. A missing object is reported by the field that it does not have. -/
def setField (heap : Heap) (object : ObjectId) (index : Nat) (value : Value) :
    Except EvaluationError Heap :=
  match heap.objects[object.index]? with
  | some found =>
    if index < found.fields.length then
      .ok { heap with
        objects := heap.objects.modify object.index fun held =>
          { held with fields := held.fields.set index value } }
    else .error (.invalidHandle (fieldName object index))
  | none => .error (.invalidHandle (fieldName object index))

/-- Whether an index lies in an array. -/
def isInside (elements : Array Value) (index : Int64) : Bool :=
  0 ≤ index && index.toInt.toNat < elements.size

/-- The element of an array at an index, if there is one. -/
def element? (heap : Heap) (array : ArrayId) (index : Int64) : Option Value :=
  (heap.array array).toOption.bind fun elements =>
    if 0 ≤ index then elements[index.toInt.toNat]? else none

/-- The type of an object that exists. -/
def runtimeType? (heap : Heap) : Value → Option TypeId
  | .object object => heap.objects[object.index]?.map HeapObject.type
  | _ => none

/-- An object that was added is found at its position. -/
@[simp] theorem object_newObject_self (heap : Heap) (type : TypeId) (fields : List Value) :
    (heap.newObject type fields).1.object (heap.newObject type fields).2 =
      .ok ⟨type, fields⟩ := by
  simp [newObject, object]

/-- An array that was added is found at its position. -/
@[simp] theorem array_newArray_self (heap : Heap) (values : Array Value) :
    (heap.newArray values).1.array (heap.newArray values).2 = .ok values := by
  simp [newArray, array]

/-- A field that was changed has its new value. -/
theorem field_setField_self {heap after : Heap} {object : ObjectId} {index : Nat} {value : Value}
    (changed : heap.setField object index value = .ok after) :
    after.field object index = .ok value := by
  unfold setField at changed
  split at changed
  case h_2 => cases changed
  case h_1 found present =>
    split at changed
    case isFalse => cases changed
    case isTrue inside =>
      cases changed
      simp only [field, Heap.object, Array.getElem?_modify, present, bind, Except.bind, if_true,
        Option.map_some, List.getElem?_set_self inside]
      rfl

end Heap

/-- Work on a heap that may fail. -/
abbrev HeapAction := ExceptT EvaluationError (StateT Heap Checked)

namespace HeapAction

/-- A result or failure that does not touch the heap. -/
def given {α : Type} (result : Except EvaluationError α) : HeapAction α :=
  ExceptT.mk (pure result)

/-- An answer that the heap as it stands gives. -/
def ask {α : Type} (question : Heap → Except EvaluationError α) : HeapAction α := do
  let heap ← get
  given (question heap)

/-- A field of an object. -/
def field (object : ObjectId) (index : Nat) : HeapAction Value :=
  ask fun heap => heap.field object index

/-- A field that has to hold an array. -/
def arrayField (object : ObjectId) (index : Nat) : HeapAction ArrayId := do
  given (← field object index).asArray

/-- A field that has to hold an integer. -/
def intField (object : ObjectId) (index : Nat) : HeapAction Int64 := do
  given (← field object index).asInt

/-- A field that has to hold an object. -/
def objectField (object : ObjectId) (index : Nat) : HeapAction ObjectId := do
  given (← field object index).asObject

/-- Change a field of an object. -/
def setField (object : ObjectId) (index : Nat) (value : Value) : HeapAction Unit := do
  let heap ← ask fun heap => heap.setField object index value
  set heap

/-- Add an object. -/
def newObject (type : TypeId) (fields : List Value) : HeapAction ObjectId :=
  modifyGet fun heap => ((heap.newObject type fields).2, (heap.newObject type fields).1)

end HeapAction

end Foreach
