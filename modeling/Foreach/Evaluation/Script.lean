import Foreach.Evaluation.Natives

/-!
# Scripted bodies

Bodies of members that are described by data: what they read, from where, and what they do with it.
They stand in for real ones where only the way in which members work together is of interest. A
script does its steps in the order of its description, and stops at the first that fails.
-/
namespace Foreach

/-- Where a script gets a value from. -/
inductive ScriptSource where
  /-- A value known from the start. -/
  | constant (value : Value)
  /-- The value that the member is called on. -/
  | receiver
  /-- A field of the object that the member is called on. -/
  | field (index : Nat)
  /-- An argument. -/
  | argument (index : Nat)

/-- What a scripted member does. -/
inductive Script where
  /-- Answer with a value. -/
  | answer (source : ScriptSource)
  /-- Put a value into a field. -/
  | setField (index : Nat) (source : ScriptSource)
  /-- Add a value to a field, and answer with the sum. -/
  | addField (index : Nat) (source : ScriptSource)
  /-- Answer with a new object. -/
  | make (type : TypeId) (fields : List ScriptSource)
  /-- Add one to the index in a field, and say whether it lies in the array of another field. -/
  | moveNext (array index : Nat)
  /-- Answer with the element of a field's array at the index in another field. -/
  | current (array index : Nat)
  /-- Fail with a message. -/
  | fail (message : String)

/-- The value that a source gives. -/
def ScriptSource.read (receiver : Value) (arguments : List Value) :
    ScriptSource → HeapAction Value
  | constant value => return value
  | .receiver => return receiver
  | field index => do
    let object ← HeapAction.given receiver.asObject
    HeapAction.field object index
  | argument index =>
    match arguments[index]? with
    | some value => return value
    | none => throw (.argumentCount (index + 1) arguments.length)

namespace Script

/-- The body that a script describes. -/
def body : Script → NativeBody
  | answer source => fun receiver arguments => source.read receiver arguments
  | setField index source => fun receiver arguments => do
    let value ← source.read receiver arguments
    HeapAction.setField (← HeapAction.given receiver.asObject) index value
    return .void
  | addField index source => fun receiver arguments => do
    let increment ← HeapAction.given (← source.read receiver arguments).asInt
    let object ← HeapAction.given receiver.asObject
    let sum := Value.int ((← HeapAction.intField object index) + increment)
    HeapAction.setField object index sum
    return sum
  | make type fields => fun receiver arguments => do
    let fields ← fields.mapM (ScriptSource.read receiver arguments)
    return .object (← HeapAction.newObject type fields)
  | moveNext array index => fun receiver _ => do
    let object ← HeapAction.given receiver.asObject
    let held ← HeapAction.arrayField object array
    let elements ← HeapAction.ask fun heap => heap.array held
    let next := (← HeapAction.intField object index) + 1
    HeapAction.setField object index (.int next)
    return .bool (Heap.isInside elements next)
  | current array index => fun receiver _ => do
    let object ← HeapAction.given receiver.asObject
    let held ← HeapAction.arrayField object array
    let place ← HeapAction.intField object index
    match (← get).element? held place with
    | some element => return element
    | none => throw (.invalidHandle ("index " ++ Text.writeInteger place))
  | fail message => fun _ _ => throw (.invalidHandle message)

end Script

end Foreach
