import Foreach.Diagnostic.Basic
import Foreach.Text.Decimal

/-!
# Values and evaluation errors

What evaluation computes with, and what can be wrong with it. Objects and arrays live on a heap and
are values by their position there.
-/
namespace Foreach

/-- The position of an object on the heap. -/
structure ObjectId where
  /-- The position. -/
  index : Nat
deriving DecidableEq

/-- The position of an array on the heap. -/
structure ArrayId where
  /-- The position. -/
  index : Nat
deriving DecidableEq

/-- The text of an object. -/
def ObjectId.describe (object : ObjectId) : String := s!"object#{object.index}"

/-- The text of an array. -/
def ArrayId.describe (array : ArrayId) : String := s!"array#{array.index}"

/-- What evaluation computes with. -/
inductive Value where
  /-- No value. -/
  | void
  /-- A truth value. -/
  | bool (value : Bool)
  /-- An integer of 64 bits. -/
  | int (value : Int64)
  /-- The null reference. -/
  | null
  /-- An object. -/
  | object (id : ObjectId)
  /-- An array. -/
  | array (id : ArrayId)
deriving DecidableEq

/-- Why evaluation failed. -/
inductive EvaluationError where
  /-- A variable is read before it has a value. -/
  | unassigned (name : String)
  /-- A member of the null reference is accessed. -/
  | nullReference (memberName : String)
  /-- A member has no body to run. -/
  | noNativeBody (memberName : String)
  /-- A value is not of the kind an operation needs. -/
  | typeMismatch (expected found : String)
  /-- A break reaches the end of evaluation without meeting its loop. -/
  | invalidBreak
  /-- A function is called with the wrong number of arguments. -/
  | argumentCount (expected found : Nat)
  /-- A handle names nothing, or nothing of the right kind. -/
  | invalidHandle (what : String)
deriving DecidableEq

namespace EvaluationError

/-- What went wrong. -/
def message : EvaluationError → String
  | unassigned name => "variable '" ++ name ++ "' is read before it is assigned"
  | nullReference memberName => "'" ++ memberName ++ "' accessed on a null reference"
  | noNativeBody memberName => "no native implementation of '" ++ memberName ++ "'"
  | typeMismatch expected found => "expected " ++ expected ++ ", found " ++ found
  | invalidBreak => "break outside of the loop it targets"
  | argumentCount expected found => s!"expected {expected} argument(s), found {found}"
  | invalidHandle what => "invalid handle: " ++ what

/-- The code of an error. -/
def code : EvaluationError → Code
  | unassigned _ => .unassigned
  | nullReference _ => .nullReference
  | noNativeBody _ => .noNativeBody
  | typeMismatch _ _ => .typeMismatch
  | invalidBreak => .invalidBreak
  | argumentCount _ _ => .argumentCount
  | invalidHandle _ => .invalidHandle

/-- What explains an error and what mends it. -/
def attachments : EvaluationError → List Attachment
  | noNativeBody _ => [.help "register a body with `NativeMethods::define`"]
  | invalidHandle _ =>
    [.note "the tree was built against a different arena, heap or registry"]
  | _ => []

/-- The diagnostic of an error. -/
def diagnostic (error : EvaluationError) : Diagnostic :=
  ⟨error.code, .error, error.message, error.attachments⟩

end EvaluationError

namespace Value

/-- The word for the kind of a value. -/
def kindName : Value → String
  | void => "void"
  | bool _ => "bool"
  | int _ => "int"
  | null => "null"
  | object _ => "object"
  | array _ => "array"

/-- The text of a value. -/
def describe : Value → String
  | void => "void"
  | bool value => if value then "true" else "false"
  | int value => Text.writeInteger value
  | null => "null"
  | object id => id.describe
  | array id => id.describe

/-- Whether a value is the null reference. -/
def isNull : Value → Bool
  | null => true
  | _ => false

/-- The failure of an operation that needs another kind of value. -/
def mismatch {α : Type} (expected : String) (value : Value) : Except EvaluationError α :=
  .error (.typeMismatch expected value.kindName)

/-- The truth value that a value is. -/
def asBool : Value → Except EvaluationError Bool
  | bool value => .ok value
  | other => other.mismatch "bool"

/-- The integer that a value is. -/
def asInt : Value → Except EvaluationError Int64
  | int value => .ok value
  | other => other.mismatch "int"

/-- The object that a value is. -/
def asObject : Value → Except EvaluationError ObjectId
  | object id => .ok id
  | other => other.mismatch "object"

/-- The array that a value is. -/
def asArray : Value → Except EvaluationError ArrayId
  | array id => .ok id
  | other => other.mismatch "array"

end Value

end Foreach
