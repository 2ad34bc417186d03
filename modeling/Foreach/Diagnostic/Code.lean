/-!
# Diagnostic codes

Every diagnostic has a code, a letter and four digits. The first digit tells what kind of work
raised it: the shape of a type, its disposal, evaluation, or the library's own bookkeeping.
-/
namespace Foreach

/-- What went wrong, as a diagnostic names it. -/
inductive Code where
  /-- A type has no accessible `GetEnumerator`. -/
  | missingGetEnumerator
  /-- An enumerator has no readable `Current`. -/
  | missingCurrent
  /-- An enumerator has no `MoveNext` that answers with a truth value. -/
  | missingMoveNext
  /-- A used resource cannot be disposed of. -/
  | notDisposable
  /-- A variable is read before it has a value. -/
  | unassigned
  /-- A member of a null reference is accessed. -/
  | nullReference
  /-- A member has no body to run. -/
  | noNativeBody
  /-- A value is not of the kind an operation needs. -/
  | typeMismatch
  /-- A break stands outside of its loop. -/
  | invalidBreak
  /-- A function is called with the wrong number of arguments. -/
  | argumentCount
  /-- A handle names nothing. -/
  | invalidHandle
deriving DecidableEq

namespace Code

/-- All codes in the order of their numbers. -/
def all : List Code :=
  [missingGetEnumerator, missingCurrent, missingMoveNext, notDisposable, unassigned, nullReference,
    noNativeBody, typeMismatch, invalidBreak, argumentCount, invalidHandle]

/-- The written form of a code. -/
def text : Code → String
  | missingGetEnumerator => "E1001"
  | missingCurrent => "E1002"
  | missingMoveNext => "E1003"
  | notDisposable => "E2001"
  | unassigned => "E3001"
  | nullReference => "E3002"
  | noNativeBody => "E3003"
  | typeMismatch => "E3004"
  | invalidBreak => "E3005"
  | argumentCount => "E3006"
  | invalidHandle => "E9001"

/-- One line on what a code means. -/
def description : Code → String
  | missingGetEnumerator => "type has no accessible GetEnumerator()"
  | missingCurrent => "enumerator has no readable Current property"
  | missingMoveNext => "enumerator has no MoveNext() returning bool"
  | notDisposable => "type used in a using statement is not convertible to IDisposable"
  | unassigned => "variable read before assignment"
  | nullReference => "member access on a null reference"
  | noNativeBody => "member has no native implementation"
  | typeMismatch => "value has an unexpected runtime type"
  | invalidBreak => "break outside of a loop"
  | argumentCount => "wrong number of arguments"
  | invalidHandle => "unknown type or member handle"

/-- The kinds of work that raise diagnostics. -/
inductive Group where
  /-- The members of a type. -/
  | shape
  /-- The disposal of a resource. -/
  | disposal
  /-- Evaluation. -/
  | evaluation
  /-- Bookkeeping of the library. -/
  | bookkeeping
deriving DecidableEq

/-- The kind of work that raises a code. -/
def group : Code → Group
  | missingGetEnumerator | missingCurrent | missingMoveNext => .shape
  | notDisposable => .disposal
  | unassigned | nullReference | noNativeBody | typeMismatch | invalidBreak | argumentCount =>
    .evaluation
  | invalidHandle => .bookkeeping

/-- The code of a written form, whose letter may be small. The only letter whose capital is the
letter of a code is that letter itself, so capitals of ASCII letters suffice. -/
def ofText? (written : String) : Option Code :=
  all.find? fun code => code.text.toList = written.toList.map Char.toUpper

/-- Every code is read from its written form. -/
theorem ofText?_text (code : Code) : ofText? code.text = some code := by
  cases code <;> decide +kernel

end Code

end Foreach
