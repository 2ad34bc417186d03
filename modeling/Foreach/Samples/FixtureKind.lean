import Foreach.Types.Entry

/-!
# Kinds of fixtures

A fixture is an enumerable over integers. There is one for each way in which its enumerator can
live and be disposed of:

* a value type that cannot be disposed of, and one that can, through the contract;
* a reference type that can be disposed of through the contract;
* a value on the stack that cannot be disposed of, and one that can, by a method of its own.
-/
namespace Foreach

/-- The ways in which a fixture's enumerator lives and is disposed of. -/
inductive FixtureKind where
  /-- A value type that cannot be disposed of. -/
  | valueType
  /-- A value type with the disposal contract. -/
  | disposableValueType
  /-- A reference type with the disposal contract. -/
  | disposableReferenceType
  /-- A value on the stack that cannot be disposed of. -/
  | byRefLike
  /-- A value on the stack with a disposal method of its own. -/
  | disposableByRefLike
deriving DecidableEq

namespace FixtureKind

/-- All kinds, in the order in which their fixtures are registered. -/
def all : List FixtureKind :=
  [valueType, disposableValueType, disposableReferenceType, byRefLike, disposableByRefLike]

/-- The word for a kind. -/
def text : FixtureKind → String
  | valueType => "value-type"
  | disposableValueType => "disposable-value-type"
  | disposableReferenceType => "disposable-reference-type"
  | byRefLike => "by-ref-like"
  | disposableByRefLike => "disposable-by-ref-like"

/-- The kind of a word. -/
def ofText? (word : String) : Option FixtureKind := all.find? fun kind => kind.text = word

/-- The words for all kinds, separated by commas. -/
def allTexts : String := ", ".intercalate (all.map text)

/-- Every kind is read from its word. -/
theorem ofText?_text (kind : FixtureKind) : ofText? kind.text = some kind := by
  cases kind <;> decide +kernel

/-- The name of a fixture's enumerator type. -/
def enumeratorName : FixtureKind → String
  | valueType => "ValueTypeEnumerator"
  | disposableValueType => "DisposableValueTypeEnumerator"
  | disposableReferenceType => "DisposableReferenceTypeEnumerator"
  | byRefLike => "ByRefLikeEnumerator"
  | disposableByRefLike => "DisposableByRefLikeEnumerator"

/-- The name of a fixture's enumerable type. -/
def enumerableName (kind : FixtureKind) : String := "EnumerableWith" ++ kind.enumeratorName

/-- What a fixture's enumerator is declared as. -/
def enumeratorSort : FixtureKind → TypeSort
  | valueType | disposableValueType => .structType
  | disposableReferenceType => .classType
  | byRefLike | disposableByRefLike => .byRefLike

/-- Whether a fixture's enumerator has a disposal method. -/
def isDisposable : FixtureKind → Bool
  | disposableValueType | disposableReferenceType | disposableByRefLike => true
  | valueType | byRefLike => false

/-- Whether a fixture's enumerator has the disposal contract. -/
def hasContract : FixtureKind → Bool
  | disposableValueType | disposableReferenceType => true
  | valueType | byRefLike | disposableByRefLike => false

end FixtureKind

end Foreach
