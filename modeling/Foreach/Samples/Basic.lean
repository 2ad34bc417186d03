import Foreach.Samples.Bodies
import Foreach.Samples.FixtureKind
import Foreach.Types.Registration
import Foreach.Types.WellKnown

/-!
# The fixtures

One generic enumerable with a generic enumerator for each kind of fixture. The bodies of their
members are given for the instances over integers alone.
-/
namespace Foreach

/-- The types of a fixture over integers. -/
structure Fixture where
  /-- The kind. -/
  kind : FixtureKind
  /-- The enumerable type. -/
  enumerable : TypeId
  /-- The enumerator type. -/
  enumerator : TypeId
deriving DecidableEq

/-- A registry with all fixtures, and the bodies of their members. -/
structure Samples where
  /-- The registry. -/
  registry : Registry
  /-- The bodies. -/
  natives : Natives
  /-- The fixtures, in the order of their kinds. -/
  fixtures : List Fixture

namespace Samples

/-- The namespace of the fixtures' types. -/
def space : String := "Duck.TestData"

/-- The bound on nesting when the fixtures are registered; they mention no nested instances. -/
def depth : Nat := 8

/-- The members of a fixture's enumerator definition. -/
structure EnumeratorMembers where
  /-- The definition. -/
  definition : TypeId
  /-- What reads the current item. -/
  current : MemberId
  /-- What goes on to the next item. -/
  moveNext : MemberId
  /-- What disposes of the enumerator. -/
  dispose : Option MemberId

/-- Register the enumerator definition of a fixture. -/
def declareEnumerator (kind : FixtureKind) : Registration EnumeratorMembers := do
  let definition ← Registration.declare
    { name := kind.enumeratorName, sort := kind.enumeratorSort, space, parameters := ["T"] }
  let item ← Registration.ask fun registry => registry.parameter definition 0
  if kind.hasContract then Registration.addInterface depth definition .disposable
  let current ← Registration.addDeclaredMember depth definition (.property "Current" item)
  let moveNext ← Registration.addDeclaredMember depth definition (.method "MoveNext" .bool)
  let dispose ←
    if kind.isDisposable then
      some <$> Registration.addDeclaredMember depth definition (.method "Dispose" .void)
    else pure none
  return { definition, current, moveNext, dispose }

/-- The member of an instance that was made from a member of its definition. -/
def memberOfInstance (type : TypeId) (origin : MemberId) : Registration MemberId := do
  let registry ← get
  let made := (registry.membersOf type).find? fun member =>
    match registry.member? member with
    | some entry => entry.definition = some origin
    | none => false
  return made.getD origin

/-- Register a fixture, and give the members of its instances over integers their bodies. -/
def declareFixture (natives : Natives) (kind : FixtureKind) :
    Registration (Natives × Fixture) := do
  let members ← declareEnumerator kind
  let definition ← Registration.declare
    { name := kind.enumerableName, sort := .classType, space, parameters := ["T"] }
  let item ← Registration.ask fun registry => registry.parameter definition 0
  let returned ← Registration.instantiate depth members.definition [item]
  let origin ← Registration.addDeclaredMember depth definition (.method "GetEnumerator" returned)
  let enumerable ← Registration.instantiate depth definition [.int]
  let enumerator ← Registration.instantiate depth members.definition [.int]
  let natives := natives.define (← memberOfInstance enumerable origin) (getEnumerator enumerator)
  let natives := natives.define (← memberOfInstance enumerator members.current) current
  let natives := natives.define (← memberOfInstance enumerator members.moveNext) moveNext
  let natives ← match members.dispose with
    | none => pure natives
    | some origin => pure (natives.define (← memberOfInstance enumerator origin) dispose)
  return (natives, { kind, enumerable, enumerator })

/-- Register fixtures of several kinds in order. -/
def declareFixtures (natives : Natives) :
    List FixtureKind → Registration (Natives × List Fixture)
  | [] => return (natives, [])
  | kind :: rest => do
    let (natives, fixture) ← declareFixture natives kind
    let (natives, fixtures) ← declareFixtures natives rest
    return (natives, fixture :: fixtures)

/-- The registry with all fixtures. -/
def build : Checked Samples := do
  let ((natives, fixtures), registry) ← (declareFixtures .empty FixtureKind.all).run .initial
  return { registry, natives, fixtures }

/-- The fixture of a kind. -/
def fixture (samples : Samples) (kind : FixtureKind) : Checked Fixture :=
  Checked.ofOption (samples.fixtures.find? fun fixture => fixture.kind = kind)

/-- Put an enumerable of a fixture's type on a heap, over given items. -/
def newEnumerable (heap : Heap) (fixture : Fixture) (items : List Int64) : Heap × ObjectId :=
  let (heap, array) := heap.newArray (items.map Value.int).toArray
  heap.newObject fixture.enumerable [.array array, .int 0]

/-- How many enumerators of an enumerable have been disposed of. -/
def disposals (heap : Heap) (enumerable : ObjectId) : Except EvaluationError Int64 := do
  (← heap.field enumerable disposalsField).asInt

end Samples

end Foreach
