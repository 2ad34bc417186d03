import Foreach.Samples.Sum

/-!
# Reports on the fixtures

What is found of a fixture's types, and what its sum looks like or gives, as text.
-/
namespace Foreach.Samples

/-- A member with its type and the type of what it answers with; a dash for none. -/
def describeMember (registry : Registry) : Option MemberId → Checked String
  | none => return "-"
  | some member => do
    let entry ← registry.member member
    let owner ← registry.displayName entry.owner
    return owner ++ "." ++ entry.name ++ ": " ++ (← registry.displayName entry.valueType)

/-- The words for how an enumerator is disposed of. -/
def disposalText : Option DisposalStrategy → String
  | some .valueType => "through IDisposable (value type)"
  | some .referenceType => "through IDisposable, null-guarded"
  | some (.byRefLike _) => "direct Dispose() call (stack-only type)"
  | none => "not disposable"

/-- The report on a fixture: whether it can be enumerated, by which members, and how its enumerator
is disposed of. -/
def inspectFixture (samples : Samples) (policy : Policy) (fixture : Fixture) :
    Checked String := do
  let registry := samples.registry
  let (found, shape) ← registry.isEnumerable policy fixture.enumerable
  let name ← registry.displayName fixture.enumerable
  let verdict := if found then "enumerable" else "not enumerable"
  let lines := [
    name ++ " (" ++ fixture.kind.text ++ "): " ++ verdict,
    "  GetEnumerator: " ++ (← describeMember registry shape.getEnumerator),
    "  Current:       " ++ (← describeMember registry shape.enumerator.current),
    "  MoveNext:      " ++ (← describeMember registry shape.enumerator.moveNext),
    "  Dispose:       " ++ (← describeMember registry shape.enumerator.dispose)]
  let last ← match shape.enumerator.type with
    | none => pure []
    | some enumerator =>
      pure ["  disposal:      " ++ disposalText (← registry.classifyDisposal enumerator)]
  return String.join ((lines ++ last).map (· ++ "\n"))

/-- The reports on fixtures of several kinds, with a blank line between them. -/
def inspect (samples : Samples) (policy : Policy) (kinds : List FixtureKind) :
    Checked String := do
  let reports ← kinds.mapM fun kind => do
    samples.inspectFixture policy (← samples.fixture kind)
  return "\n".intercalate reports

/-- The source text of a fixture's sum. -/
def lower (samples : Samples) (policy : Policy) (width : Nat) (kind : FixtureKind) :
    Checked (Except SumError String) := do
  let fixture ← samples.fixture kind
  match ← SumProgram.lower samples.registry policy fixture.enumerable with
  | .error error => return .error (.lowering error)
  | .ok program => return .ok (← program.render samples.registry width)

/-- What a run of a fixture's sum gives, in words. -/
def run (samples : Samples) (policy : Policy) (kind : FixtureKind) (items : List Int64) :
    Checked (Except SumError String) := do
  let fixture ← samples.fixture kind
  let outcome ← SumProgram.run samples policy fixture items
  return outcome.map fun run =>
    "sum = " ++ Text.writeInteger run.sum ++ "\nenumerator disposed " ++
      Text.writeInteger run.disposals ++ " time(s)"

end Foreach.Samples
