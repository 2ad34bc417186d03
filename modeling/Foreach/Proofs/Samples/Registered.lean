import Mathlib
import Foreach.Proofs.Lowering.LoopTree
import Foreach.Samples.Sum

/-!
# The fixtures as they are registered

The registry of the fixtures is one closed value, so what is in it is found by evaluation. A sum
over a fixture uses four members, whatever the policy; `Serves` says that each of them runs the body
that was written for it. The fixtures without a disposal are refused by every policy.
-/
namespace Foreach.Samples

/-- The fixtures as they are registered. -/
@[irreducible] def registered : Samples :=
  match build with
  | .ok samples => samples
  | .error _ => ⟨.initial, .empty, []⟩

/-- The fixtures can be registered. -/
theorem build_eq : build = .ok registered := by
  have succeeds : (match build with | .ok _ => true | .error _ => false) = true := by
    decide +kernel
  unfold registered
  generalize build = built at succeeds ⊢
  cases built with
  | ok samples => rfl
  | error stop => cases succeeds

/-- The types of the fixtures. -/
theorem registered_fixtures : registered.fixtures =
    [⟨.valueType, ⟨19⟩, ⟨20⟩⟩, ⟨.disposableValueType, ⟨26⟩, ⟨27⟩⟩,
      ⟨.disposableReferenceType, ⟨33⟩, ⟨34⟩⟩, ⟨.byRefLike, ⟨40⟩, ⟨41⟩⟩,
      ⟨.disposableByRefLike, ⟨47⟩, ⟨48⟩⟩] := by
  decide +kernel

/-- The bodies of the fixtures' members. -/
theorem registered_natives : registered.natives = ⟨
    [(⟨55⟩, dispose), (⟨54⟩, moveNext), (⟨53⟩, current), (⟨56⟩, getEnumerator ⟨48⟩),
      (⟨44⟩, moveNext), (⟨43⟩, current), (⟨45⟩, getEnumerator ⟨41⟩),
      (⟨36⟩, dispose), (⟨35⟩, moveNext), (⟨34⟩, current), (⟨37⟩, getEnumerator ⟨34⟩),
      (⟨25⟩, dispose), (⟨24⟩, moveNext), (⟨23⟩, current), (⟨26⟩, getEnumerator ⟨27⟩),
      (⟨14⟩, moveNext), (⟨13⟩, current), (⟨15⟩, getEnumerator ⟨20⟩)]⟩ := by
  cbv

/-- All policies. -/
def policies : List Policy :=
  [⟨.genericFirst, .firstDeclared⟩, ⟨.genericFirst, .reject⟩, ⟨.nonGenericFirst, .firstDeclared⟩,
    ⟨.nonGenericFirst, .reject⟩]

/-- No policy is left out. -/
theorem mem_policies (policy : Policy) : policy ∈ policies := by
  obtain ⟨order, ambiguity⟩ := policy
  cases order <;> cases ambiguity <;> decide

/-- What a policy makes of the fixtures' types. -/
def resolutions (policy : Policy) : List (Checked (Except LoweringError LoopMembers)) :=
  registered.fixtures.map fun fixture => registered.registry.resolveLoop policy fixture.enumerable

/-- Every policy makes the same of the fixtures' types. -/
theorem resolutions_eq : ∀ policy ∈ policies, resolutions policy =
    [.ok (.error (.notDisposable "ValueTypeEnumerator`1")),
      .ok (.ok ⟨⟨26⟩, ⟨27⟩, ⟨23⟩, ⟨24⟩, some .valueType⟩),
      .ok (.ok ⟨⟨37⟩, ⟨34⟩, ⟨34⟩, ⟨35⟩, some .referenceType⟩),
      .ok (.error (.notDisposable "ByRefLikeEnumerator`1")),
      .ok (.ok ⟨⟨56⟩, ⟨48⟩, ⟨53⟩, ⟨54⟩, some (.byRefLike ⟨55⟩)⟩)] := by
  decide +kernel

/-- Every policy lowers the sums over the same fixtures. -/
theorem lowered_eq : ∀ policy ∈ policies,
    (registered.fixtures.map fun fixture =>
      (SumProgram.lower registered.registry policy fixture.enumerable).map
        fun lowered => lowered.map fun _ => ()) =
      [.ok (.error (.notDisposable "ValueTypeEnumerator`1")), .ok (.ok ()), .ok (.ok ()),
        .ok (.error (.notDisposable "ByRefLikeEnumerator`1")), .ok (.ok ())] := by
  decide +kernel

/-- The names of the enumerators that cannot be disposed of. -/
theorem metadataNames_eq :
    registered.registry.metadataName ⟨20⟩ = .ok "ValueTypeEnumerator`1" ∧
      registered.registry.metadataName ⟨41⟩ = .ok "ByRefLikeEnumerator`1" := by
  decide +kernel

/-- The members that sums use, with their types and with the members that run when they are
called. -/
def implementations : List (TypeId × MemberId × MemberId) :=
  [(⟨26⟩, ⟨26⟩, ⟨26⟩), (⟨27⟩, ⟨24⟩, ⟨24⟩), (⟨27⟩, ⟨23⟩, ⟨23⟩), (⟨27⟩, ⟨0⟩, ⟨25⟩),
    (⟨33⟩, ⟨37⟩, ⟨37⟩), (⟨34⟩, ⟨35⟩, ⟨35⟩), (⟨34⟩, ⟨34⟩, ⟨34⟩), (⟨34⟩, ⟨0⟩, ⟨36⟩),
    (⟨47⟩, ⟨56⟩, ⟨56⟩), (⟨48⟩, ⟨54⟩, ⟨54⟩), (⟨48⟩, ⟨53⟩, ⟨53⟩), (⟨48⟩, ⟨55⟩, ⟨55⟩)]

/-- The members that run when members are called. -/
theorem findImplementation?_eq : ∀ entry ∈ implementations,
    registered.registry.findImplementation? entry.1 entry.2.1 = .ok (some entry.2.2) := by
  decide +kernel

/-- The method of the disposal contract. -/
theorem disposeMethod_eq : registered.registry.disposeMethod = .ok ⟨0⟩ := by
  decide +kernel

/-- A member that is called on an object of a type runs a body. -/
def Runs (type : TypeId) (member : MemberId) (body : NativeBody) : Prop :=
  ∃ target, registered.registry.findImplementation? type member = .ok (some target) ∧
    registered.natives.body? target = some body

/-- The members that a sum over a fixture uses run the bodies that were written for them. -/
structure Serves (fixture : Fixture) (members : LoopMembers) (method : MemberId) : Prop where
  /-- What gives the enumerator. -/
  getEnumerator : Runs fixture.enumerable members.getEnumerator
    (Samples.getEnumerator fixture.enumerator)
  /-- What goes on to the next item. -/
  moveNext : Runs fixture.enumerator members.moveNext Samples.moveNext
  /-- What reads the current item. -/
  current : Runs fixture.enumerator members.current Samples.current
  /-- What disposes of the enumerator. -/
  dispose : Runs fixture.enumerator method Samples.dispose

/-- A member that is implemented by one with a body runs that body. -/
theorem runs_of_mem {type : TypeId} {member target : MemberId} {body : NativeBody}
    (listed : (type, member, target) ∈ implementations)
    (defined : registered.natives.body? target = some body) : Runs type member body :=
  ⟨target, findImplementation?_eq _ listed, defined⟩

/-- A sum of which only its existence is known. -/
theorem lowered_of_map {lowered : Checked (Except LoweringError SumProgram)}
    (succeeds : (lowered.map fun result => result.map fun _ => ()) = .ok (.ok ())) :
    ∃ program, lowered = .ok (.ok program) := by
  obtain stop | result := lowered
  · cases succeeds
  · obtain error | program := result
    · cases succeeds
    · exact ⟨program, rfl⟩

/-- A refusal of a sum. -/
theorem refused_of_map {lowered : Checked (Except LoweringError SumProgram)}
    {error : LoweringError}
    (fails : (lowered.map fun result => result.map fun _ => ()) = .ok (.error error)) :
    lowered = .ok (.error error) := by
  obtain stop | result := lowered
  · cases fails
  · obtain reason | program := result
    · cases fails
      rfl
    · cases fails

/-- Every policy finds what a sum over a fixture with a disposal uses. -/
theorem serves_of_isDisposable {kind : FixtureKind} (disposable : kind.isDisposable = true)
    (policy : Policy) : ∃ fixture members strategy method program,
      registered.fixture kind = .ok fixture ∧
      registered.registry.resolveLoop policy fixture.enumerable = .ok (.ok members) ∧
      members.disposal = some strategy ∧
      strategy.method registered.registry = .ok method ∧
      Serves fixture members method ∧
      SumProgram.lower registered.registry policy fixture.enumerable = .ok (.ok program) := by
  have resolved := resolutions_eq policy (mem_policies policy)
  have lowered := lowered_eq policy (mem_policies policy)
  rw [resolutions, registered_fixtures] at resolved
  rw [registered_fixtures] at lowered
  simp only [List.map_cons, List.cons.injEq] at resolved lowered
  obtain ⟨-, valueType, referenceType, -, byRefLike, -⟩ := resolved
  obtain ⟨-, valueSum, referenceSum, -, byRefLikeSum, -⟩ := lowered
  have defined := fun target =>
    congrArg (fun natives => Natives.body? natives target) registered_natives
  unfold fixture
  rw [registered_fixtures]
  cases kind with
  | valueType | byRefLike => cases disposable
  | disposableValueType =>
    obtain ⟨program, sum⟩ := lowered_of_map valueSum
    refine ⟨_, _, _, ⟨0⟩, program, rfl, valueType, rfl, disposeMethod_eq, ?_, sum⟩
    exact {
      getEnumerator := runs_of_mem (by decide) (defined ⟨26⟩)
      moveNext := runs_of_mem (by decide) (defined ⟨24⟩)
      current := runs_of_mem (by decide) (defined ⟨23⟩)
      dispose := runs_of_mem (by decide) (defined ⟨25⟩) }
  | disposableReferenceType =>
    obtain ⟨program, sum⟩ := lowered_of_map referenceSum
    refine ⟨_, _, _, ⟨0⟩, program, rfl, referenceType, rfl, disposeMethod_eq, ?_, sum⟩
    exact {
      getEnumerator := runs_of_mem (by decide) (defined ⟨37⟩)
      moveNext := runs_of_mem (by decide) (defined ⟨35⟩)
      current := runs_of_mem (by decide) (defined ⟨34⟩)
      dispose := runs_of_mem (by decide) (defined ⟨36⟩) }
  | disposableByRefLike =>
    obtain ⟨program, sum⟩ := lowered_of_map byRefLikeSum
    refine ⟨_, _, _, ⟨55⟩, program, rfl, byRefLike, rfl, rfl, ?_, sum⟩
    exact {
      getEnumerator := runs_of_mem (by decide) (defined ⟨56⟩)
      moveNext := runs_of_mem (by decide) (defined ⟨54⟩)
      current := runs_of_mem (by decide) (defined ⟨53⟩)
      dispose := runs_of_mem (by decide) (defined ⟨55⟩) }

/-- Every policy refuses the sum over a fixture without a disposal, by the enumerator's name. -/
theorem refused_of_not_isDisposable {kind : FixtureKind} (lacking : kind.isDisposable = false)
    (policy : Policy) : ∃ fixture name,
      registered.fixture kind = .ok fixture ∧
      registered.registry.metadataName fixture.enumerator = .ok name ∧
      SumProgram.lower registered.registry policy fixture.enumerable =
        .ok (.error (.notDisposable name)) := by
  have lowered := lowered_eq policy (mem_policies policy)
  rw [registered_fixtures] at lowered
  simp only [List.map_cons, List.cons.injEq] at lowered
  obtain ⟨valueType, -, -, byRefLike, -⟩ := lowered
  unfold fixture
  rw [registered_fixtures]
  cases kind with
  | disposableValueType | disposableReferenceType | disposableByRefLike => cases lacking
  | valueType => exact ⟨_, _, rfl, metadataNames_eq.1, refused_of_map valueType⟩
  | byRefLike => exact ⟨_, _, rfl, metadataNames_eq.2, refused_of_map byRefLike⟩

end Foreach.Samples
