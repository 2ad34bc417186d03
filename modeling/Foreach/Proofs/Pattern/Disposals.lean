import Foreach.Proofs.Pattern.Detection
import Foreach.Proofs.Pattern.TwinDetection
import Foreach.Proofs.Types.Dispatch

/-!
# Detection and classification of disposal

What disposes of an enumerator is looked for in two ways: detection reports a member, and
classification tells how values of a type are disposed of. The first looks for a public method, of
the type or else of the disposal contract, and the second at flags and at what the type can serve
as. They agree in every registry that is built (`Registry.Built.disposal_agrees`).
-/
namespace Foreach.Registry

/-- What was found of an enumerator agrees with how values of its type are disposed of. -/
structure DisposalAgrees (registry : Registry) (type : TypeId) (shape : EnumeratorShape)
    (strategy : Option DisposalStrategy) : Prop where
  /-- A complete enumerator has something that disposes of it exactly if its values are disposed of
  at all. -/
  detected : shape.isComplete = true → (shape.dispose.isSome = true ↔ strategy.isSome = true)
  /-- It is what is called directly, if anything is. -/
  called : shape.isComplete = true → ∀ dispose, strategy = some (.byRefLike dispose) →
    shape.dispose = some dispose
  /-- What is called directly is declared by the type itself, and runs when it is called. -/
  own : ∀ dispose, strategy = some (.byRefLike dispose) →
    (∃ entry source, registry.type? type = some entry ∧ dispose ∈ entry.members ∧
      registry.member? dispose = some source ∧ source.owner = type) ∧
    registry.findImplementation? type dispose = .ok (some dispose)
  /-- There is a direct call exactly where values live on the stack alone. -/
  byRefLike : ∀ found, strategy = some found →
    (found.dispose?.isSome = true ↔ registry.isByRefLike type = .ok true)
  /-- Only copied values are disposed of as such. -/
  valueType : strategy = some .valueType → registry.isValueType type = .ok true
  /-- Only values that are neither copied nor on the stack alone are disposed of as references. -/
  referenceType : strategy = some .referenceType →
    registry.isValueType type = .ok false ∧ registry.isByRefLike type = .ok false

section Own

variable {registry : Registry} {type : TypeId} {dispose : MemberId}

/-- A type's own method of disposal is its first public one. -/
theorem ownDispose?_eq_publicIn? :
    registry.ownDispose? type = registry.publicIn? (isMethodOf contractNames.dispose []) type := by
  have same : isOwnDispose = fun entry =>
      entry.flags.isPublicInstance && isMethodOf contractNames.dispose [] entry := by
    funext entry
    rw [isOwnDispose, Bool.and_comm]
  rw [ownDispose?, publicIn?, same]

/-- A type's own method of disposal runs when it is called on a value of the type. -/
theorem Closed.findImplementation?_ownDispose (closed : registry.Closed) (has : registry.Has type)
    (plain : (registry.flagsOf type).isInterface = false)
    (isOwn : registry.ownDispose? type = some dispose) :
    ∃ source, registry.member? dispose = some source ∧ source.owner = type ∧
      registry.findImplementation? type dispose = .ok (some dispose) := by
  rw [ownDispose?_eq_publicIn?] at isOwn
  obtain ⟨source, sourceKnown, owner, isPublic, passes⟩ :=
    publicIn?_eq_some closed.toWellFormed isOwn
  obtain ⟨returns, kind⟩ := (isPublicMethod_iff.mp ⟨isPublic, passes⟩).kind
  have name : source.name = contractNames.dispose :=
    (isPublicMethod_iff.mp ⟨isPublic, passes⟩).name
  have test : namesakeTest source = isMethodOf contractNames.dispose [] := by
    rw [namesakeTest, kind, name]
  refine ⟨source, sourceKnown, owner, ?_⟩
  rw [closed.findImplementation?_eq_ok has sourceKnown (owner ▸ has), owner, plain, namesake?, test,
    publicMember?_of_own has isOwn]
  rfl

end Own

section Complete

variable {registry : Registry} (complete : registry.Complete) {type : TypeId}
include complete

/-- The contract's own method of disposal is found through the contract. -/
theorem Furnished.dispose_of_contract :
    registry.method? contractNames.dispose .disposable = some ⟨0⟩ := by
  have first : registry.publicIn? (isMethodOf contractNames.dispose []) .disposable = some ⟨0⟩ :=
    complete.keeps.findMember? initial_closed (by decide)
  exact publicMember?_of_own (complete.keeps.has (by decide)) first

/-- Unless values live on the stack alone, something disposes of them exactly if the type has the
disposal contract. -/
theorem Furnished.isSome_disposal? (boxable : (registry.flagsOf type).byRefLike = false) :
    (registry.disposal? type).isSome = (registry.plainContract? type .disposable).isSome := by
  rw [disposal?, boxable, complete.dispose_of_contract, complete.assignable_disposable boxable]
  cases registry.plainContract? type .disposable with
  | none => rfl
  | some contract => cases registry.method? contractNames.dispose type <;> rfl

end Complete

section Agreement

variable {registry : Registry} (complete : registry.Complete) {type : TypeId}
  (has : registry.Has type) (policy : Policy)
include complete has

omit complete has in
/-- What disposes of a complete enumerator is reported. -/
theorem dispose_enumeratorOf
    (isComplete : (registry.enumeratorOf policy type).isComplete = true) :
    (registry.enumeratorOf policy type).dispose = registry.disposal? type :=
  if_pos isComplete

/-- Where values live on the stack alone, the type's own method is reported and called. -/
theorem Furnished.disposalAgrees_of_stackOnly
    (stackOnly : (registry.flagsOf type).byRefLike = true)
    (plain : (registry.flagsOf type).isInterface = false) :
    registry.DisposalAgrees type (registry.enumeratorOf policy type)
      ((registry.ownDispose? type).map .byRefLike) := by
  have own : registry.disposal? type = registry.ownDispose? type := by
    rw [disposal?, if_pos stackOnly]
  have detected (isComplete : (registry.enumeratorOf policy type).isComplete = true) :
      (registry.enumeratorOf policy type).dispose = registry.ownDispose? type :=
    (dispose_enumeratorOf policy isComplete).trans own
  cases isOwn : registry.ownDispose? type with
  | none =>
    refine ⟨fun isComplete => ?_, by simp, by simp, by simp, by simp, by simp⟩
    rw [detected isComplete, isOwn]
    rfl
  | some dispose =>
    obtain ⟨entry, -, known, isListed, -⟩ := findMember?_eq_some isOwn
    obtain ⟨source, sourceKnown, owner, runs⟩ :=
      complete.findImplementation?_ownDispose has plain isOwn
    refine ⟨fun isComplete => ?_, fun isComplete called isCalled => ?_, fun called isCalled => ?_,
      fun found isFound => ?_, by simp, by simp⟩
    · rw [detected isComplete, isOwn]
      rfl
    · cases isCalled
      exact (detected isComplete).trans isOwn
    · cases isCalled
      exact ⟨⟨entry, source, known, isListed, sourceKnown, owner⟩, runs⟩
    · cases isFound
      rw [isByRefLike_eq_ok has, stackOnly]
      exact iff_of_true rfl rfl

/-- Where values can be converted, they are disposed of through the contract, if the type has it. -/
theorem Furnished.disposalAgrees_of_boxable
    (boxable : (registry.flagsOf type).byRefLike = false) :
    registry.DisposalAgrees type (registry.enumeratorOf policy type)
      ((registry.plainContract? type .disposable).map fun _ =>
        if (registry.flagsOf type).valueType then .valueType else .referenceType) := by
  have detected (isComplete : (registry.enumeratorOf policy type).isComplete = true) :
      (registry.enumeratorOf policy type).dispose.isSome =
        (registry.plainContract? type .disposable).isSome := by
    rw [dispose_enumeratorOf policy isComplete, complete.isSome_disposal? boxable]
  have notByRefLike : registry.isByRefLike type = .ok false := by
    rw [isByRefLike_eq_ok has, boxable]
  cases given : registry.plainContract? type .disposable with
  | none =>
    refine ⟨fun isComplete => ?_, nofun, nofun, nofun, nofun, nofun⟩
    rw [detected isComplete, given]
    rfl
  | some contract =>
    have reported (isComplete : (registry.enumeratorOf policy type).isComplete = true) :
        (registry.enumeratorOf policy type).dispose.isSome = true := by
      rw [detected isComplete, given]
      rfl
    rw [Option.map_some]
    cases copied : (registry.flagsOf type).valueType with
    | true =>
      refine ⟨fun isComplete => iff_of_true (reported isComplete) rfl, nofun, nofun,
        fun found isFound => ?_, fun _ => ?_, nofun⟩
      · cases isFound
        rw [notByRefLike]
        exact iff_of_false Bool.false_ne_true nofun
      · rw [isValueType_eq_ok has, copied]
    | false =>
      refine ⟨fun isComplete => iff_of_true (reported isComplete) rfl, nofun, nofun,
        fun found isFound => ?_, nofun, fun _ => ⟨?_, notByRefLike⟩⟩
      · cases isFound
        rw [notByRefLike]
        exact iff_of_false Bool.false_ne_true nofun
      · rw [isValueType_eq_ok has, copied]

end Agreement

/-- In every registry that is built, whatever may be edited, detection and classification of
disposal have answers for every registered type, and they agree. -/
theorem Built.disposal_agrees {mayEdit : TypeEntry → Prop} {registry : Registry} {type : TypeId}
    (built : Built mayEdit registry) (has : registry.Has type) (policy : Policy) :
    ∃ shape strategy, registry.isEnumerator policy type = .ok (shape.isComplete, shape) ∧
      registry.classifyDisposal type = .ok strategy ∧
        registry.DisposalAgrees type shape strategy := by
  have complete := built.complete
  refine ⟨_, _, complete.isEnumerator_eq_ok has policy, complete.classifyDisposal_eq_ok has, ?_⟩
  cases stackOnly : (registry.flagsOf type).byRefLike with
  | true =>
    have plain := (built.isInterface_of_byRefLike has stackOnly).1
    exact complete.disposalAgrees_of_stackOnly has policy stackOnly plain
  | false => exact complete.disposalAgrees_of_boxable has policy stackOnly

/-- An enumerator whose values live on the stack alone, with a method of disposal. -/
def stackCursor : Registry :=
  initial
    |>.after (Registration.declare { name := "Cursor", sort := .byRefLike })
    |>.after (Registration.addDeclaredMember 1 ⟨14⟩ (.property contractNames.current .int))
    |>.after (Registration.addDeclaredMember 1 ⟨14⟩ (.method contractNames.moveNext .bool))
    |>.after (Registration.addDeclaredMember 1 ⟨14⟩ (.method contractNames.dispose .void))

/-- The enumerator is registered without a stop. -/
theorem stackCursor_built : Built TypeEntry.IsOriginal stackCursor := by
  have start : Built TypeEntry.IsOriginal .initial := .initial
  have declared := start.declare { name := "Cursor", sort := .byRefLike } rfl
  have first := declared.addMember ⟨14⟩ (.property contractNames.current .int)
    (by decide) (by decide) (by decide)
  have second := first.addMember ⟨14⟩ (.method contractNames.moveNext .bool)
    (by decide) (by decide) (by decide)
  exact second.addMember ⟨14⟩ _ (by decide) (by decide) (by decide)

/-- The enumerator's own method is both reported and called. -/
theorem stackCursor_disposal_agrees : ∃ shape,
    stackCursor.isEnumerator {} ⟨14⟩ = .ok (true, shape) ∧
      shape.dispose = some ⟨10⟩ ∧
        stackCursor.DisposalAgrees ⟨14⟩ shape (some (.byRefLike ⟨10⟩)) := by
  have has : stackCursor.Has ⟨14⟩ := by decide
  obtain ⟨shape, strategy, isShape, isStrategy, agrees⟩ :=
    stackCursor_built.disposal_agrees has {}
  have found : stackCursor.isEnumerator {} ⟨14⟩ =
      .ok (true, ⟨some ⟨14⟩, some ⟨8⟩, some ⟨9⟩, some ⟨10⟩, some .int⟩) := by
    decide
  have classified : stackCursor.classifyDisposal ⟨14⟩ = .ok (some (.byRefLike ⟨10⟩)) := by decide
  obtain ⟨-, rfl⟩ := Prod.mk.inj (Except.ok.inj (found.symm.trans isShape))
  cases classified.symm.trans isStrategy
  exact ⟨_, found, rfl, agrees⟩

end Foreach.Registry
