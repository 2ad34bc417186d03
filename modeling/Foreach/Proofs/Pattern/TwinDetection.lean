import Foreach.Proofs.Pattern.Contracts
import Foreach.Proofs.Types.Replacement
import Foreach.Proofs.Types.TwinHierarchy

/-!
# Enumerating a definition and its instances

An instance of a definition can be enumerated if the definition can. Its enumerator and its items
are of the types that those of the definition should become in the instance, and enumerators are
disposed of in the same way (`Beside.enumerableShape_agrees`). Replacing parameters gives these
types exactly if they do not mention the definition.

It takes that the definition is not mentioned where enumeration looks. A sequence that is its own
enumerator mentions itself, and its instance answers with the sequence and not with the instance
(`sequenceTypes_not_detectionCommutes`).
-/
namespace Foreach

/-- Members that are alike are alike the other way round. -/
theorem MemberEntry.Alike.symm {copy source : MemberEntry} (alike : copy.Alike source) :
    source.Alike copy :=
  ⟨alike.name.symm, alike.flags.symm, alike.arity.symm⟩

namespace Registry

/-- What is found of one type agrees with what is found of another if that can be enumerated as
well, with an enumerator and items of related types, and with an enumerator that is disposed of in
the same way. -/
structure Agrees (registry : Registry) (related : TypeId → TypeId → Prop)
    (shape other : EnumerableShape) : Prop where
  /-- The other type can be enumerated. -/
  isComplete : other.isComplete = true
  /-- The enumerators are of related types and are disposed of in the same way. -/
  enumerator : ∃ enumerator ∈ shape.enumerator.type, ∃ result ∈ other.enumerator.type,
    related enumerator result ∧ ∃ strategy strategy',
      registry.classifyDisposal enumerator = .ok strategy ∧
        registry.classifyDisposal result = .ok strategy' ∧
          strategy'.map DisposalStrategy.name = strategy.map DisposalStrategy.name
  /-- The items are of related types. -/
  itemType : ∃ item ∈ shape.enumerator.itemType, ∃ result ∈ other.enumerator.itemType,
    related item result

/-- Related first answers, and related second ones if there are none, are related. -/
theorem rel_or {α β : Type} {related : α → β → Prop} {first second : Option α}
    {first' second' : Option β} (firsts : Option.Rel related first first')
    (seconds : Option.Rel related second second') :
    Option.Rel related (first.or second) (first'.or second') := by
  cases firsts with
  | some holds => exact .some holds
  | none => exact seconds

/-- What is related to an option that is there is there. -/
theorem exists_of_rel {α β : Type} {related : α → β → Prop} {given : Option α} {other : Option β}
    {first : α} (both : Option.Rel related given other) (isGiven : given = some first) :
    ∃ second, other = some second ∧ related first second := by
  cases both with
  | some holds =>
    cases isGiven
    exact ⟨_, rfl, holds⟩
  | none => cases isGiven

/-- Related options are both there or both not. -/
theorem isSome_of_rel {α β : Type} {related : α → β → Prop} {given : Option α} {other : Option β}
    (both : Option.Rel related given other) : other.isSome = given.isSome := by
  cases both <;> rfl

/-- What is the same of what is related is the same of related options. -/
theorem map_eq_of_rel {α β γ : Type} {related : α → β → Prop} {given : Option α} {other : Option β}
    {image : α → γ} {image' : β → γ} (both : Option.Rel related given other)
    (each : ∀ first second, image' second = image first) : other.map image' = given.map image := by
  cases both with
  | some => exact congrArg some (each _ _)
  | none => rfl

/-- Related options lead on to related options. -/
theorem rel_bind {α β γ δ : Type} {related : α → β → Prop} {agree : γ → δ → Prop}
    {given : Option α} {given' : Option β} {answer : α → Option γ} {answer' : β → Option δ}
    (both : Option.Rel related given given')
    (each : ∀ {type other}, related type other → Option.Rel agree (answer type) (answer' other)) :
    Option.Rel agree (given.bind answer) (given'.bind answer') := by
  cases both with
  | some holds => exact each holds
  | none => exact .none

/-- A search for a method by name does not tell apart members that are alike. -/
theorem blind_method {source made : MemberEntry} {name : String} (alike : made.Alike source) :
    (made.flags.isPublicInstance && isMethodOf name [] made) =
      (source.flags.isPublicInstance && isMethodOf name [] source) := by
  rw [Bool.eq_iff_iff, Bool.and_eq_true, Bool.and_eq_true, isPublicMethod_iff, isPublicMethod_iff]
  exact ⟨alike.symm.isPublicMethod, alike.isPublicMethod⟩

/-- A search for a property by name does not tell apart members that are alike. -/
theorem blind_property {source made : MemberEntry} {name : String} (alike : made.Alike source) :
    (made.flags.isPublicInstance && isReadableOf name made) =
      (source.flags.isPublicInstance && isReadableOf name source) := by
  rw [Bool.eq_iff_iff, Bool.and_eq_true, Bool.and_eq_true, isPublicProperty_iff,
    isPublicProperty_iff]
  exact ⟨alike.symm.isPublicProperty, alike.isPublicProperty⟩

/-- Twins that enumeration looks for answer with types of which one is what the other should
become. -/
theorem MemberTwin.valueType {registry : Registry} {substitution : Substitution}
    {definition type : TypeId} {member copy : MemberId} {source : MemberEntry}
    (twin : registry.MemberTwin substitution definition type member copy)
    (known : registry.member? member = some source) (isLooked : source.name ∈ lookedFor) :
    ∃ made, registry.member? copy = some made ∧
      registry.Specializes substitution definition type source.valueType made.valueType := by
  obtain ⟨source', made, known', madeKnown, -, specializes⟩ := twin
  cases known.symm.trans known'
  exact ⟨made, madeKnown, specializes isLooked⟩

/-- A contract without parameters is used if it is among the types that are looked at. -/
theorem plainContract?_eq_find? (registry : Registry) (type contract : TypeId) :
    registry.plainContract? type contract =
      (type :: registry.contracts type).find? fun used => used = contract := by
  unfold plainContract?
  by_cases isThere : contract ∈ type :: registry.contracts type
  · rw [if_pos isThere]
    cases found : (type :: registry.contracts type).find? fun used => used = contract with
    | none =>
      have absent := List.find?_eq_none.mp found contract isThere
      exact absurd (decide_eq_true rfl) absent
    | some used =>
      have same := List.find?_some found
      rw [of_decide_eq_true same]
  · rw [if_neg isThere, eq_comm, List.find?_eq_none]
    intro used isUsed same
    exact isThere (of_decide_eq_true same ▸ isUsed)

/-- The first instance of a contract counts. -/
theorem genericContract?_eq_find? {policy : Policy} (counts : policy.ambiguity = .firstDeclared)
    (registry : Registry) (type contract : TypeId) :
    registry.genericContract? policy type contract =
      (type :: registry.contracts type).find? (registry.standsFor contract) := by
  rw [← List.head?_filter, genericContract?, counts, instancesIn]
  generalize (type :: registry.contracts type).filter (registry.standsFor contract) = found
  cases found with
  | nil => rfl
  | cons first rest => cases rest <;> rfl

/-- A type whose values do not live on the stack alone can serve as a disposable exactly if it is
used through the contract. -/
theorem Furnished.assignable_disposable {registry : Registry} (complete : registry.Complete)
    {type : TypeId} (notByRefLike : (registry.flagsOf type).byRefLike = false) :
    registry.assignable type .disposable = (registry.plainContract? type .disposable).isSome := by
  obtain ⟨entry, known, continued⟩ :=
    complete.keeps.entries (show initial.type? .disposable = some _ from rfl)
  have isInterface : (registry.flagsOf .disposable).isInterface = true := by
    rw [flagsOf, known]
    exact congrArg TypeFlags.isInterface continued.flags
  rw [assignable, if_pos isInterface, notByRefLike, Bool.not_false, Bool.true_and, plainContract?]
  by_cases isThere : TypeId.disposable ∈ type :: registry.contracts type
  · rw [if_pos isThere, Option.isSome_some, Bool.or_eq_true, decide_eq_true_eq,
      List.contains_iff_mem]
    exact (List.mem_cons.mp isThere).imp_left Eq.symm
  · rw [if_neg isThere, Option.isSome_none, ← Bool.not_eq_true, Bool.or_eq_true, decide_eq_true_eq,
      List.contains_iff_mem]
    exact fun either => isThere (List.mem_cons.mpr (either.imp_left Eq.symm))

/-- How a value of a registered type is disposed of. -/
theorem Furnished.classifyDisposal_eq_ok {registry : Registry} (complete : registry.Complete)
    {type : TypeId} (has : registry.Has type) :
    registry.classifyDisposal type = .ok (if (registry.flagsOf type).byRefLike then
      (registry.ownDispose? type).map .byRefLike
    else (registry.plainContract? type .disposable).map fun _ =>
      if (registry.flagsOf type).valueType then .valueType else .referenceType) := by
  have disposableHas : registry.Has .disposable := complete.keeps.has (by decide)
  rw [classifyDisposal, isByRefLike_eq_ok has]
  refine Work.checked_bind_eq_ok.mpr ⟨_, rfl, ?_⟩
  cases byRefLike : (registry.flagsOf type).byRefLike with
  | true => rfl
  | false =>
    rw [if_neg Bool.false_ne_true, if_neg Bool.false_ne_true,
      complete.isAssignableTo_eq_ok has disposableHas, complete.assignable_disposable byRefLike]
    refine Work.checked_bind_eq_ok.mpr ⟨_, rfl, ?_⟩
    cases registry.plainContract? type .disposable with
    | none => rfl
    | some contract =>
      rw [Option.isSome_some, if_pos rfl, isValueType_eq_ok has]
      rfl

section Twins

variable {registry : Registry} {substitution : Substitution} {definition type : TypeId}
  (beside : registry.Beside substitution definition type)

include beside in
/-- A well-known type without parameters should become itself. -/
theorem Beside.eq_of_plain {plain result : TypeId} {whole : TypeEntry}
    (wellKnown : initial.type? plain = some whole) (uncopied : whole.definition = none)
    (noParameters : whole.parameters = []) (notParameter : whole.flags.genericParameter = false)
    (specializes : registry.Specializes substitution definition type plain result) :
    result = plain := by
  obtain ⟨entry, known, continued⟩ := beside.built.complete.keeps.entries wellKnown
  have kept := beside.suits.kept known (continued.flags ▸ notParameter)
  exact (beside.eq_iff_of_plain ⟨specializes, kept⟩ known (continued.definition.trans uncopied)
    (continued.parameters.trans noParameters)).mpr rfl

variable {other result : TypeId}
  (twin : registry.Twin substitution definition type other result)
include beside twin

/-- Twins have twins for methods without parameters. -/
theorem Beside.method? (name : String) :
    Option.Rel (registry.MemberTwin substitution definition type) (registry.method? name other)
      (registry.method? name result) :=
   beside.publicMember? twin blind_method

/-- Twins have twins for properties. -/
theorem Beside.property? (name : String) :
    Option.Rel (registry.MemberTwin substitution definition type) (registry.property? name other)
      (registry.property? name result) := by
  exact beside.publicMember? twin blind_property

/-- Twins are used through the same contracts without parameters. -/
theorem Beside.plainContract? {contract : TypeId} {whole : TypeEntry}
    (wellKnown : initial.type? contract = some whole) (uncopied : whole.definition = none)
    (noParameters : whole.parameters = []) :
    Option.Rel (registry.Twin substitution definition type)
      (registry.plainContract? other contract) (registry.plainContract? result contract) := by
  obtain ⟨entry, known, continued⟩ := beside.built.complete.keeps.entries wellKnown
  rw [plainContract?_eq_find?, plainContract?_eq_find?]
  refine (beside.used twin).find? fun isTwin => ?_
  rw [decide_eq_decide]
  exact beside.eq_iff_of_plain isTwin known (continued.definition.trans uncopied)
    (continued.parameters.trans noParameters)

/-- The twin of an enumerator that goes on to the next item does so as well. It may do so through a
method of its own where the other does so through the contract: what the method answers with may be
a truth value at the arguments only. -/
theorem Beside.moveNext? (found : (registry.moveNext? other).isSome = true) :
    (registry.moveNext? result).isSome = true := by
  have complete := beside.built.complete
  rw [Registry.moveNext?, Option.isSome_or, Bool.or_eq_true] at found ⊢
  cases found with
  | inr throughContract =>
    have contracts :=
      beside.plainContract? twin (show initial.type? .enumerator = some _ from rfl) rfl rfl
    rw [isSome_of_rel (rel_bind contracts fun isTwin => beside.method? isTwin _)]
    exact .inr throughContract
  | inl own =>
    obtain ⟨member, isOwn⟩ := Option.isSome_iff_exists.mp own
    obtain ⟨isFound, isBool⟩ := Option.filter_eq_some_iff.mp isOwn
    obtain ⟨source, sourceKnown, -, isMethod⟩ := complete.method?_eq_some isFound
    obtain ⟨copy, isCopy, isTwin⟩ := exists_of_rel (beside.method? twin _) isFound
    obtain ⟨made, madeKnown, specializes⟩ :=
      isTwin.valueType sourceKnown (isMethod.name ▸ by decide)
    rw [decide_eq_true_eq, valueType?, sourceKnown, Option.map_some, Option.some.injEq] at isBool
    rw [isBool] at specializes
    have stays := beside.eq_of_plain (show initial.type? .bool = some _ from rfl) rfl rfl rfl
      specializes
    refine .inl (Option.isSome_iff_exists.mpr ⟨copy, Option.filter_eq_some_iff.mpr ⟨isCopy, ?_⟩⟩)
    rw [decide_eq_true_eq, valueType?, madeKnown, Option.map_some, stays]

/-- Twins are disposed of in the same way. -/
theorem Beside.classifyDisposal : ∃ strategy strategy',
    registry.classifyDisposal other = .ok strategy ∧
      registry.classifyDisposal result = .ok strategy' ∧
        strategy'.map DisposalStrategy.name = strategy.map DisposalStrategy.name := by
  have complete := beside.built.complete
  obtain ⟨otherHas, resultHas⟩ := beside.twins_has twin
  refine ⟨_, _, complete.classifyDisposal_eq_ok otherHas, complete.classifyDisposal_eq_ok resultHas,
    ?_⟩
  have flags := beside.flagsOf twin
  have sameStack : (registry.flagsOf result).byRefLike = (registry.flagsOf other).byRefLike := by
    injection flags
  have sameValue : (registry.flagsOf result).valueType = (registry.flagsOf other).valueType := by
    injection flags
  rw [sameStack, sameValue]
  cases (registry.flagsOf other).byRefLike with
  | true =>
    have own : Option.Rel (registry.MemberTwin substitution definition type)
        (registry.ownDispose? other) (registry.ownDispose? result) := by
      refine beside.findMember? twin fun alike => ?_
      rw [isOwnDispose, isOwnDispose, Bool.and_comm, blind_method alike, Bool.and_comm]
    rw [if_pos rfl, if_pos rfl, Option.map_map, Option.map_map]
    exact map_eq_of_rel own fun _ _ => rfl
  | false =>
    have contracts :=
      beside.plainContract? twin (show initial.type? .disposable = some _ from rfl) rfl rfl
    rw [if_neg Bool.false_ne_true, if_neg Bool.false_ne_true, Option.map_map, Option.map_map]
    exact map_eq_of_rel contracts fun _ _ => rfl

variable {policy : Policy} (counts : policy.ambiguity = .firstDeclared)
include counts

/-- Twins are used through twins of generic contracts. -/
theorem Beside.genericContract? {contract : TypeId} {whole : TypeEntry}
    (wellKnown : initial.type? contract = some whole) (uncopied : whole.definition = none) :
    Option.Rel (registry.Twin substitution definition type)
      (registry.genericContract? policy other contract)
      (registry.genericContract? policy result contract) := by
  obtain ⟨entry, known, continued⟩ := beside.built.complete.keeps.entries wellKnown
  rw [genericContract?_eq_find? counts, genericContract?_eq_find? counts]
  exact (beside.used twin).find? fun isTwin =>
    beside.standsFor_eq isTwin known (continued.definition.trans uncopied)

/-- Twins are enumerated through twins of the enumerable contracts. -/
theorem Beside.enumerableContract? : Option.Rel (registry.Twin substitution definition type)
    (registry.enumerableContract? policy other) (registry.enumerableContract? policy result) := by
  have generic := beside.genericContract? twin counts
    (show initial.type? .genericEnumerable = some _ from rfl) rfl
  have plain := beside.plainContract? twin
    (show initial.type? .enumerable = some _ from rfl) rfl rfl
  unfold Registry.enumerableContract?
  cases policy.interfaceOrder with
  | genericFirst => exact rel_or generic plain
  | nonGenericFirst => exact rel_or plain generic

/-- Twins are enumerators through twins of the enumerator contracts. -/
theorem Beside.enumeratorContract? : Option.Rel (registry.Twin substitution definition type)
    (registry.enumeratorContract? policy other) (registry.enumeratorContract? policy result) :=
  rel_or
    (beside.genericContract? twin counts
      (show initial.type? .genericEnumerator = some _ from rfl) rfl)
    (beside.plainContract? twin (show initial.type? .enumerator = some _ from rfl) rfl rfl)

/-- Twins have twins to give enumerators. -/
theorem Beside.getEnumerator? : Option.Rel (registry.MemberTwin substitution definition type)
    (registry.getEnumerator? policy other) (registry.getEnumerator? policy result) :=
  rel_or (beside.method? twin _)
    (rel_bind (beside.enumerableContract? twin counts) fun isTwin => beside.method? isTwin _)

/-- Twins have twins to read the current item. -/
theorem Beside.current? : Option.Rel (registry.MemberTwin substitution definition type)
    (registry.current? policy other) (registry.current? policy result) :=
  rel_or (beside.property? twin _)
    (rel_bind (beside.enumeratorContract? twin counts) fun isTwin => beside.property? isTwin _)

end Twins

section Parameters

variable {registry : Registry} (complete : registry.Complete) (orderly : registry.Orderly)
  {type : TypeId} {entry : TypeEntry} (known : registry.type? type = some entry)
  (isParameter : entry.flags.genericParameter = true)
include complete orderly known isParameter

/-- A generic parameter has no bases and no interfaces. -/
theorem Orderly.scopes_parameter :
    registry.contracts type = [] ∧ registry.scopes type = [type] := by
  obtain ⟨noBase, noInterfaces, -⟩ := orderly.empty known isParameter
  have notInterface : (registry.flagsOf type).isInterface = false := by
    rw [flagsOf, known]
    exact congrArg TypeFlags.isInterface (complete.placeholders known isParameter).1
  have alone : registry.ancestors type = [type] := by
    obtain ⟨steps, isSize⟩ := Nat.exists_eq_add_one_of_ne_zero
      (Nat.ne_of_gt (Nat.zero_lt_of_lt (index_lt_of_type? known)))
    rw [ancestors, baseWalk, isSize, walkBases, known]
    show type :: (registry.walkBases steps entry.base).visited = [type]
    rw [noBase]
    cases steps <;> rfl
  have nothing : registry.interfacesOf type = [] := by
    rw [interfacesOf, known]
    exact noInterfaces
  refine ⟨?_, by rw [scopes, notInterface, if_neg Bool.false_ne_true, alone]⟩
  rw [contracts, interfaceHolders, notInterface, if_neg Bool.false_ne_true, alone,
    List.flatMap_singleton, nothing]
  cases registry.size <;> rfl

/-- A generic parameter is no enumerator. -/
theorem Orderly.current?_parameter (policy : Policy) : registry.current? policy type = none := by
  obtain ⟨noContracts, alone⟩ := orderly.scopes_parameter complete known isParameter
  have ordinary {other : TypeId} {whole : TypeEntry} (wellKnown : initial.type? other = some whole)
      (notParameter : whole.flags.genericParameter = false) : type ≠ other := by
    rintro rfl
    obtain ⟨entry', known', continued⟩ := complete.keeps.entries wellKnown
    cases known.symm.trans known'
    rw [continued.flags, notParameter] at isParameter
    cases isParameter
  refine Option.or_eq_none_iff.mpr ⟨?_, Option.bind_eq_none_iff.mpr fun contract isUsed => ?_⟩
  · obtain ⟨-, -, noMembers⟩ := orderly.empty known isParameter
    have nothing : registry.membersOf type = [] := by
      rw [membersOf, known]
      exact noMembers
    rw [property?, publicMember?, alone, List.findSome?_singleton, publicIn?, findMember?, nothing]
    rfl
  · obtain ⟨isThere, either⟩ := enumeratorContract?_eq_some isUsed
    rw [noContracts, List.mem_singleton] at isThere
    rw [isThere] at either
    cases either with
    | inl isPlain =>
      exact absurd isPlain (ordinary (show initial.type? .enumerator = some _ from rfl) rfl)
    | inr stands =>
      rw [standsFor, known, Option.bind_some, (complete.placeholders known isParameter).2,
        Bool.or_eq_true, decide_eq_true_eq, decide_eq_true_eq] at stands
      cases stands with
      | inl isGeneric =>
        exact absurd isGeneric
          (ordinary (show initial.type? .genericEnumerator = some _ from rfl) rfl)
      | inr isInstance => cases isInstance

end Parameters

section Detection

variable {registry : Registry} {substitution : Substitution} {definition type : TypeId}
  (beside : registry.Beside substitution definition type)
include beside

/-- Replacing parameters gives what a type should become exactly if the type does not mention the
definition. -/
theorem Beside.substitute_iff {other result : TypeId}
    (specializes : registry.Specializes substitution definition type other result) :
    (∃ depth, Registration.substitute depth substitution other registry = .ok (result, registry)) ↔
      ¬ registry.Mentions definition other := by
  have closed := beside.built.complete.toClosed
  obtain ⟨entry, whole, known, isCopy, wholeKnown, rfl⟩ := beside.copied
  have proper := closed.zip_ne_nil known isCopy wholeKnown
  rw [← Registration.becomes_iff_substitute beside.built.reached.sound proper]
  exact ⟨fun becomes mentions =>
    closed.not_specializes known isCopy wholeKnown mentions becomes specializes,
    specializes.becomes⟩

/-- An instance is the twin of its definition. -/
theorem Beside.twin : registry.Twin substitution definition type definition type :=
  ⟨.self, beside.definition_kept.1⟩

/-- What the enumerator of a definition should become in an instance is an enumerator as well, of
items of the type that those of the former should become. -/
theorem Beside.enumeratorOf_agrees {policy : Policy} (counts : policy.ambiguity = .firstDeclared)
    {enumerator result : TypeId} (has : registry.Has enumerator)
    (specializes : registry.Specializes substitution definition type enumerator result)
    (isComplete : (registry.enumeratorOf policy enumerator).isComplete = true) :
    registry.Twin substitution definition type enumerator result ∧
      (registry.enumeratorOf policy result).isComplete = true ∧
        ∃ item ∈ (registry.enumeratorOf policy enumerator).itemType,
          ∃ item' ∈ (registry.enumeratorOf policy result).itemType,
            registry.Specializes substitution definition type item item' := by
  have complete := beside.built.complete
  obtain ⟨hasCurrent, hasMoveNext⟩ := Bool.and_eq_true_iff.mp isComplete
  obtain ⟨current, isCurrent⟩ := Option.isSome_iff_exists.mp hasCurrent
  have isFound : registry.current? policy enumerator = some current := isCurrent
  have twin : registry.Twin substitution definition type enumerator result := by
    obtain ⟨entry, known⟩ := has_iff.mp has
    refine ⟨specializes, beside.suits.kept known ?_⟩
    cases flagged : entry.flags.genericParameter with
    | false => rfl
    | true =>
      have absent := beside.orderly.current?_parameter complete known flagged policy
      cases absent.symm.trans isFound
  obtain ⟨source, known, isProperty⟩ := complete.current?_eq_some isFound
  obtain ⟨copy, isCopy, isTwin⟩ := exists_of_rel (beside.current? twin counts) isFound
  obtain ⟨made, madeKnown, items⟩ := isTwin.valueType known (isProperty.name ▸ by decide)
  have itemOf {other : TypeId} {member : MemberId} {found : MemberEntry}
      (isMember : registry.current? policy other = some member)
      (isKnown : registry.member? member = some found) :
      (registry.enumeratorOf policy other).itemType = some found.valueType := by
    show (registry.current? policy other).bind registry.valueType? = some found.valueType
    rw [isMember, Option.bind_some, valueType?, isKnown, Option.map_some]
  refine ⟨twin, Bool.and_eq_true_iff.mpr ⟨?_, beside.moveNext? twin hasMoveNext⟩,
    _, itemOf isFound known, _, itemOf isCopy madeKnown, items⟩
  exact Option.isSome_iff_exists.mpr ⟨copy, isCopy⟩

/-- If a definition can be enumerated, each of its instances can, under either order of contracts if
the first instance of a contract counts. Its enumerator and its items are of the types that those of
the definition should become in the instance, which replacing parameters gives exactly if they do
not mention the definition, and both enumerators are disposed of in the same way. -/
theorem Beside.enumerableShape_agrees {policy : Policy} (counts : policy.ambiguity = .firstDeclared)
    {shape : EnumerableShape} (found : registry.enumerableShape policy definition = .ok shape)
    (isComplete : shape.isComplete = true) :
    ∃ other, registry.enumerableShape policy type = .ok other ∧
      registry.Agrees (fun first second =>
        registry.Specializes substitution definition type first second ∧
          ((∃ depth, Registration.substitute depth substitution first registry =
            .ok (second, registry)) ↔ ¬ registry.Mentions definition first)) shape other := by
  have complete := beside.built.complete
  obtain ⟨definitionHas, typeHas⟩ := beside.twins_has beside.twin
  rw [complete.enumerableShape_eq_ok definitionHas, Except.ok.injEq] at found
  subst found
  refine ⟨_, complete.enumerableShape_eq_ok typeHas policy, ?_⟩
  have related {first second : TypeId}
      (specializes : registry.Specializes substitution definition type first second) :=
    And.intro specializes (beside.substitute_iff specializes)
  obtain ⟨member, isMember⟩ :
      ∃ member, registry.getEnumerator? policy definition = some member := by
    rw [enumerableOf] at isComplete
    cases isFound : registry.getEnumerator? policy definition with
    | none =>
      rw [isFound] at isComplete
      cases isComplete
    | some member => exact ⟨member, rfl⟩
  obtain ⟨source, known, isMethod⟩ := complete.getEnumerator?_eq_some isMember
  obtain ⟨copy, isCopy, isTwin⟩ :=
    exists_of_rel (beside.getEnumerator? beside.twin counts) isMember
  obtain ⟨made, madeKnown, enumerators⟩ := isTwin.valueType known (isMethod.name ▸ by decide)
  rw [enumerableOf_eq isMember known] at isComplete ⊢
  rw [enumerableOf_eq isCopy madeKnown]
  obtain ⟨twin, resultComplete, item, isItem, item', isItem', items⟩ :=
    beside.enumeratorOf_agrees counts (complete.valueType_has known) enumerators isComplete
  exact {
    isComplete := resultComplete
    enumerator := ⟨_, rfl, _, rfl, related enumerators, beside.classifyDisposal twin⟩
    itemType := ⟨item, isItem, item', isItem', related items⟩ }

end Detection

/-- At integers the enumerable contract gives the enumerator contract at integers, of items that are
integers. -/
theorem enumerableOfInt_agrees : ∃ other,
    enumerableOfInt.enumerableShape {} ⟨14⟩ = .ok other ∧
      enumerableOfInt.Agrees (fun first second =>
        enumerableOfInt.Specializes [(⟨12⟩, .int)] .genericEnumerable ⟨14⟩ first second ∧
          ((∃ depth, Registration.substitute depth [(⟨12⟩, .int)] first enumerableOfInt =
            .ok (second, enumerableOfInt)) ↔
              ¬ enumerableOfInt.Mentions .genericEnumerable first))
        ⟨some .genericEnumerable, some ⟨7⟩, ⟨some ⟨13⟩, some ⟨6⟩, some ⟨2⟩, some ⟨0⟩, some ⟨12⟩⟩⟩
        other := by
  have closed := enumerableOfInt_built.complete.toClosed
  obtain ⟨entry, known, isCopy⟩ : ∃ entry ∈ enumerableOfInt.type? ⟨14⟩,
      entry.definition = some .genericEnumerable := by
    decide
  have beside : enumerableOfInt.Beside [(⟨12⟩, .int)] .genericEnumerable ⟨14⟩ := {
    built := enumerableOfInt_built
    orderly := closed.orderly (by decide) (by decide) (by decide)
    unmentioned := closed.unmentioned (by decide)
    isCopy := ⟨entry, known, isCopy⟩
    answer := by decide }
  exact beside.enumerableShape_agrees rfl (by decide) rfl

/-- Enumeration commutes with instantiation: if a definition can be enumerated, each of its
instances can, with an enumerator and items of the types that replacing parameters gives, and
enumerators are disposed of in the same way. -/
def DetectionCommutes (registry : Registry) : Prop :=
  ∀ {policy : Policy} {substitution : Substitution} {definition type : TypeId}
    {shape : EnumerableShape}, policy.ambiguity = .firstDeclared →
      registry.IsCopy type definition → registry.substitution type = .ok substitution →
        registry.enumerableShape policy definition = .ok shape → shape.isComplete = true →
          ∃ other, registry.enumerableShape policy type = .ok other ∧
            registry.Agrees (fun first second => ∃ depth,
              Registration.substitute depth substitution first registry = .ok (second, registry))
              shape other

/-- A class of one parameter. -/
def sequenceClass : Registry :=
  initial.after
    (Registration.declare { name := "Sequence", sort := .classType, parameters := ["T"] })

/-- A sequence is its own enumerator, of items of the type of the parameter. It is instantiated at
integers. -/
def sequenceTypes : Registry :=
  sequenceClass
    |>.after (Registration.addDeclaredMember 1 ⟨14⟩ (.method contractNames.getEnumerator ⟨14⟩))
    |>.after (Registration.addDeclaredMember 1 ⟨14⟩ (.property contractNames.current ⟨15⟩))
    |>.after (Registration.addDeclaredMember 1 ⟨14⟩ (.method contractNames.moveNext .bool))
    |>.after (Registration.instantiate 1 ⟨14⟩ [.int])

/-- The sequence is registered without a stop. -/
theorem sequenceTypes_built : Built TypeEntry.IsOriginal sequenceTypes := by
  have start : Built TypeEntry.IsOriginal .initial := .initial
  have declared : Built TypeEntry.IsOriginal sequenceClass := start.declare _ rfl
  have first := declared.addMember ⟨14⟩ (.method contractNames.getEnumerator ⟨14⟩)
    (by decide) (by decide) (by decide)
  have second := first.addMember ⟨14⟩ (.property contractNames.current ⟨15⟩)
    (by decide) (by decide) (by decide)
  have third := second.addMember ⟨14⟩ (.method contractNames.moveNext .bool)
    (by decide) (by decide) (by decide)
  exact third.instantiate 1 ⟨14⟩ [.int] (by decide)

/-- The sequence uses its parameter where it belongs. -/
theorem sequenceTypes_orderly : sequenceTypes.Orderly :=
  sequenceTypes_built.complete.orderly (by decide) (by decide) (by decide)

/-- The sequence at integers answers with the sequence, which is an enumerator of items of the type
of its parameter, and not of integers. -/
theorem sequenceTypes_not_detectionCommutes : Built TypeEntry.IsOriginal sequenceTypes ∧
    sequenceTypes.Orderly ∧ ¬ sequenceTypes.DetectionCommutes := by
  refine ⟨sequenceTypes_built, sequenceTypes_orderly, fun commutes => ?_⟩
  obtain ⟨entry, known, isCopy⟩ : ∃ entry ∈ sequenceTypes.type? ⟨16⟩,
      entry.definition = some ⟨14⟩ := by
    decide
  have answer : sequenceTypes.substitution ⟨16⟩ = .ok [(⟨15⟩, .int)] := by decide
  have found : sequenceTypes.enumerableShape {} ⟨14⟩ =
      .ok ⟨some ⟨14⟩, some ⟨8⟩, ⟨some ⟨14⟩, some ⟨9⟩, some ⟨10⟩, none, some ⟨15⟩⟩⟩ := by
    decide
  have foundAtInt : sequenceTypes.enumerableShape {} ⟨16⟩ =
      .ok ⟨some ⟨16⟩, some ⟨11⟩, ⟨some ⟨14⟩, some ⟨9⟩, some ⟨10⟩, none, some ⟨15⟩⟩⟩ := by
    decide
  obtain ⟨other, isOther, agrees⟩ := commutes rfl ⟨entry, known, isCopy⟩ answer found rfl
  cases foundAtInt.symm.trans isOther
  obtain ⟨item, isItem, result, isResult, replaced⟩ := agrees.itemType
  cases isItem
  cases isResult
  have stays := (Registration.becomes_iff_substitute sequenceTypes_built.reached.sound
    (List.cons_ne_nil _ _)).mpr replaced
  have isInt : sequenceTypes.Becomes [(⟨15⟩, .int)] ⟨15⟩ .int := .argument rfl
  exact absurd (stays.unique isInt) (by decide)

end Registry

end Foreach
