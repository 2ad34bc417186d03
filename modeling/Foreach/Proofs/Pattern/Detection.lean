import Foreach.Proofs.Pattern.Contracts

/-!
# What enumeration finds is right

What is found of a type says what it has: each member that is found is a public instance member of
the right name and form, whose types are those that are told. Nothing is missed that gives an
enumerator: it is only absent if no scope of the type has such a method and the type has no
enumerable contract.

The second part rests on what instances of contracts carry. A type with an instance of the generic
enumerable contract has the contract without parameters as well, and whichever of them is used
lists the method.
-/
namespace Foreach.Registry

/-- A member that is found in a type is found there ever after. -/
theorem Keeps.findMember? {later earlier : Registry} (kept : later.Keeps earlier)
    (closed : earlier.Closed) {type : TypeId} {test : MemberEntry → Bool} {member : MemberId}
    (found : earlier.findMember? type test = some member) :
    later.findMember? type test = some member := by
  obtain ⟨entry, -, known, -⟩ := findMember?_eq_some found
  obtain ⟨changed, reached, _, _, more, same⟩ := kept.entries known
  unfold Registry.findMember? membersOf at found ⊢
  rw [known] at found
  rw [reached, same]
  show List.find? _ (entry.members ++ more) = some member
  rw [← List.head?_filter] at found
  rw [List.find?_append, ← List.head?_filter]
  refine Option.or_eq_some_iff.mpr (.inl (Eq.trans (congrArg List.head? ?_) found))
  refine List.filter_congr fun listed isListed => ?_
  obtain ⟨source, sourceKnown, -⟩ := closed.owned known isListed
  rw [sourceKnown, kept.members sourceKnown]

section Complete

variable {registry : Registry} (complete : registry.Complete) {type : TypeId}
include complete

/-- A definition and its instances have what the definition has from the start. -/
theorem Furnished.carries_of_standsFor {definition : TypeId}
    (stands : registry.standsFor definition type = true) : registry.Carries type definition := by
  rw [standsFor, Bool.or_eq_true, decide_eq_true_eq, decide_eq_true_eq] at stands
  cases stands with
  | inl isDefinition =>
    rw [isDefinition]
    exact complete.keeps.carries (initial_carries definition)
  | inr isInstance =>
    obtain ⟨entry, known, isCopy⟩ := Option.bind_eq_some_iff.mp isInstance
    exact complete.carries ⟨entry, known, isCopy⟩ id

/-- What can stand for a well-known type that is no instance is that type. -/
theorem Furnished.eq_of_stands {result : TypeId} {whole : TypeEntry}
    (wellKnown : initial.type? type = some whole) (isPlain : whole.flags.genericParameter = false)
    (uncopied : whole.definition = none) (stands : registry.Stands type result) :
    result = type := by
  obtain ⟨entry, known, continued⟩ := complete.keeps.entries wellKnown
  obtain ⟨entry', _, known', -, same⟩ := stands
  cases known.symm.trans known'
  exact (same (continued.flags ▸ isPlain)).2.1 (continued.definition.trans uncopied)

/-- What can stand for a well-known instance of a definition stands for the definition. -/
theorem Furnished.standsFor_of_stands {result definition : TypeId} {whole : TypeEntry}
    (wellKnown : initial.type? type = some whole) (isPlain : whole.flags.genericParameter = false)
    (isCopy : whole.definition = some definition) (stands : registry.Stands type result) :
    registry.standsFor definition result = true := by
  obtain ⟨entry, known, continued⟩ := complete.keeps.entries wellKnown
  obtain ⟨entry', made, known', madeKnown, same⟩ := stands
  cases known.symm.trans known'
  rw [standsFor, Bool.or_eq_true, decide_eq_true_eq, decide_eq_true_eq, madeKnown]
  exact (same (continued.flags ▸ isPlain)).2.2 definition (continued.definition.trans isCopy)

/-- A type is the enumerator contract, the generic one, or an instance of that. -/
def IsEnumeratorContract (registry : Registry) (type : TypeId) : Prop :=
  type = .enumerator ∨ registry.standsFor .genericEnumerator type = true

variable (has : registry.Has type)
include has

/-- Each enumerable contract through which a type is used gives an enumerator, whose type is an
enumerator contract. -/
theorem Furnished.getEnumerator_of_contract {policy : Policy} {contract : TypeId}
    (isUsed : registry.enumerableContract? policy type = some contract) :
    ∃ member source, registry.method? contractNames.getEnumerator contract = some member ∧
      registry.member? member = some source ∧ registry.IsEnumeratorContract source.valueType := by
  obtain ⟨isThere, either⟩ := enumerableContract?_eq_some isUsed
  have contractHas := complete.has_of_used has isThere
  -- The first member of the contract stands for the one that gives enumerators from the start.
  have gives {first : MemberId} {former : MemberEntry} {others : List MemberId}
      (begins : registry.BeginsWith contract (first :: others))
      (wellKnown : initial.member? first = some former)
      (isMethod : former.IsPublicMethod contractNames.getEnumerator) :
      ∃ member source, registry.method? contractNames.getEnumerator contract = some member ∧
        registry.member? member = some source ∧
          registry.Stands former.valueType source.valueType := by
    have firstKnown := complete.keeps.members wellKnown
    obtain ⟨member, found, former', source, firstKnown', known, -, stands⟩ :=
      begins.publicMember? contractHas fun source made sourceKnown alike => by
        cases firstKnown.symm.trans sourceKnown
        exact isPublicMethod_iff.mpr (alike.isPublicMethod isMethod)
    cases firstKnown.symm.trans firstKnown'
    exact ⟨member, source, found, known, stands⟩
  cases either with
  | inl isPlain =>
    subst isPlain
    have carried := complete.keeps.carries (initial_carries .enumerable)
    obtain ⟨member, source, found, known, stands⟩ := gives (carried _ rfl).2 rfl
      ⟨rfl, ⟨_, rfl⟩, rfl, rfl, rfl⟩
    exact ⟨member, source, found, known, .inl (complete.eq_of_stands rfl rfl rfl stands)⟩
  | inr standsFor =>
    have carried := complete.carries_of_standsFor standsFor
    obtain ⟨member, source, found, known, stands⟩ := gives (carried _ rfl).2 rfl
      ⟨rfl, ⟨_, rfl⟩, rfl, rfl, rfl⟩
    exact ⟨member, source, found, known, .inr (complete.standsFor_of_stands rfl rfl rfl stands)⟩

/-- A type that is used through a definition, or an instance of it, has the interfaces that the
definition has from the start. -/
theorem Furnished.inherited_of_standsFor {definition contract interface : TypeId}
    {whole : TypeEntry} (wellKnown : initial.type? definition = some whole)
    (isInherited : interface ∈ whole.interfaces)
    (isThere : contract ∈ type :: registry.contracts type)
    (stands : registry.standsFor definition contract = true) :
    interface ∈ registry.contracts type := by
  have isListed : interface ∈ registry.interfacesOf contract := by
    obtain ⟨entry, known, isListed⟩ :=
      (complete.carries_of_standsFor stands _ wellKnown).1 interface isInherited
    rw [interfacesOf, known]
    exact isListed
  cases List.mem_cons.mp isThere with
  | inl isType =>
    exact complete.mem_contracts_of_holder (mem_interfaceHolders has) (isType ▸ isListed)
  | inr isContract => exact complete.mem_contracts_of_listed isContract isListed

omit complete has in
/-- A contract without parameters is not used exactly if the type neither is it nor has it. -/
theorem plainContract?_eq_none {contract : TypeId} :
    registry.plainContract? type contract = none ↔
      contract ∉ type :: registry.contracts type := by
  unfold plainContract?
  by_cases isThere : contract ∈ type :: registry.contracts type
  · rw [if_pos isThere]
    exact ⟨fun isNone => (nomatch isNone), fun absent => absurd isThere absent⟩
  · rw [if_neg isThere]
    exact ⟨fun _ => isThere, fun _ => rfl⟩

/-- No instance of a contract is used if the type neither is nor has what the contract inherits. -/
theorem Furnished.genericContract?_eq_none {policy : Policy} {definition interface : TypeId}
    {whole : TypeEntry} (wellKnown : initial.type? definition = some whole)
    (isInherited : interface ∈ whole.interfaces)
    (absent : interface ∉ type :: registry.contracts type) :
    registry.genericContract? policy type definition = none := by
  cases isFound : registry.genericContract? policy type definition with
  | none => rfl
  | some contract =>
    obtain ⟨isThere, stands⟩ := genericContract?_eq_some isFound
    have inherits := complete.inherited_of_standsFor has wellKnown isInherited isThere stands
    exact absurd (List.mem_cons_of_mem _ inherits) absent

/-- No enumerable contract is used exactly if the type neither is nor has the contract without
parameters. -/
theorem Furnished.enumerableContract?_eq_none {policy : Policy} :
    registry.enumerableContract? policy type = none ↔
      TypeId.enumerable ∉ type :: registry.contracts type := by
  have both : registry.enumerableContract? policy type = none ↔
      registry.plainContract? type .enumerable = none ∧
        registry.genericContract? policy type .genericEnumerable = none := by
    unfold enumerableContract?
    cases policy.interfaceOrder with
    | genericFirst =>
      show Option.or _ _ = none ↔ _
      rw [Option.or_eq_none_iff, and_comm]
    | nonGenericFirst =>
      show Option.or _ _ = none ↔ _
      rw [Option.or_eq_none_iff]
  rw [both, plainContract?_eq_none]
  exact and_iff_left_of_imp (complete.genericContract?_eq_none has rfl (List.mem_singleton.mpr rfl))

/-- Nothing gives an enumerator exactly if no scope lists a method that does, and the type neither
is nor has the enumerable contract. -/
theorem Furnished.getEnumerator?_eq_none {policy : Policy} :
    registry.getEnumerator? policy type = none ↔
      (∀ scope ∈ registry.scopes type,
        ¬ registry.Lists scope (·.IsPublicMethod contractNames.getEnumerator)) ∧
        type ≠ .enumerable ∧ TypeId.enumerable ∉ registry.contracts type := by
  have throughContract : (registry.enumerableContract? policy type).bind
      (registry.method? contractNames.getEnumerator) = none ↔
        TypeId.enumerable ∉ type :: registry.contracts type := by
    have absent_iff : registry.enumerableContract? policy type = none ↔ _ :=
      complete.enumerableContract?_eq_none has
    rw [← absent_iff, Option.bind_eq_none_iff]
    constructor
    · intro none
      cases isUsed : registry.enumerableContract? policy type with
      | none => rfl
      | some contract =>
        obtain ⟨member, -, found, -⟩ := complete.getEnumerator_of_contract has isUsed
        cases (none contract isUsed).symm.trans found
    · intro absent contract isUsed
      cases absent.symm.trans isUsed
  rw [getEnumerator?, Option.or_eq_none_iff, throughContract, method?_eq_none, List.mem_cons,
    not_or, ne_comm]

omit has

/-- The enumerator contract goes on to the next item through its own method, whatever is added to
it. -/
theorem Furnished.moveNext_of_contract :
    registry.method? contractNames.moveNext .enumerator = some ⟨2⟩ := by
  have first : registry.publicIn? (isMethodOf contractNames.moveNext []) .enumerator = some ⟨2⟩ :=
    complete.keeps.findMember? initial_closed (by decide)
  exact publicMember?_of_own (complete.keeps.has (by decide)) first

/-- What goes on to the next item is a public method of its name that answers with a truth value. -/
theorem Furnished.moveNext?_eq_some {member : MemberId}
    (found : registry.moveNext? type = some member) :
    ∃ source, registry.member? member = some source ∧
      source.IsPublicMethod contractNames.moveNext ∧ source.kind = .method [] .bool := by
  rcases Option.or_eq_some_iff.mp found with own | ⟨-, throughContract⟩
  · obtain ⟨isFound, isBool⟩ := Option.filter_eq_some_iff.mp own
    obtain ⟨source, known, -, isMethod⟩ := complete.method?_eq_some isFound
    obtain ⟨returns, kind⟩ := isMethod.kind
    rw [decide_eq_true_eq, valueType?, known, Option.map_some, Option.some.injEq,
      MemberEntry.valueType, kind] at isBool
    exact ⟨source, known, isMethod, isBool ▸ kind⟩
  · obtain ⟨contract, isUsed, isFound⟩ := Option.bind_eq_some_iff.mp throughContract
    rw [(plainContract?_eq_some.mp isUsed).1, complete.moveNext_of_contract] at isFound
    cases isFound
    exact ⟨_, complete.keeps.members rfl, ⟨rfl, ⟨_, rfl⟩, rfl, rfl, rfl⟩, rfl⟩

/-- What disposes of an enumerator is a public method of its name. It is declared by the enumerator
itself if that lives on the stack alone, and else the enumerator has the disposal contract. -/
theorem Furnished.disposal?_eq_some {member : MemberId}
    (found : registry.disposal? type = some member) :
    ∃ source, registry.member? member = some source ∧
      source.IsPublicMethod contractNames.dispose ∧
        (((registry.flagsOf type).byRefLike = true ∧ source.owner = type) ∨
          registry.assignable type .disposable = true) := by
  unfold disposal? at found
  by_cases byRefLike : (registry.flagsOf type).byRefLike = true
  · rw [if_pos byRefLike] at found
    obtain ⟨entry, source, known, isListed, sourceKnown, passes⟩ := findMember?_eq_some found
    obtain ⟨source', sourceKnown', owner, -⟩ := complete.owned known isListed
    cases sourceKnown.symm.trans sourceKnown'
    rw [isOwnDispose, Bool.and_eq_true] at passes
    exact ⟨source, sourceKnown, isPublicMethod_iff.mp passes.symm, .inl ⟨byRefLike, owner⟩⟩
  · rw [if_neg byRefLike] at found
    by_cases isAssignable : registry.assignable type .disposable = true
    · rw [if_pos isAssignable] at found
      rcases Option.or_eq_some_iff.mp found with own | ⟨-, ofContract⟩
      · obtain ⟨source, known, -, isMethod⟩ := complete.method?_eq_some own
        exact ⟨source, known, isMethod, .inr isAssignable⟩
      · obtain ⟨source, known, -, isMethod⟩ := complete.method?_eq_some ofContract
        exact ⟨source, known, isMethod, .inr isAssignable⟩
    · rw [if_neg isAssignable] at found
      cases found

end Complete

/-- What is found of a type as an enumerable is right, and what gives an enumerator is not
missed. -/
structure Describes (registry : Registry) (type : TypeId) (shape : EnumerableShape) : Prop where
  /-- Nothing gives an enumerator exactly if no scope of the type lists a public method for it and
  the type neither is nor has the enumerable contract. -/
  absent : ∃ scopes, registry.lookupScopes type = .ok scopes ∧
    (shape.getEnumerator = none ↔
      (∀ scope ∈ scopes,
        ¬ registry.Lists scope (·.IsPublicMethod contractNames.getEnumerator)) ∧
        type ≠ .enumerable ∧ registry.implements type .enumerable = .ok false)
  /-- If nothing gives an enumerator, nothing is found at all. -/
  empty : shape.getEnumerator = none → shape = {}
  /-- What gives an enumerator is a public method of its name, and tells the enumerable and the
  enumerator, also if that is not complete. -/
  getEnumerator : ∀ member ∈ shape.getEnumerator, ∃ source,
    registry.member? member = some source ∧
      source.IsPublicMethod contractNames.getEnumerator ∧ shape.type = some source.owner ∧
        shape.enumerator.type = some source.valueType
  /-- The type of the items is known exactly if something reads the current item. -/
  itemType : shape.enumerator.itemType.isSome = shape.enumerator.current.isSome
  /-- What reads the current item is a public property of its name, of the type of the items. -/
  current : ∀ member ∈ shape.enumerator.current, ∃ source,
    registry.member? member = some source ∧
      source.IsPublicProperty contractNames.current ∧
        shape.enumerator.itemType = some source.valueType
  /-- What goes on to the next item is a public method of its name that answers with a truth
  value. -/
  moveNext : ∀ member ∈ shape.enumerator.moveNext, ∃ source,
    registry.member? member = some source ∧
      source.IsPublicMethod contractNames.moveNext ∧ source.kind = .method [] .bool
  /-- The type can be enumerated exactly if all three members are found. -/
  isComplete : shape.isComplete = true ↔
    shape.getEnumerator.isSome = true ∧ shape.enumerator.current.isSome = true ∧
      shape.enumerator.moveNext.isSome = true
  /-- What disposes of the enumerator is told only if the type can be enumerated. It is a public
  method of its name, which an enumerator on the stack alone declares itself, and else the
  enumerator can serve as a disposable. -/
  dispose : ∀ member ∈ shape.enumerator.dispose, shape.isComplete = true ∧
    ∃ source enumerator, registry.member? member = some source ∧
      source.IsPublicMethod contractNames.dispose ∧ shape.enumerator.type = some enumerator ∧
        ((registry.isByRefLike enumerator = .ok true ∧ source.owner = enumerator) ∨
          registry.isAssignableTo enumerator .disposable = .ok true)

/-- Every search on a registered type ends and is right if instances carry what their definitions
have. -/
theorem Furnished.describes {registry : Registry} (complete : registry.Complete) {type : TypeId}
    (has : registry.Has type) (policy : Policy) :
    ∃ shape, registry.isEnumerable policy type = .ok (shape.isComplete, shape) ∧
      registry.Describes type shape := by
  refine ⟨_, complete.isEnumerable_eq_ok has policy, ?_⟩
  have absent : ∃ scopes, registry.lookupScopes type = .ok scopes ∧
      (registry.getEnumerator? policy type = none ↔
        (∀ scope ∈ scopes,
          ¬ registry.Lists scope (·.IsPublicMethod contractNames.getEnumerator)) ∧
          type ≠ .enumerable ∧ registry.implements type .enumerable = .ok false) := by
    refine ⟨_, complete.lookupScopes_eq_ok has, ?_⟩
    rw [complete.getEnumerator?_eq_none has, complete.implements_eq_ok has, Except.ok.injEq,
      ← Bool.not_eq_true, List.contains_iff_mem]
  unfold enumerableOf
  cases found : registry.getEnumerator? policy type with
  | none =>
    rw [found] at absent
    exact {
      absent := absent
      empty := fun _ => rfl
      getEnumerator := by rintro _ ⟨⟩
      itemType := rfl
      current := by rintro _ ⟨⟩
      moveNext := by rintro _ ⟨⟩
      isComplete := by simp [EnumerableShape.isComplete]
      dispose := by rintro _ ⟨⟩ }
  | some member =>
    rw [found] at absent
    obtain ⟨source, known, isMethod⟩ := complete.getEnumerator?_eq_some found
    have enumeratorHas := complete.valueType_has known
    have itemOf {current : MemberId}
        (isCurrent : registry.current? policy source.valueType = some current) :
        ∃ item, registry.member? current = some item ∧
          item.IsPublicProperty contractNames.current ∧
            (registry.current? policy source.valueType).bind registry.valueType? =
              some item.valueType := by
      obtain ⟨item, itemKnown, isProperty⟩ := complete.current?_eq_some isCurrent
      refine ⟨item, itemKnown, isProperty, ?_⟩
      rw [isCurrent, Option.bind_some, valueType?, itemKnown, Option.map_some]
    simp only [known, valueType?, Option.map_some, Option.getD_some]
    exact {
      absent := absent
      empty := by rintro ⟨⟩
      getEnumerator := by
        rintro _ ⟨⟩
        exact ⟨source, known, isMethod, rfl, rfl⟩
      itemType := by
        show ((registry.current? policy source.valueType).bind registry.valueType?).isSome =
          (registry.current? policy source.valueType).isSome
        cases isCurrent : registry.current? policy source.valueType with
        | none => rfl
        | some current =>
          obtain ⟨item, -, -, isItem⟩ := itemOf isCurrent
          rw [isCurrent] at isItem
          rw [isItem]
          rfl
      current := fun current isCurrent => itemOf isCurrent
      moveNext := fun moveNext isMoveNext => complete.moveNext?_eq_some isMoveNext
      isComplete := by simp [EnumerableShape.isComplete, EnumeratorShape.isComplete]
      dispose := by
        intro dispose isDispose
        rw [enumeratorOf, Option.mem_def, Option.ite_none_right_eq_some] at isDispose
        obtain ⟨isComplete, isDisposal⟩ := isDispose
        obtain ⟨method, methodKnown, isPublic, either⟩ := complete.disposal?_eq_some isDisposal
        refine ⟨isComplete, method, source.valueType, methodKnown, isPublic, rfl, ?_⟩
        rw [isByRefLike_eq_ok enumeratorHas, Except.ok.injEq,
          complete.isAssignableTo_eq_ok enumeratorHas (complete.keeps.has (by decide)),
          Except.ok.injEq]
        exact either }

/-- In every registry that is built, whatever may be edited, every search on a registered type ends
and is right. -/
theorem Built.enumerableShape_describes {mayEdit : TypeEntry → Prop} {registry : Registry}
    (built : Built mayEdit registry) {type : TypeId} (has : registry.Has type) (policy : Policy) :
    ∃ shape, registry.isEnumerable policy type = .ok (shape.isComplete, shape) ∧
      registry.Describes type shape :=
  built.complete.describes has policy

/-- What is found of the generic enumerable contract is what it lists and what the enumerator
contract at its parameter has. -/
theorem genericEnumerable_describes : ∃ shape,
    initial.isEnumerable {} .genericEnumerable = .ok (true, shape) ∧
      initial.Describes .genericEnumerable shape := by
  have built : Built TypeEntry.IsOriginal initial := .initial
  obtain ⟨shape, found, describes⟩ := built.enumerableShape_describes
    (show initial.Has .genericEnumerable by decide) {}
  have isComplete : (initial.isEnumerable {} .genericEnumerable).map Prod.fst = .ok true := by
    decide +kernel
  rw [found] at isComplete
  exact ⟨shape, Except.ok.inj isComplete ▸ found, describes⟩

end Foreach.Registry
