import Foreach.Proofs.Pattern.Detection

/-!
# What a policy decides

A policy chooses among the contracts of a type. It never decides whether a type can be enumerated:
a policy that does not count instances of a generic contract leaves the contract without parameters,
which every type with an instance has as well, and each contract gives an enumerator that is
complete.

Nor does a policy decide about methods of the type itself, which come before those of contracts. For
an interface these are also the methods that it inherits. So a policy that counts no instance if
there are several is not asked about an interface that inherits the enumerable contract twice.
-/
namespace Foreach.Registry

section Verdicts

variable {registry : Registry} (complete : registry.Complete) {type : TypeId}
  (has : registry.Has type)

/-- A method of the type itself gives the enumerator under every policy. -/
theorem getEnumerator?_of_own {policy : Policy} {member : MemberId}
    (own : registry.method? contractNames.getEnumerator type = some member) :
    registry.getEnumerator? policy type = some member := by
  rw [getEnumerator?, own, Option.some_or]

/-- What is found of an enumerator does not depend on the order of the contracts. -/
theorem enumeratorOf_congr {first second : Policy} (same : first.ambiguity = second.ambiguity) :
    registry.enumeratorOf first type = registry.enumeratorOf second type := by
  have current : registry.current? first type = registry.current? second type := by
    rw [current?, current?, enumeratorContract?, enumeratorContract?, genericContract?,
      genericContract?, same]
  rw [enumeratorOf, enumeratorOf, enumeratorMembers, enumeratorMembers, current]

include has in
/-- A type that lists a public property has a public property of that name. -/
theorem property?_ne_none {name : String}
    (lists : registry.Lists type (·.IsPublicProperty name)) :
    registry.property? name type ≠ none := by
  intro absent
  refine publicMember?_eq_none.mp absent type (mem_scopes has) ?_
  obtain ⟨entry, member, source, known, isListed, sourceKnown, isProperty⟩ := lists
  exact ⟨entry, member, source, known, isListed, sourceKnown, isPublicProperty_iff.mpr isProperty⟩

include complete has

/-- An enumerator contract is the contract without parameters or has it. -/
theorem Furnished.enumerator_of_contract (isContract : registry.IsEnumeratorContract type) :
    TypeId.enumerator ∈ type :: registry.contracts type := by
  cases isContract with
  | inl isPlain => exact List.mem_cons.mpr (.inl isPlain.symm)
  | inr stands =>
    have inherits : TypeId.enumerator ∈ registry.contracts type :=
      complete.inherited_of_standsFor has rfl (by decide) (List.mem_cons_self ..) stands
    exact List.mem_cons_of_mem _ inherits

/-- Each enumerator contract through which a type is used reads the current item. -/
theorem Furnished.current_of_contract {policy : Policy} {contract : TypeId}
    (isUsed : registry.enumeratorContract? policy type = some contract) :
    registry.property? contractNames.current contract ≠ none := by
  obtain ⟨isThere, either⟩ := enumeratorContract?_eq_some isUsed
  refine property?_ne_none (complete.has_of_used has isThere) ?_
  cases either with
  | inl isPlain =>
    rw [isPlain]
    exact complete.keeps.lists ⟨_, ⟨1⟩, _, rfl, List.mem_cons_self .., rfl,
      ⟨rfl, ⟨_, rfl⟩, rfl, rfl, rfl, rfl⟩⟩
  | inr stands =>
    obtain ⟨entry, member, source, known, isListed, sourceKnown, alike⟩ :=
      (complete.carries_of_standsFor stands _ rfl).2.lists (List.mem_singleton.mpr rfl)
        (complete.keeps.members rfl)
    exact ⟨entry, member, source, known, isListed, sourceKnown,
      alike.isPublicProperty ⟨rfl, ⟨_, rfl⟩, rfl, rfl, rfl, rfl⟩⟩

/-- No enumerator contract is used exactly if the type neither is nor has the contract without
parameters. -/
theorem Furnished.enumeratorContract?_eq_none {policy : Policy} :
    registry.enumeratorContract? policy type = none ↔
      TypeId.enumerator ∉ type :: registry.contracts type := by
  rw [enumeratorContract?, Option.or_eq_none_iff, plainContract?_eq_none]
  exact and_iff_right_of_imp (complete.genericContract?_eq_none has rfl (by decide))

/-- Nothing reads the current item exactly if the type has no public property for it and neither is
nor has the enumerator contract. -/
theorem Furnished.current?_eq_none {policy : Policy} :
    registry.current? policy type = none ↔
      registry.property? contractNames.current type = none ∧
        TypeId.enumerator ∉ type :: registry.contracts type := by
  have absent_iff : registry.enumeratorContract? policy type = none ↔ _ :=
    complete.enumeratorContract?_eq_none has
  rw [current?, Option.or_eq_none_iff, Option.bind_eq_none_iff, ← absent_iff]
  refine and_congr_right fun _ => ⟨fun none => ?_, fun absent contract isUsed => ?_⟩
  · cases isUsed : registry.enumeratorContract? policy type with
    | none => rfl
    | some contract =>
      exact absurd (none contract isUsed) (complete.current_of_contract has isUsed)
  · cases absent.symm.trans isUsed

/-- Whether an enumerator is complete is the same under all policies. -/
theorem Furnished.isComplete_enumeratorOf (first second : Policy) :
    (registry.enumeratorOf first type).isComplete =
      (registry.enumeratorOf second type).isComplete := by
  have current : (registry.current? first type).isSome =
      (registry.current? second type).isSome := by
    rw [Bool.eq_iff_iff, Option.isSome_iff_ne_none, Option.isSome_iff_ne_none, ne_eq, ne_eq,
      complete.current?_eq_none has, complete.current?_eq_none has]
  exact congrArg (· && (registry.moveNext? type).isSome) current

/-- An enumerator contract is complete. -/
theorem Furnished.isComplete_of_contract (isContract : registry.IsEnumeratorContract type)
    (policy : Policy) : (registry.enumeratorOf policy type).isComplete = true := by
  have isThere := complete.enumerator_of_contract has isContract
  have current : (registry.current? policy type).isSome = true := by
    rw [Option.isSome_iff_ne_none, ne_eq, complete.current?_eq_none has]
    exact fun absent => absent.2 isThere
  have moveNext : (registry.moveNext? type).isSome = true := by
    rw [moveNext?, plainContract?, if_pos isThere, Option.bind_some, complete.moveNext_of_contract]
    cases registry.ownMoveNext? type <;> rfl
  exact Bool.and_eq_true_iff.mpr ⟨current, moveNext⟩

/-- A type without a method of its own that gives an enumerator can be enumerated exactly if it is
or has the enumerable contract, under every policy. -/
theorem Furnished.isComplete_enumerableOf_of_contract {policy : Policy}
    (absent : registry.method? contractNames.getEnumerator type = none) :
    (registry.enumerableOf policy type).isComplete = true ↔
      TypeId.enumerable ∈ type :: registry.contracts type := by
  cases isUsed : registry.enumerableContract? policy type with
  | none =>
    have notThere := (complete.enumerableContract?_eq_none has).mp isUsed
    rw [enumerableOf, getEnumerator?, absent, isUsed]
    exact iff_of_false Bool.false_ne_true notThere
  | some contract =>
    obtain ⟨member, source, found, known, isContract⟩ :=
      complete.getEnumerator_of_contract has isUsed
    have isThere : TypeId.enumerable ∈ type :: registry.contracts type := by
      refine Classical.not_not.mp fun notThere => ?_
      cases isUsed.symm.trans ((complete.enumerableContract?_eq_none has).mpr notThere)
    have isGiven : registry.getEnumerator? policy type = some member := by
      rw [getEnumerator?, absent, isUsed]
      exact found
    rw [enumerableOf_eq isGiven known]
    exact iff_of_true
      (complete.isComplete_of_contract (complete.valueType_has known) isContract policy) isThere

/-- Whether a type can be enumerated is the same under all policies. -/
theorem Furnished.isComplete_enumerableOf (first second : Policy) :
    (registry.enumerableOf first type).isComplete =
      (registry.enumerableOf second type).isComplete := by
  cases own : registry.method? contractNames.getEnumerator type with
  | none =>
    rw [Bool.eq_iff_iff, complete.isComplete_enumerableOf_of_contract has own,
      complete.isComplete_enumerableOf_of_contract has own]
  | some member =>
    obtain ⟨source, known, -⟩ := complete.method?_eq_some own
    have isGiven (policy : Policy) : registry.getEnumerator? policy type = some member :=
      getEnumerator?_of_own own
    rw [enumerableOf_eq (isGiven first) known, enumerableOf_eq (isGiven second) known]
    exact complete.isComplete_enumeratorOf (complete.valueType_has known) first second

end Verdicts

/-- A policy does not decide whether a type can be enumerated or is an enumerator. If a scope of the
type lists a public method that gives an enumerator, the order of the contracts does not decide
anything. -/
structure PolicyFree (registry : Registry) (type : TypeId) (first second : Policy) : Prop where
  /-- Under both policies the type can be enumerated, or under none. -/
  enumerable : ∃ found shape other, registry.isEnumerable first type = .ok (found, shape) ∧
    registry.isEnumerable second type = .ok (found, other)
  /-- Under both policies the type is an enumerator, or under none. -/
  enumerator : ∃ found shape other, registry.isEnumerator first type = .ok (found, shape) ∧
    registry.isEnumerator second type = .ok (found, other)
  /-- What is found of a type with a public method of its own does not depend on the order of the
  contracts. -/
  direct : first.ambiguity = second.ambiguity →
    (∃ scopes, registry.lookupScopes type = .ok scopes ∧ ∃ scope ∈ scopes,
      registry.Lists scope (·.IsPublicMethod contractNames.getEnumerator)) →
        registry.isEnumerable first type = registry.isEnumerable second type

/-- In every registry that is built, whatever may be edited, no two policies differ on whether a
registered type can be enumerated. -/
theorem Built.policyFree {mayEdit : TypeEntry → Prop} {registry : Registry}
    (built : Built mayEdit registry) {type : TypeId} (has : registry.Has type)
    (first second : Policy) : registry.PolicyFree type first second := by
  have complete := built.complete
  constructor
  case enumerable =>
    refine ⟨_, _, registry.enumerableOf second type, complete.isEnumerable_eq_ok has first, ?_⟩
    rw [complete.isComplete_enumerableOf has first second]
    exact complete.isEnumerable_eq_ok has second
  case enumerator =>
    refine ⟨_, _, registry.enumeratorOf second type, complete.isEnumerator_eq_ok has first, ?_⟩
    rw [complete.isComplete_enumeratorOf has first second]
    exact complete.isEnumerator_eq_ok has second
  case direct =>
    intro sameAmbiguity direct
    obtain ⟨scopes, areScopes, scope, isScope, lists⟩ := direct
    cases areScopes.symm.trans (complete.lookupScopes_eq_ok has)
    cases own : registry.method? contractNames.getEnumerator type with
    | none => exact absurd lists (method?_eq_none.mp own scope isScope)
    | some member =>
      obtain ⟨source, known, -⟩ := complete.method?_eq_some own
      have isGiven (policy : Policy) : registry.getEnumerator? policy type = some member :=
        getEnumerator?_of_own own
      rw [complete.isEnumerable_eq_ok has, complete.isEnumerable_eq_ok has,
        enumerableOf_eq (isGiven first) known, enumerableOf_eq (isGiven second) known,
        enumeratorOf_congr sameAmbiguity]

/-- A contract, and the enumerable contract instantiated at integers and at strings. -/
def pairContract : Registry :=
  initial
    |>.after (Registration.declare { name := "IPair", sort := .interfaceType })
    |>.after (Registration.instantiate 2 .genericEnumerable [.int])
    |>.after (Registration.instantiate 2 .genericEnumerable [.string])

/-- A contract with the enumerable contract twice, at integers and at strings, and a class that has
this contract. -/
def pairTypes : Registry :=
  pairContract
    |>.after (Registration.addInterface 1 ⟨14⟩ ⟨15⟩)
    |>.after (Registration.addInterface 1 ⟨14⟩ ⟨17⟩)
    |>.after (Registration.declare { name := "Pair", sort := .classType })
    |>.after (Registration.addInterface 1 ⟨19⟩ ⟨14⟩)

/-- The contract and the class are registered without a stop. -/
theorem pairTypes_built : Built TypeEntry.IsOriginal pairTypes := by
  have start : Built TypeEntry.IsOriginal .initial := .initial
  have contract := start.declare { name := "IPair", sort := .interfaceType } rfl
  have atInt := contract.instantiate 2 .genericEnumerable [.int] (by decide)
  have atBoth : Built TypeEntry.IsOriginal pairContract :=
    atInt.instantiate 2 .genericEnumerable [.string] (by decide)
  have first := atBoth.addInterface ⟨14⟩ ⟨15⟩ (by decide)
  have second := first.addInterface ⟨14⟩ ⟨17⟩ (by decide)
  have declared := second.declare { name := "Pair", sort := .classType } rfl
  exact declared.addInterface ⟨19⟩ ⟨14⟩ (by decide)

/-- The class can be enumerated by the policy that takes the first instance of the contract and by
one that counts none, although they find different methods. Its contract inherits a public method
that gives an enumerator, so what is found of that does not depend on the order of the
contracts. -/
theorem pairTypes_policyFree :
    (∃ shape other, pairTypes.isEnumerable {} ⟨19⟩ = .ok (true, shape) ∧
      pairTypes.isEnumerable { interfaceOrder := .nonGenericFirst, ambiguity := .reject } ⟨19⟩ =
        .ok (true, other) ∧ shape.getEnumerator ≠ other.getEnumerator) ∧
    pairTypes.isEnumerable {} ⟨14⟩ =
      pairTypes.isEnumerable { interfaceOrder := .nonGenericFirst } ⟨14⟩ := by
  constructor
  · obtain ⟨found, shape, other, first, second⟩ := (pairTypes_built.policyFree
      (show pairTypes.Has ⟨19⟩ by decide) {}
      { interfaceOrder := .nonGenericFirst, ambiguity := .reject }).enumerable
    have byFirst : (pairTypes.isEnumerable {} ⟨19⟩).map (fun searched =>
        (searched.1, searched.2.getEnumerator)) = .ok (true, some ⟨9⟩) := by
      decide +kernel
    have bySecond : (pairTypes.isEnumerable
        { interfaceOrder := .nonGenericFirst, ambiguity := .reject } ⟨19⟩).map
          (·.2.getEnumerator) = .ok (some ⟨4⟩) := by
      decide +kernel
    rw [first] at byFirst
    rw [second] at bySecond
    obtain ⟨rfl, gives⟩ := Prod.mk.inj (Except.ok.inj byFirst)
    have otherGives : other.getEnumerator = some ⟨4⟩ := Except.ok.inj bySecond
    refine ⟨shape, other, first, second, ?_⟩
    rw [gives, otherGives]
    decide
  · have scopes : pairTypes.lookupScopes ⟨14⟩ = .ok [⟨14⟩, ⟨15⟩, ⟨17⟩, .enumerable] := by
      decide +kernel
    have lists : pairTypes.Lists ⟨15⟩ (·.IsPublicMethod contractNames.getEnumerator) := by
      by_contra unlisted
      exact absurd (publicIn?_method_eq_none.mpr unlisted) (by decide +kernel)
    exact (pairTypes_built.policyFree (show pairTypes.Has ⟨14⟩ by decide) {}
      { interfaceOrder := .nonGenericFirst }).direct rfl ⟨_, scopes, ⟨15⟩, by simp, lists⟩

/-- A type has several instances of the enumerable contract and declares no public method of its own
that gives an enumerator. -/
structure Ambiguous (registry : Registry) (type : TypeId) : Prop where
  /-- Two instances are among the interfaces. -/
  instances : ∃ interfaces, registry.allInterfaces type = .ok interfaces ∧
    ∃ first ∈ interfaces, ∃ second ∈ interfaces, first ≠ second ∧
      registry.isInstanceOf first .genericEnumerable = .ok true ∧
        registry.isInstanceOf second .genericEnumerable = .ok true
  /-- The type lists no method that gives an enumerator. -/
  undeclared : ¬ registry.Lists type (·.IsPublicMethod contractNames.getEnumerator)
  /-- Nor do its bases, unless it is an interface. -/
  bases : registry.isInterface type = .ok false → ∃ chain, registry.baseChain type = .ok chain ∧
    ∀ base ∈ chain, ¬ registry.Lists base (·.IsPublicMethod contractNames.getEnumerator)

/-- A policy that counts no instance if there are several chooses none. -/
theorem choose_reject_eq_none {types : List TypeId} {first second : TypeId}
    (isFirst : first ∈ types) (isSecond : second ∈ types) (distinct : first ≠ second) :
    Ambiguity.reject.choose types = none := by
  match types with
  | [] => rfl
  | [single] =>
    exact absurd ((List.mem_singleton.mp isFirst).trans (List.mem_singleton.mp isSecond).symm)
      distinct
  | _ :: _ :: _ => rfl

section Rejecting

variable {registry : Registry} (complete : registry.Complete) {type : TypeId}
  (has : registry.Has type)

/-- A method that is found scope by scope is declared by the first scope that lists one. -/
theorem WellFormed.declared_first (formed : registry.WellFormed) {name : String}
    {scopes : List TypeId} {member : MemberId}
    (found : scopes.findSome? (registry.publicIn? (isMethodOf name [])) = some member) :
    ∃ source earlier later, registry.member? member = some source ∧
      scopes = earlier ++ source.owner :: later ∧
        ∀ scope ∈ earlier, ¬ registry.Lists scope (·.IsPublicMethod name) := by
  obtain ⟨earlier, scope, later, split, foundThere, absent⟩ := List.findSome?_eq_some_iff.mp found
  obtain ⟨source, known, rfl, -⟩ := publicIn?_eq_some formed foundThere
  exact ⟨source, earlier, later, known, split,
    fun other isEarlier => publicIn?_method_eq_none.mp (absent other isEarlier)⟩

include complete has

/-- An ambiguous type has two different contracts that stand for the enumerable contract. -/
theorem Furnished.instances_of_ambiguous (ambiguous : registry.Ambiguous type) :
    ∃ first ∈ registry.contracts type, ∃ second ∈ registry.contracts type, first ≠ second ∧
      registry.standsFor .genericEnumerable first = true ∧
        registry.standsFor .genericEnumerable second = true := by
  obtain ⟨interfaces, areInterfaces, first, isFirst, second, isSecond, distinct, stands, others⟩ :=
    ambiguous.instances
  cases areInterfaces.symm.trans (complete.allInterfaces_eq_ok has)
  rw [isInstanceOf_eq_ok (complete.contracts_has first isFirst), Except.ok.injEq] at stands
  rw [isInstanceOf_eq_ok (complete.contracts_has second isSecond), Except.ok.injEq] at others
  exact ⟨first, isFirst, second, isSecond, distinct, stands, others⟩

/-- An ambiguous type has the enumerable contract without parameters. -/
theorem Furnished.enumerable_of_ambiguous (ambiguous : registry.Ambiguous type) :
    TypeId.enumerable ∈ registry.contracts type := by
  obtain ⟨first, isFirst, -, -, -, stands, -⟩ := complete.instances_of_ambiguous has ambiguous
  exact complete.inherited_of_standsFor has rfl (List.mem_singleton.mpr rfl)
    (List.mem_cons_of_mem _ isFirst) stands

/-- An ambiguous type is used through the contract without parameters if no instance counts. -/
theorem Furnished.enumerableContract?_reject {policy : Policy}
    (rejects : policy.ambiguity = .reject) (ambiguous : registry.Ambiguous type) :
    registry.enumerableContract? policy type = some .enumerable := by
  have isThere := List.mem_cons_of_mem type (complete.enumerable_of_ambiguous has ambiguous)
  have plain : registry.plainContract? type .enumerable = some .enumerable := if_pos isThere
  obtain ⟨first, isFirst, second, isSecond, distinct, stands, others⟩ :=
    complete.instances_of_ambiguous has ambiguous
  have generic : registry.genericContract? policy type .genericEnumerable = none := by
    rw [genericContract?, rejects]
    exact choose_reject_eq_none
      (List.mem_filter.mpr ⟨List.mem_cons_of_mem _ isFirst, stands⟩)
      (List.mem_filter.mpr ⟨List.mem_cons_of_mem _ isSecond, others⟩) distinct
  rw [enumerableContract?, plain, generic]
  cases policy.interfaceOrder <;> rfl

omit has in
/-- The enumerable contract without parameters gives an enumerator through its own method. -/
theorem Furnished.getEnumerator_of_enumerable :
    registry.method? contractNames.getEnumerator .enumerable = some ⟨4⟩ := by
  have first : registry.publicIn? (isMethodOf contractNames.getEnumerator []) .enumerable =
      some ⟨4⟩ := complete.keeps.findMember? initial_closed (by decide)
  exact publicMember?_of_own (complete.keeps.has (by decide)) first

omit has in
/-- The enumerable contract without parameters is no instance of the generic one. -/
theorem Furnished.enumerable_uncopied :
    registry.isInstanceOf .enumerable .genericEnumerable = .ok false := by
  obtain ⟨entry, known, continued⟩ :=
    complete.keeps.entries (show initial.type? .enumerable = some _ from rfl)
  have isRegistered : registry.Has .enumerable := has_iff.mpr ⟨entry, known⟩
  rw [isInstanceOf_eq_ok isRegistered, standsFor, known, Option.bind_some, continued.definition]
  rfl

/-- An ambiguous interface has a method that gives an enumerator among those that it inherits, and
the first interface that lists one declares the method that is found. -/
theorem Furnished.method?_of_interface (ambiguous : registry.Ambiguous type)
    (isInterface : (registry.flagsOf type).isInterface = true) : ∃ member source earlier later,
      registry.method? contractNames.getEnumerator type = some member ∧
        registry.member? member = some source ∧
          registry.contracts type = earlier ++ source.owner :: later ∧
            ∀ interface ∈ earlier,
              ¬ registry.Lists interface (·.IsPublicMethod contractNames.getEnumerator) := by
  have inherited : registry.method? contractNames.getEnumerator type =
      (registry.contracts type).findSome?
        (registry.publicIn? (isMethodOf contractNames.getEnumerator [])) := by
    rw [method?, publicMember?, scopes, if_pos isInterface, List.findSome?_cons,
      publicIn?_method_eq_none.mpr ambiguous.undeclared]
  have listed : registry.Lists .enumerable (·.IsPublicMethod contractNames.getEnumerator) :=
    complete.keeps.lists ⟨_, ⟨4⟩, _, rfl, List.mem_singleton.mpr rfl, rfl,
      ⟨rfl, ⟨_, rfl⟩, rfl, rfl, rfl⟩⟩
  rw [inherited]
  cases found : (registry.contracts type).findSome?
      (registry.publicIn? (isMethodOf contractNames.getEnumerator [])) with
  | none =>
    have absent := List.findSome?_eq_none_iff.mp found .enumerable
      (complete.enumerable_of_ambiguous has ambiguous)
    exact absurd listed (publicIn?_method_eq_none.mp absent)
  | some member =>
    obtain ⟨source, earlier, later, known, split, absent⟩ := complete.declared_first found
    exact ⟨member, source, earlier, later, rfl, known, split, absent⟩

/-- An ambiguous type that is no interface has no method of its own that gives an enumerator. -/
theorem Furnished.method?_of_class (ambiguous : registry.Ambiguous type)
    (isClass : (registry.flagsOf type).isInterface = false) :
    registry.method? contractNames.getEnumerator type = none := by
  obtain ⟨chain, isChain, unlisted⟩ := ambiguous.bases (isClass ▸ isInterface_eq_ok has)
  cases isChain.symm.trans (complete.baseChain_eq_ok has)
  rw [method?_eq_none, scopes, isClass, if_neg Bool.false_ne_true]
  exact unlisted

end Rejecting

/-- In every registry that is built, whatever may be edited, what gives an enumerator of an
ambiguous type under a policy that counts no instance is the method of the contract without
parameters, except for an interface. For an interface it is the method of the first of its
interfaces that lists one, whether an instance of the contract or not. -/
theorem Built.getEnumerator_of_ambiguous {mayEdit : TypeEntry → Prop} {registry : Registry}
    (built : Built mayEdit registry) {type : TypeId} (has : registry.Has type) {policy : Policy}
    (rejects : policy.ambiguity = .reject) (ambiguous : registry.Ambiguous type) :
    ∃ shape member source, registry.enumerableShape policy type = .ok shape ∧
      shape.getEnumerator = some member ∧ registry.member? member = some source ∧
        (registry.isInterface type = .ok false → source.owner = .enumerable ∧
          registry.isInstanceOf source.owner .genericEnumerable = .ok false) ∧
          (registry.isInterface type = .ok true → ∃ earlier later,
            registry.allInterfaces type = .ok (earlier ++ source.owner :: later) ∧
              ∀ interface ∈ earlier,
                ¬ registry.Lists interface (·.IsPublicMethod contractNames.getEnumerator)) := by
  have complete := built.complete
  have shaped := complete.enumerableShape_eq_ok has policy
  rw [isInterface_eq_ok has, complete.allInterfaces_eq_ok has]
  cases isInterface : (registry.flagsOf type).isInterface with
  | false =>
    have isGiven : registry.getEnumerator? policy type = some ⟨4⟩ := by
      rw [getEnumerator?, complete.method?_of_class has ambiguous isInterface,
        complete.enumerableContract?_reject has rejects ambiguous]
      exact complete.getEnumerator_of_enumerable
    have known := complete.keeps.members
      (show Registry.initial.member? ⟨4⟩ = some _ from rfl)
    rw [enumerableOf_eq isGiven known] at shaped
    exact ⟨_, _, _, shaped, rfl, known, fun _ => ⟨rfl, complete.enumerable_uncopied⟩,
      fun isTrue => absurd (Except.ok.inj isTrue) Bool.false_ne_true⟩
  | true =>
    obtain ⟨member, source, earlier, later, own, known, split, absent⟩ :=
      complete.method?_of_interface has ambiguous isInterface
    rw [enumerableOf_eq (getEnumerator?_of_own own) known] at shaped
    exact ⟨_, _, _, shaped, rfl, known,
      fun isFalse => absurd (Except.ok.inj isFalse).symm Bool.false_ne_true,
      fun _ => ⟨earlier, later, congrArg Except.ok split, absent⟩⟩

/-- The contract of the pair lists no method that gives an enumerator. -/
theorem pairTypes_ambiguous : pairTypes.Ambiguous ⟨14⟩ where
  instances := by
    have areInterfaces : pairTypes.allInterfaces ⟨14⟩ = .ok [⟨15⟩, ⟨17⟩, .enumerable] := by
      decide +kernel
    have first : pairTypes.isInstanceOf ⟨15⟩ .genericEnumerable = .ok true := by decide +kernel
    have second : pairTypes.isInstanceOf ⟨17⟩ .genericEnumerable = .ok true := by decide +kernel
    exact ⟨_, areInterfaces, ⟨15⟩, by simp, ⟨17⟩, by simp, by decide, first, second⟩
  undeclared := publicIn?_method_eq_none.mp (by decide)
  bases isClass := by
    have isInterface : pairTypes.isInterface ⟨14⟩ = .ok true := by decide
    cases isInterface.symm.trans isClass

/-- The first interface of the pair's contract that lists a method gives the enumerator, although
there are two instances. -/
theorem pairTypes_getEnumerator : pairTypes.Ambiguous ⟨14⟩ ∧ ∃ shape member source earlier later,
    pairTypes.enumerableShape { ambiguity := .reject } ⟨14⟩ = .ok shape ∧
      shape.getEnumerator = some member ∧ pairTypes.member? member = some source ∧
        pairTypes.allInterfaces ⟨14⟩ = .ok (earlier ++ source.owner :: later) ∧
          ∀ interface ∈ earlier,
            ¬ pairTypes.Lists interface (·.IsPublicMethod contractNames.getEnumerator) := by
  have has : pairTypes.Has ⟨14⟩ := by decide
  have rejects : ({ ambiguity := .reject } : Policy).ambiguity = .reject := rfl
  obtain ⟨shape, member, source, shaped, isGiven, known, -, ofInterface⟩ :=
    pairTypes_built.getEnumerator_of_ambiguous has rejects pairTypes_ambiguous
  obtain ⟨earlier, later, split, absent⟩ := ofInterface (by decide)
  exact ⟨pairTypes_ambiguous, shape, member, source, earlier, later, shaped, isGiven, known, split,
    absent⟩

/-- What gives an enumerator of an ambiguous type, under a policy that counts no instance, is not
declared by an instance of the enumerable contract. -/
def RejectsInstances (registry : Registry) : Prop :=
  ∀ {policy : Policy} {type : TypeId} {shape : EnumerableShape} {member : MemberId}
    {source : MemberEntry}, policy.ambiguity = .reject → registry.Ambiguous type →
      registry.enumerableShape policy type = .ok shape → shape.getEnumerator = some member →
        registry.member? member = some source →
          registry.isInstanceOf source.owner .genericEnumerable = .ok false

/-- The contract of the pair is enumerated through the contract at integers, although no instance
counts. -/
theorem pairTypes_not_rejectsInstances :
    Built TypeEntry.IsOriginal pairTypes ∧ ¬ pairTypes.RejectsInstances := by
  refine ⟨pairTypes_built, fun rejects => ?_⟩
  have shaped : pairTypes.enumerableShape { ambiguity := .reject } ⟨14⟩ =
      .ok ⟨some ⟨15⟩, some ⟨9⟩, ⟨some ⟨16⟩, some ⟨8⟩, some ⟨2⟩, some ⟨0⟩, some .int⟩⟩ := by
    decide +kernel
  obtain ⟨source, known, owner⟩ : ∃ source ∈ pairTypes.member? ⟨9⟩, source.owner = ⟨15⟩ := by
    decide
  have isRejected := rejects rfl pairTypes_ambiguous shaped rfl known
  have isInstance : pairTypes.isInstanceOf ⟨15⟩ .genericEnumerable = .ok true := by decide
  rw [owner, isInstance] at isRejected
  cases isRejected

end Foreach.Registry
