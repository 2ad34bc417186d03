import Foreach.Pattern.Enumerable
import Foreach.Proofs.Types.Built
import Foreach.Proofs.Types.Lookup

/-!
# What enumeration finds in a complete registry

In a complete registry every search of the enumeration pattern has an answer, which is given here
without the ways in which a search could stop: the contract through which a type is used, the
members that are looked for, and what is found of an enumerable as a whole
(`Registry.Furnished.isEnumerable_eq_ok`).
-/
namespace Foreach

/-- A public instance method of a name, without parameters. -/
structure MemberEntry.IsPublicMethod (source : MemberEntry) (name : String) : Prop where
  /-- The name. -/
  name : source.name = name
  /-- It is a method without parameters. -/
  kind : ∃ returns, source.kind = .method [] returns
  /-- It is public. -/
  isPublic : source.flags.isPublic = true
  /-- It belongs to the values. -/
  notStatic : source.flags.isStatic = false
  /-- It is no explicit implementation. -/
  notExplicit : source.flags.isExplicit = false

/-- A public instance property of a name that can be read. -/
structure MemberEntry.IsPublicProperty (source : MemberEntry) (name : String) : Prop where
  /-- The name. -/
  name : source.name = name
  /-- It is a property. -/
  kind : ∃ type, source.kind = .property type
  /-- It can be read. -/
  hasGetter : source.flags.hasGetter = true
  /-- It is public. -/
  isPublic : source.flags.isPublic = true
  /-- It belongs to the values. -/
  notStatic : source.flags.isStatic = false
  /-- It is no explicit implementation. -/
  notExplicit : source.flags.isExplicit = false

/-- A member like a public method is one. -/
theorem MemberEntry.Alike.isPublicMethod {copy source : MemberEntry} {name : String}
    (alike : copy.Alike source) (isMethod : source.IsPublicMethod name) :
    copy.IsPublicMethod name := by
  obtain ⟨returns, kind⟩ := isMethod.kind
  have arity := alike.arity
  rw [kind] at arity
  have copyKind : ∃ returns, copy.kind = .method [] returns := by
    cases isKind : copy.kind with
    | property type =>
      rw [isKind] at arity
      cases arity
    | method parameters other =>
      rw [isKind] at arity
      have noParameters : parameters = [] := List.eq_nil_of_length_eq_zero (Option.some.inj arity)
      exact ⟨other, by rw [noParameters]⟩
  exact ⟨alike.name.trans isMethod.name, copyKind, alike.flags ▸ isMethod.isPublic,
    alike.flags ▸ isMethod.notStatic, alike.flags ▸ isMethod.notExplicit⟩

/-- A member like a public property is one. -/
theorem MemberEntry.Alike.isPublicProperty {copy source : MemberEntry} {name : String}
    (alike : copy.Alike source) (isProperty : source.IsPublicProperty name) :
    copy.IsPublicProperty name := by
  obtain ⟨type, kind⟩ := isProperty.kind
  have arity := alike.arity
  rw [kind] at arity
  have copyKind : ∃ type, copy.kind = .property type := by
    cases isKind : copy.kind with
    | property other => exact ⟨other, rfl⟩
    | method parameters other =>
      rw [isKind] at arity
      cases arity
  exact ⟨alike.name.trans isProperty.name, copyKind, alike.flags ▸ isProperty.hasGetter,
    alike.flags ▸ isProperty.isPublic, alike.flags ▸ isProperty.notStatic,
    alike.flags ▸ isProperty.notExplicit⟩

namespace Registry

/-- A public member passes the test for a method exactly if it is a public method. -/
theorem isPublicMethod_iff {source : MemberEntry} {name : String} :
    source.flags.isPublicInstance = true ∧ isMethodOf name [] source = true ↔
      source.IsPublicMethod name := by
  obtain ⟨sourceName, owner, flags, kind, implements, definition⟩ := source
  simp only [MemberFlags.isPublicInstance, isMethodOf, MemberEntry.isMethod,
    MemberEntry.parameters, Bool.and_eq_true, decide_eq_true_eq, Bool.not_eq_true']
  constructor
  · rintro ⟨⟨⟨isPublic, notStatic⟩, notExplicit⟩, ⟨sameName, isMethod⟩, noParameters⟩
    cases kind with
    | property type => cases isMethod
    | method parameters returns =>
      have kind : MemberKind.method parameters returns = .method [] returns :=
        congrArg (MemberKind.method · returns) (of_decide_eq_true noParameters)
      exact ⟨sameName, ⟨returns, kind⟩, isPublic, notStatic, notExplicit⟩
  · rintro ⟨sameName, ⟨returns, rfl⟩, isPublic, notStatic, notExplicit⟩
    exact ⟨⟨⟨isPublic, notStatic⟩, notExplicit⟩, ⟨sameName, rfl⟩, rfl⟩

/-- A public member passes the test for a property exactly if it is a public property that can be
read. -/
theorem isPublicProperty_iff {source : MemberEntry} {name : String} :
    source.flags.isPublicInstance = true ∧ isReadableOf name source = true ↔
      source.IsPublicProperty name := by
  obtain ⟨sourceName, owner, flags, kind, implements, definition⟩ := source
  simp only [MemberFlags.isPublicInstance, isReadableOf, MemberEntry.isProperty,
    MemberEntry.isMethod, Bool.and_eq_true, decide_eq_true_eq, Bool.not_eq_true']
  constructor
  · rintro ⟨⟨⟨isPublic, notStatic⟩, notExplicit⟩, ⟨sameName, isProperty⟩, hasGetter⟩
    cases kind with
    | method parameters returns => cases isProperty
    | property type =>
      exact ⟨sameName, ⟨type, rfl⟩, hasGetter, isPublic, notStatic, notExplicit⟩
  · rintro ⟨sameName, ⟨type, rfl⟩, hasGetter, isPublic, notStatic, notExplicit⟩
    exact ⟨⟨⟨isPublic, notStatic⟩, notExplicit⟩, ⟨sameName, rfl⟩, hasGetter⟩

/-- The first public instance method of a name that has no parameters. -/
def method? (registry : Registry) (name : String) (type : TypeId) : Option MemberId :=
  registry.publicMember? type (isMethodOf name [])

/-- No public method of a name is found in a scope exactly if it lists none. -/
theorem publicIn?_method_eq_none {registry : Registry} {scope : TypeId} {name : String} :
    registry.publicIn? (isMethodOf name []) scope = none ↔
      ¬ registry.Lists scope (·.IsPublicMethod name) := by
  rw [publicIn?_eq_none]
  simp only [isPublicMethod_iff]

/-- No public method of a name is found exactly if no scope lists one. -/
theorem method?_eq_none {registry : Registry} {type : TypeId} {name : String} :
    registry.method? name type = none ↔
      ∀ scope ∈ registry.scopes type, ¬ registry.Lists scope (·.IsPublicMethod name) := by
  rw [method?, publicMember?, List.findSome?_eq_none_iff]
  exact forall₂_congr fun _ _ => publicIn?_method_eq_none

/-- The first public instance property of a name that can be read. -/
def property? (registry : Registry) (name : String) (type : TypeId) : Option MemberId :=
  registry.publicMember? type (isReadableOf name)

/-- The type of what a member answers with. -/
def valueType? (registry : Registry) (member : MemberId) : Option TypeId :=
  (registry.member? member).map MemberEntry.valueType

/-- The contract without parameters through which a type is used. -/
def plainContract? (registry : Registry) (type contract : TypeId) : Option TypeId :=
  if contract ∈ type :: registry.contracts type then some contract else none

/-- The instance of a generic contract through which a type is used. -/
def genericContract? (registry : Registry) (policy : Policy) (type contract : TypeId) :
    Option TypeId :=
  policy.ambiguity.choose (registry.instancesIn type contract)

/-- The enumerable contract through which a type is used. -/
def enumerableContract? (registry : Registry) (policy : Policy) (type : TypeId) : Option TypeId :=
  match policy.interfaceOrder with
  | .genericFirst => (registry.genericContract? policy type .genericEnumerable).or
      (registry.plainContract? type .enumerable)
  | .nonGenericFirst => (registry.plainContract? type .enumerable).or
      (registry.genericContract? policy type .genericEnumerable)

/-- The enumerator contract through which the current item is read. -/
def enumeratorContract? (registry : Registry) (policy : Policy) (type : TypeId) : Option TypeId :=
  (registry.genericContract? policy type .genericEnumerator).or
    (registry.plainContract? type .enumerator)

/-- What gives an enumerator. -/
def getEnumerator? (registry : Registry) (policy : Policy) (type : TypeId) : Option MemberId :=
  (registry.method? contractNames.getEnumerator type).or
    ((registry.enumerableContract? policy type).bind
      (registry.method? contractNames.getEnumerator))

/-- What reads the current item. -/
def current? (registry : Registry) (policy : Policy) (type : TypeId) : Option MemberId :=
  (registry.property? contractNames.current type).or
    ((registry.enumeratorContract? policy type).bind (registry.property? contractNames.current))

/-- The public method that goes on to the next item. -/
def ownMoveNext? (registry : Registry) (type : TypeId) : Option MemberId :=
  (registry.method? contractNames.moveNext type).filter fun found =>
    registry.valueType? found = some .bool

/-- What goes on to the next item. -/
def moveNext? (registry : Registry) (type : TypeId) : Option MemberId :=
  (registry.ownMoveNext? type).or
    ((registry.plainContract? type .enumerator).bind (registry.method? contractNames.moveNext))

/-- What disposes of an enumerator. -/
def disposal? (registry : Registry) (type : TypeId) : Option MemberId :=
  if (registry.flagsOf type).byRefLike then registry.ownDispose? type
  else if registry.assignable type .disposable then
    (registry.method? contractNames.dispose type).or
      (registry.method? contractNames.dispose .disposable)
  else none

/-- What a type has of an enumerator, apart from what disposes of it. -/
def enumeratorMembers (registry : Registry) (policy : Policy) (type : TypeId) :
    EnumeratorShape where
  type := some type
  current := registry.current? policy type
  moveNext := registry.moveNext? type
  itemType := (registry.current? policy type).bind registry.valueType?

/-- What a type has of an enumerator. -/
def enumeratorOf (registry : Registry) (policy : Policy) (type : TypeId) : EnumeratorShape :=
  { registry.enumeratorMembers policy type with
    dispose := if (registry.enumeratorMembers policy type).isComplete then registry.disposal? type
      else none }

/-- What a type has of an enumerable. -/
def enumerableOf (registry : Registry) (policy : Policy) (type : TypeId) : EnumerableShape :=
  match registry.getEnumerator? policy type with
  | none => {}
  | some getEnumerator =>
    { type := (registry.member? getEnumerator).map MemberEntry.owner
      getEnumerator := some getEnumerator
      enumerator := ((registry.valueType? getEnumerator).map
        (registry.enumeratorOf policy)).getD {} }

/-- What is found of an enumerable is told of the member that gives the enumerator. -/
theorem enumerableOf_eq {registry : Registry} {policy : Policy} {type : TypeId} {member : MemberId}
    {source : MemberEntry} (found : registry.getEnumerator? policy type = some member)
    (known : registry.member? member = some source) : registry.enumerableOf policy type =
      ⟨some source.owner, some member, registry.enumeratorOf policy source.valueType⟩ := by
  rw [enumerableOf, found]
  simp only [valueType?, known, Option.map_some, Option.getD_some]

/-- The first of two answers is the answer. -/
theorem firstAnswer_ok {α : Type} {first second : Option α} :
    firstAnswer (.ok first) (.ok second) = .ok (first.or second) := by
  cases first <;> rfl

/-- The answer of a type itself comes before that of a contract. -/
theorem firstAnswer_inContract {α : Type} {own : Option α} {contract : Option TypeId}
    {question : TypeId → Checked (Option α)} {answer : TypeId → Option α}
    (answered : ∀ found ∈ contract, question found = .ok (answer found)) :
    firstAnswer (.ok own) (inContract (.ok contract) question) =
      .ok (own.or (contract.bind answer)) := by
  have inContract_ok : inContract (.ok contract) question = .ok (contract.bind answer) := by
    cases contract with
    | none => rfl
    | some found => exact answered found rfl
  rw [inContract_ok, firstAnswer_ok]

/-- What is chosen of some types is one of them. -/
theorem mem_of_choose {ambiguity : Ambiguity} {types : List TypeId} {chosen : TypeId}
    (isChosen : ambiguity.choose types = some chosen) : chosen ∈ types := by
  cases types with
  | nil => cases ambiguity <;> cases isChosen
  | cons first rest =>
    cases rest with
    | nil => cases ambiguity <;> cases isChosen <;> exact List.mem_cons_self ..
    | cons second others =>
      cases ambiguity with
      | firstDeclared =>
        cases isChosen
        exact List.mem_cons_self ..
      | reject => cases isChosen

/-- A contract without parameters is used through itself. -/
theorem plainContract?_eq_some {registry : Registry} {type contract found : TypeId} :
    registry.plainContract? type contract = some found ↔
      found = contract ∧ found ∈ type :: registry.contracts type := by
  unfold plainContract?
  by_cases isThere : contract ∈ type :: registry.contracts type
  · rw [if_pos isThere, Option.some.injEq]
    exact ⟨fun same => ⟨same.symm, same ▸ isThere⟩, fun both => both.1.symm⟩
  · rw [if_neg isThere]
    exact ⟨fun isNone => (nomatch isNone), fun both => absurd (both.1 ▸ both.2) isThere⟩

/-- A generic contract is used through itself or through an instance of it. -/
theorem genericContract?_eq_some {registry : Registry} {policy : Policy}
    {type contract found : TypeId}
    (isFound : registry.genericContract? policy type contract = some found) :
    found ∈ type :: registry.contracts type ∧ registry.standsFor contract found = true :=
  List.mem_filter.mp (mem_of_choose isFound)

/-- The enumerable contract is used through the contract without parameters, or through the generic
contract or an instance of it. -/
theorem enumerableContract?_eq_some {registry : Registry} {policy : Policy} {type found : TypeId}
    (isFound : registry.enumerableContract? policy type = some found) :
    found ∈ type :: registry.contracts type ∧
      (found = .enumerable ∨ registry.standsFor .genericEnumerable found = true) := by
  have either : registry.plainContract? type .enumerable = some found ∨
      registry.genericContract? policy type .genericEnumerable = some found := by
    unfold enumerableContract? at isFound
    cases order : policy.interfaceOrder with
    | genericFirst =>
      rw [order] at isFound
      exact (Option.or_eq_some_iff.mp isFound).symm.imp And.right id
    | nonGenericFirst =>
      rw [order] at isFound
      exact (Option.or_eq_some_iff.mp isFound).imp id And.right
  cases either with
  | inl isPlain =>
    obtain ⟨isEnumerable, isUsed⟩ := plainContract?_eq_some.mp isPlain
    exact ⟨isUsed, .inl isEnumerable⟩
  | inr isGeneric =>
    obtain ⟨isUsed, stands⟩ := genericContract?_eq_some isGeneric
    exact ⟨isUsed, .inr stands⟩

/-- The enumerator contract is used through the contract without parameters, or through the generic
contract or an instance of it. -/
theorem enumeratorContract?_eq_some {registry : Registry} {policy : Policy} {type found : TypeId}
    (isFound : registry.enumeratorContract? policy type = some found) :
    found ∈ type :: registry.contracts type ∧
      (found = .enumerator ∨ registry.standsFor .genericEnumerator found = true) := by
  cases Option.or_eq_some_iff.mp isFound with
  | inl isGeneric =>
    obtain ⟨isUsed, stands⟩ := genericContract?_eq_some isGeneric
    exact ⟨isUsed, .inr stands⟩
  | inr isPlain =>
    obtain ⟨isEnumerator, isUsed⟩ := plainContract?_eq_some.mp isPlain.2
    exact ⟨isUsed, .inl isEnumerator⟩

section Members

variable {registry : Registry} {type : TypeId} {member : MemberId} {source : MemberEntry}

/-- The type of what a registered member answers with is known. -/
theorem valueTypeOf_eq_ok (known : registry.member? member = some source) :
    registry.valueTypeOf member = .ok source.valueType :=
  Work.checked_bind_eq_ok.mpr ⟨source, Checked.ofOption_eq_ok.mpr known, rfl⟩

variable (formed : registry.WellFormed)
include formed

/-- A method that is found is a public method of the name, of one of the scopes. -/
theorem WellFormed.method?_eq_some {name : String}
    (found : registry.method? name type = some member) :
    ∃ source, registry.member? member = some source ∧ source.owner ∈ registry.scopes type ∧
      source.IsPublicMethod name := by
  obtain ⟨source, known, isScope, passes⟩ := publicMember?_eq_some formed found
  exact ⟨source, known, isScope, isPublicMethod_iff.mp passes⟩

/-- A property that is found is a public property of the name, of one of the scopes. -/
theorem WellFormed.property?_eq_some {name : String}
    (found : registry.property? name type = some member) :
    ∃ source, registry.member? member = some source ∧ source.owner ∈ registry.scopes type ∧
      source.IsPublicProperty name := by
  obtain ⟨source, known, isScope, passes⟩ := publicMember?_eq_some formed found
  exact ⟨source, known, isScope, isPublicProperty_iff.mp passes⟩

/-- What gives an enumerator is a public method of its name. -/
theorem WellFormed.getEnumerator?_eq_some {policy : Policy}
    (found : registry.getEnumerator? policy type = some member) :
    ∃ source, registry.member? member = some source ∧
      source.IsPublicMethod contractNames.getEnumerator := by
  rcases Option.or_eq_some_iff.mp found with own | ⟨-, throughContract⟩
  · obtain ⟨source, known, -, isMethod⟩ := formed.method?_eq_some own
    exact ⟨source, known, isMethod⟩
  · obtain ⟨contract, -, foundThere⟩ := Option.bind_eq_some_iff.mp throughContract
    obtain ⟨source, known, -, isMethod⟩ := formed.method?_eq_some foundThere
    exact ⟨source, known, isMethod⟩

/-- What reads the current item is a public property of its name. -/
theorem WellFormed.current?_eq_some {policy : Policy}
    (found : registry.current? policy type = some member) :
    ∃ source, registry.member? member = some source ∧
      source.IsPublicProperty contractNames.current := by
  rcases Option.or_eq_some_iff.mp found with own | ⟨-, throughContract⟩
  · obtain ⟨source, known, -, isProperty⟩ := formed.property?_eq_some own
    exact ⟨source, known, isProperty⟩
  · obtain ⟨contract, -, foundThere⟩ := Option.bind_eq_some_iff.mp throughContract
    obtain ⟨source, known, -, isProperty⟩ := formed.property?_eq_some foundThere
    exact ⟨source, known, isProperty⟩

end Members

section Complete

variable {registry : Registry} (complete : registry.Complete) {type : TypeId}
  (has : registry.Has type)
include complete

include has

/-- What a type is used through is registered. -/
theorem Furnished.has_of_used {found : TypeId}
    (isUsed : found ∈ type :: registry.contracts type) : registry.Has found := by
  cases List.mem_cons.mp isUsed with
  | inl isType => exact isType ▸ has
  | inr isContract => exact complete.contracts_has found isContract

/-- A method is found as long as the type is registered. -/
theorem Furnished.findMethod?_eq_ok (name : String) :
    registry.findMethod? type name [] = .ok (registry.method? name type) :=
  complete.findPublic?_eq_ok has _

/-- A property is found as long as the type is registered. -/
theorem Furnished.findProperty?_eq_ok (name : String) :
    registry.findProperty? type name = .ok (registry.property? name type) :=
  complete.findPublic?_eq_ok has _

/-- The contract through which a registered type is used is found: the type itself or one of its
interfaces if the contract has no parameters, and else the one that is chosen of its instances. -/
theorem Furnished.contractOf?_eq_ok (policy : Policy) (contract : TypeId) {whole : TypeEntry}
    (wellKnown : initial.type? contract = some whole) :
    registry.contractOf? policy type contract = .ok (if whole.parameters.isEmpty then
      registry.plainContract? type contract
      else registry.genericContract? policy type contract) := by
  obtain ⟨entry, known, continued⟩ := complete.keeps.entries wellKnown
  have found : registry.entry contract = .ok entry := Checked.ofOption_eq_ok.mpr known
  rw [contractOf?, found, ← continued.parameters]
  refine Work.checked_bind_eq_ok.mpr ⟨entry, rfl, ?_⟩
  cases entry.parameters.isEmpty with
  | false =>
    rw [complete.instantiationsOf_eq_ok has]
    rfl
  | true =>
    rw [complete.implements_eq_ok has, if_pos rfl, plainContract?]
    by_cases same : type = contract
    · simp only [same, List.mem_cons_self, if_true, Bool.not_true, Bool.false_eq_true, if_false]
      rfl
    · have isUsed : contract ∈ type :: registry.contracts type ↔
          (registry.contracts type).contains contract = true := by
        rw [List.mem_cons, or_iff_right (Ne.symm same), List.contains_iff_mem]
      simp only [same, isUsed, Bool.not_true, Bool.false_eq_true, if_false]
      cases (registry.contracts type).contains contract <;> rfl

/-- What gives an enumerator is found. -/
theorem Furnished.findGetEnumerator?_eq_ok (policy : Policy) :
    registry.findGetEnumerator? policy type = .ok (registry.getEnumerator? policy type) := by
  have contract :
      firstAnswer (registry.contractOf? policy type policy.interfaceOrder.contracts.1)
        (registry.contractOf? policy type policy.interfaceOrder.contracts.2) =
          .ok (registry.enumerableContract? policy type) := by
    have generic := complete.contractOf?_eq_ok has policy .genericEnumerable rfl
    have plain := complete.contractOf?_eq_ok has policy .enumerable rfl
    unfold enumerableContract?
    cases policy.interfaceOrder with
    | genericFirst => exact (congrArg₂ firstAnswer generic plain).trans firstAnswer_ok
    | nonGenericFirst => exact (congrArg₂ firstAnswer plain generic).trans firstAnswer_ok
  have own := complete.findMethod?_eq_ok has contractNames.getEnumerator
  simp only [findGetEnumerator?, contract, own]
  exact firstAnswer_inContract fun found isFound => complete.findMethod?_eq_ok
    (complete.has_of_used has (enumerableContract?_eq_some isFound).1) contractNames.getEnumerator

/-- What reads the current item is found. -/
theorem Furnished.findCurrent?_eq_ok (policy : Policy) :
    registry.findCurrent? policy type = .ok (registry.current? policy type) := by
  have contract :
      firstAnswer (registry.contractOf? policy type .genericEnumerator)
        (registry.contractOf? policy type .enumerator) =
          .ok (registry.enumeratorContract? policy type) := by
    have generic := complete.contractOf?_eq_ok has policy .genericEnumerator rfl
    have plain := complete.contractOf?_eq_ok has policy .enumerator rfl
    exact (congrArg₂ firstAnswer generic plain).trans firstAnswer_ok
  have own := complete.findProperty?_eq_ok has contractNames.current
  simp only [findCurrent?, contract, own]
  exact firstAnswer_inContract fun found isFound => complete.findProperty?_eq_ok
    (complete.has_of_used has (enumeratorContract?_eq_some isFound).1) contractNames.current

/-- What goes on to the next item is found. -/
theorem Furnished.findMoveNext?_eq_ok (policy : Policy) :
    registry.findMoveNext? policy type = .ok (registry.moveNext? type) := by
  have own : registry.findOwnMoveNext? type = .ok (registry.ownMoveNext? type) := by
    rw [findOwnMoveNext?, complete.findMethod?_eq_ok has, ownMoveNext?]
    cases found : registry.method? contractNames.moveNext type with
    | none => rfl
    | some member =>
      obtain ⟨source, sourceKnown, -⟩ := complete.method?_eq_some found
      refine Work.checked_bind_eq_ok.mpr ⟨some member, rfl, ?_⟩
      refine Work.checked_bind_eq_ok.mpr ⟨source.valueType, valueTypeOf_eq_ok sourceKnown, ?_⟩
      rw [Option.filter_some, valueType?, sourceKnown, Option.map_some]
      by_cases isBool : source.valueType = .bool
      · simp only [isBool, if_true, decide_true]
        rfl
      · simp only [isBool, if_false, Option.some.injEq, decide_false]
        rfl
  have plain : registry.contractOf? policy type .enumerator =
      .ok (registry.plainContract? type .enumerator) :=
    complete.contractOf?_eq_ok has policy .enumerator rfl
  rw [findMoveNext?, own, plain]
  exact firstAnswer_inContract fun found isFound => complete.findMethod?_eq_ok
    (complete.has_of_used has (plainContract?_eq_some.mp isFound).2) contractNames.moveNext

/-- What disposes of an enumerator is found. -/
theorem Furnished.findDispose?_eq_ok :
    registry.findDispose? type = .ok (registry.disposal? type) := by
  have disposableHas : registry.Has .disposable := complete.keeps.has (by decide)
  rw [findDispose?, isByRefLike_eq_ok has, disposal?]
  refine Work.checked_bind_eq_ok.mpr ⟨_, rfl, ?_⟩
  cases (registry.flagsOf type).byRefLike with
  | true => rfl
  | false =>
    rw [if_neg Bool.false_ne_true, if_neg Bool.false_ne_true,
      complete.isAssignableTo_eq_ok has disposableHas]
    refine Work.checked_bind_eq_ok.mpr ⟨_, rfl, ?_⟩
    cases registry.assignable type .disposable with
    | true =>
      rw [if_pos rfl, if_pos rfl, complete.findMethod?_eq_ok has,
        complete.findMethod?_eq_ok disposableHas]
      exact firstAnswer_ok
    | false => rfl

/-- Whether a type is an enumerator is found: it is one if it has what enumeration needs. -/
theorem Furnished.isEnumerator_eq_ok (policy : Policy) :
    registry.isEnumerator policy type =
      .ok ((registry.enumeratorOf policy type).isComplete, registry.enumeratorOf policy type) := by
  have itemType : (registry.current? policy type).mapM registry.valueTypeOf =
      .ok ((registry.current? policy type).bind registry.valueType?) := by
    cases found : registry.current? policy type with
    | none => rfl
    | some member =>
      obtain ⟨source, known, -⟩ := complete.current?_eq_some found
      rw [Option.bind_some, valueType?, known, Option.map_some, Option.mapM_some,
        valueTypeOf_eq_ok known]
      rfl
  rw [isEnumerator, complete.findCurrent?_eq_ok has]
  refine Work.checked_bind_eq_ok.mpr ⟨_, rfl, ?_⟩
  refine Work.checked_bind_eq_ok.mpr ⟨_, itemType, ?_⟩
  rw [complete.findMoveNext?_eq_ok has]
  refine Work.checked_bind_eq_ok.mpr ⟨_, rfl, ?_⟩
  rw [complete.findDispose?_eq_ok has]
  unfold enumeratorOf enumeratorMembers
  -- The search gives up at the first of the two members that is not there.
  cases registry.current? policy type with
  | none => rfl
  | some current => cases registry.moveNext? type <;> rfl

/-- Whether a type is an enumerable is found: it is one if it has what enumeration needs. -/
theorem Furnished.isEnumerable_eq_ok (policy : Policy) :
    registry.isEnumerable policy type =
      .ok ((registry.enumerableOf policy type).isComplete, registry.enumerableOf policy type) := by
  rw [isEnumerable, complete.findGetEnumerator?_eq_ok has]
  cases found : registry.getEnumerator? policy type with
  | none =>
    rw [enumerableOf, found]
    rfl
  | some member =>
    obtain ⟨source, known, -⟩ := complete.getEnumerator?_eq_some found
    rw [enumerableOf_eq found known]
    refine Work.checked_bind_eq_ok.mpr ⟨_, rfl, ?_⟩
    refine Work.checked_bind_eq_ok.mpr ⟨source, Checked.ofOption_eq_ok.mpr known, ?_⟩
    exact Work.checked_bind_of_ok
      (complete.isEnumerator_eq_ok (complete.valueType_has known) policy)

/-- What a type has of an enumerable is found. -/
theorem Furnished.enumerableShape_eq_ok (policy : Policy) :
    registry.enumerableShape policy type = .ok (registry.enumerableOf policy type) := by
  rw [enumerableShape, complete.isEnumerable_eq_ok has]
  rfl

end Complete

end Registry

end Foreach
