import Foreach.Proofs.Types.Reached
import Foreach.Proofs.Types.Replacement

/-!
# What copies implement

A member of a definition may implement a contract: a member of an interface, often of an instance
made for it. The copy of that member should implement the corresponding member of what the
contract's type becomes. It does so exactly if the corresponding member is older than the copy, or
is the contract itself. Otherwise the type of the corresponding member was still being made when the
copy was, its members were not there yet, and the copy implements the contract of the definition.
-/
namespace Foreach.Registry

/-- The member that corresponds to a contract is the contract itself where its type stays, and else
the member of what its type becomes that is, or was made from, the same member of a definition. -/
def Corresponds (registry : Registry) (substitution : Substitution)
    (contract target : MemberId) : Prop :=
  ∃ entry owner, registry.member? contract = some entry ∧
    registry.Becomes substitution entry.owner owner ∧
      ((owner = entry.owner ∧ target = contract) ∨
        owner ≠ entry.owner ∧ ∃ made, registry.member? target = some made ∧ made.owner = owner ∧
          made.definition.getD target = entry.definition.getD contract)

/-- A member of a definition, and the matching member of an instance. -/
def Matching (registry : Registry) (type definition : TypeId) (member copy : MemberId) : Prop :=
  ∃ (entry whole : TypeEntry) (place : Nat), registry.type? type = some entry ∧
    entry.definition = some definition ∧ registry.type? definition = some whole ∧
      whole.members[place]? = some member ∧ entry.members[place]? = some copy

/-- The members at one place match. -/
theorem Matching.of_place {registry : Registry} {type definition : TypeId}
    {member copy : MemberId} (place : Nat)
    (inInstance : ∃ entry ∈ registry.type? type,
      entry.definition = some definition ∧ entry.members[place]? = some copy)
    (inDefinition : ∃ whole ∈ registry.type? definition, whole.members[place]? = some member) :
    registry.Matching type definition member copy := by
  obtain ⟨entry, known, isCopy, isMatch⟩ := inInstance
  obtain ⟨whole, wholeKnown, isMember⟩ := inDefinition
  exact ⟨entry, whole, place, known, isCopy, wholeKnown, isMember, isMatch⟩

/-- Related lists have related elements at each place. -/
theorem related_of_getElem? {α β : Type} {related : α → β → Prop} {left : List α} {right : List β}
    (all : List.Forall₂ related left right) {place : Nat} {first : α} {second : β}
    (isFirst : left[place]? = some first) (isSecond : right[place]? = some second) :
    related first second := by
  obtain ⟨bound, rfl⟩ := List.getElem?_eq_some_iff.mp isFirst
  obtain ⟨bound', rfl⟩ := List.getElem?_eq_some_iff.mp isSecond
  exact all.get bound bound'

/-- Lists that are related have elements at the same places. -/
theorem exists_getElem?_of_related {α β : Type} {related : α → β → Prop} {left : List α}
    {right : List β} (all : List.Forall₂ related left right) {place : Nat} {second : β}
    (isSecond : right[place]? = some second) : ∃ first, left[place]? = some first := by
  obtain ⟨bound, -⟩ := List.getElem?_eq_some_iff.mp isSecond
  rw [← all.length_eq] at bound
  exact ⟨_, List.getElem?_eq_getElem bound⟩

/-- An element of a list without repetitions is found at its place. -/
theorem idxOf?_of_nodup {members : List MemberId} (unique : members.Nodup) {place : Nat}
    {member : MemberId} (isMember : members[place]? = some member) :
    members.idxOf? member = some place := by
  obtain ⟨bound, same⟩ := List.getElem?_eq_some_iff.mp isMember
  refine List.idxOf?_eq_some_iff.mpr ⟨bound, same, fun other earlier equal => ?_⟩
  have bound' := Nat.lt_trans earlier bound
  exact List.pairwise_iff_getElem.mp unique other place bound' bound earlier
    (equal.trans same.symm)

section Sound

variable {registry : Registry} (sound : registry.Sound settled)
include sound

/-- What the members of an instance were made from. -/
theorem Sound.made_of_place {type definition : TypeId} {entry whole : TypeEntry}
    (known : registry.type? type = some entry) (isCopy : entry.definition = some definition)
    (wholeKnown : registry.type? definition = some whole) {place : Nat} {member copy : MemberId}
    (isMember : whole.members[place]? = some member) (isMade : entry.members[place]? = some copy) :
    ∃ made, registry.member? copy = some made ∧ made.owner = type ∧
      made.definition = some member := by
  have mirrored := sound.mirrors known isCopy wholeKnown
  obtain ⟨source, made, sourceKnown, madeKnown, same⟩ :=
    related_of_getElem? mirrored.members isMember isMade
  obtain ⟨source', sourceKnown', -, origin⟩ :=
    sound.formed.owned wholeKnown (List.mem_of_getElem? isMember)
  obtain ⟨-, whole', wholeKnown', uncopied, -⟩ := sound.formed.copied known isCopy
  cases wholeKnown.symm.trans wholeKnown'
  cases sourceKnown.symm.trans sourceKnown'
  refine ⟨made, madeKnown, same.owner, ?_⟩
  rw [same.definition, origin uncopied, Option.getD_none]

/-- A counterpart is a member of the type that is, or was made from, the given member. -/
theorem Sound.counterpart?_eq_some_iff {owner : TypeId} {origin target : MemberId} :
    registry.counterpart? owner origin = some target ↔
      ∃ made, registry.member? target = some made ∧ made.owner = owner ∧
        made.definition.getD target = origin := by
  constructor
  · intro found
    obtain ⟨entry, known, found⟩ := Option.bind_eq_some_iff.mp found
    obtain ⟨source, sourceKnown, found⟩ := Option.bind_eq_some_iff.mp found
    obtain ⟨place, listed, isTarget⟩ := Option.bind_eq_some_iff.mp found
    obtain ⟨bound, isOrigin, -⟩ := List.idxOf?_eq_some_iff.mp listed
    have atPlace : source.members[place]? = some origin :=
      List.getElem?_eq_some_iff.mpr ⟨bound, isOrigin⟩
    cases isCopy : entry.definition with
    | none =>
      rw [isCopy, Option.getD_none] at sourceKnown
      cases known.symm.trans sourceKnown
      cases atPlace.symm.trans isTarget
      obtain ⟨made, madeKnown, isOwner, uncopied⟩ :=
        sound.formed.owned known (List.mem_of_getElem? isTarget)
      exact ⟨made, madeKnown, isOwner, by rw [uncopied isCopy, Option.getD_none]⟩
    | some definition =>
      rw [isCopy, Option.getD_some] at sourceKnown
      obtain ⟨made, madeKnown, isOwner, isMade⟩ :=
        sound.made_of_place known isCopy sourceKnown atPlace isTarget
      exact ⟨made, madeKnown, isOwner, by rw [isMade, Option.getD_some]⟩
  · rintro ⟨made, madeKnown, rfl, isMade⟩
    obtain ⟨entry, known, isListed⟩ := sound.formed.listed madeKnown
    obtain ⟨place, isTarget⟩ := List.mem_iff_getElem?.mp isListed
    rw [Registry.counterpart?, known, Option.bind_some]
    cases isCopy : entry.definition with
    | none =>
      obtain ⟨made', madeKnown', -, uncopied⟩ := sound.formed.owned known isListed
      cases madeKnown.symm.trans madeKnown'
      rw [uncopied isCopy, Option.getD_none] at isMade
      rw [Option.getD_none, known, Option.bind_some, ← isMade,
        idxOf?_of_nodup (sound.formed.unique known) isTarget, Option.bind_some, isTarget]
    | some definition =>
      obtain ⟨-, whole, wholeKnown, -⟩ := sound.formed.copied known isCopy
      have mirrored := sound.mirrors known isCopy wholeKnown
      obtain ⟨member, isMember⟩ := exists_getElem?_of_related mirrored.members isTarget
      obtain ⟨made', madeKnown', -, origin'⟩ :=
        sound.made_of_place known isCopy wholeKnown isMember isTarget
      cases madeKnown.symm.trans madeKnown'
      rw [origin', Option.getD_some] at isMade
      rw [Option.getD_some, wholeKnown, Option.bind_some, ← isMade,
        idxOf?_of_nodup (sound.formed.unique wholeKnown) isMember, Option.bind_some, isTarget]

/-- The member that corresponds to a contract is the contract or its counterpart. -/
theorem Sound.corresponds_iff {substitution : Substitution} {contract target : MemberId}
    {entry : MemberEntry} {owner : TypeId} (known : registry.member? contract = some entry)
    (becomes : registry.Becomes substitution entry.owner owner) :
    registry.Corresponds substitution contract target ↔
      (owner = entry.owner ∧ target = contract) ∨
        owner ≠ entry.owner ∧
          registry.counterpart? owner (entry.definition.getD contract) = some target := by
  rw [sound.counterpart?_eq_some_iff]
  constructor
  · rintro ⟨entry', owner', known', becomes', corresponds⟩
    cases known.symm.trans known'
    cases becomes.unique becomes'
    exact corresponds
  · exact fun corresponds => ⟨entry, owner, known, becomes, corresponds⟩

/-- The instance at arguments has a member that is, or was made from, each member of the
definition. -/
theorem Sound.exists_made {definition owner : TypeId} {whole : TypeEntry}
    {arguments : List TypeId} (wholeKnown : registry.type? definition = some whole)
    (uncopied : whole.definition = none)
    (found : registry.instanceAt? definition arguments = some owner) {origin : MemberId}
    (isOrigin : origin ∈ whole.members) :
    ∃ target made, registry.member? target = some made ∧ made.owner = owner ∧
      made.definition.getD target = origin := by
  rw [Registry.instanceAt?, wholeKnown, Option.bind_some] at found
  by_cases own : whole.parameters = arguments
  · -- The definition stands for the instance, so it is the member itself.
    rw [if_pos own] at found
    cases found
    obtain ⟨source, sourceKnown, isOwner, unmade⟩ := sound.formed.owned wholeKnown isOrigin
    exact ⟨origin, source, sourceKnown, isOwner, by rw [unmade uncopied, Option.getD_none]⟩
  · rw [if_neg own] at found
    obtain ⟨recorded, isFirst, rfl⟩ := Option.map_eq_some_iff.mp found
    have sameDefinition := List.find?_some isFirst
    rw [Bool.and_eq_true, decide_eq_true_eq] at sameDefinition
    obtain ⟨target, targetKnown, isInstance, -⟩ :=
      sound.formed.recorded (List.mem_of_find?_eq_some isFirst)
    rw [sameDefinition.1] at isInstance
    obtain ⟨place, atPlace⟩ := List.mem_iff_getElem?.mp isOrigin
    have mirrored := sound.mirrors targetKnown isInstance wholeKnown
    have bound : place < target.members.length :=
      mirrored.members.length_eq ▸ (List.getElem?_eq_some_iff.mp atPlace).1
    have atTarget := List.getElem?_eq_getElem bound
    obtain ⟨made, madeKnown, isOwner, isMade⟩ :=
      sound.made_of_place targetKnown isInstance wholeKnown atPlace atTarget
    exact ⟨_, made, madeKnown, isOwner, by rw [isMade, Option.getD_some]⟩

/-- A contract of a type that is not replaced itself has a corresponding member. -/
theorem Sound.exists_corresponds {substitution : Substitution} {contract : MemberId}
    {entry : MemberEntry} {owner : TypeId} (known : registry.member? contract = some entry)
    (becomes : registry.Becomes substitution entry.owner owner)
    (kept : substitution.argument? entry.owner = none) :
    ∃ target, registry.Corresponds substitution contract target := by
  by_cases stays : owner = entry.owner
  · exact ⟨contract, entry, owner, known, becomes, .inl ⟨stays, rfl⟩⟩
  · have becomesOwner := becomes
    cases becomes with
    | argument replaced => cases kept.symm.trans replaced
    | whole => exact absurd rfl stays
    | @made _ definition _ ownerEntry arguments _ ownerKnown isCopy _ _ found =>
      obtain ⟨ownerEntry', ownerKnown', isListed⟩ := sound.formed.listed known
      cases ownerKnown.symm.trans ownerKnown'
      obtain ⟨place, atPlace⟩ := List.mem_iff_getElem?.mp isListed
      obtain ⟨-, whole, wholeKnown, uncopied, -⟩ := sound.formed.copied ownerKnown isCopy
      obtain ⟨origin, isOrigin⟩ :=
        exists_getElem?_of_related (sound.mirrors ownerKnown isCopy wholeKnown).members atPlace
      obtain ⟨entry', known', -, isMade⟩ :=
        sound.made_of_place ownerKnown isCopy wholeKnown isOrigin atPlace
      cases known.symm.trans known'
      obtain ⟨target, made, madeKnown, isOwner, sameOrigin⟩ :=
        sound.exists_made wholeKnown uncopied found (List.mem_of_getElem? isOrigin)
      refine ⟨target, entry, owner, known, becomesOwner, .inr ⟨stays, made, madeKnown, isOwner, ?_⟩⟩
      rw [sameOrigin, isMade, Option.getD_some]

/-- A member corresponds to a contract if replacing finds another type for the contract's without a
change, and the member is the counterpart there. -/
theorem Sound.corresponds_of_substitute {substitution : Substitution} (proper : substitution ≠ [])
    (depth : Nat) (owner : TypeId) {contract target : MemberId}
    (replaced : ∃ entry ∈ registry.member? contract,
      Registration.substitute depth substitution entry.owner registry = .ok (owner, registry) ∧
        owner ≠ entry.owner ∧
          registry.counterpart? owner (entry.definition.getD contract) = some target) :
    registry.Corresponds substitution contract target := by
  obtain ⟨entry, known, ran, moved, isCounterpart⟩ := replaced
  have becomes := (Registration.becomes_iff_substitute sound proper).mpr ⟨depth, ran⟩
  exact (sound.corresponds_iff known becomes).mpr (.inr ⟨moved, isCounterpart⟩)

/-- What a copy implements is the corresponding member exactly if that is the contract itself or
older than the copy, and otherwise the contract. -/
theorem Sound.follows_iff {substitution : Substitution} {copy contract implemented : MemberId}
    (follows : registry.Follows substitution copy contract implemented) :
    ∃ entry owner, registry.member? contract = some entry ∧
      registry.Becomes substitution entry.owner owner ∧
      (∀ target, registry.Corresponds substitution contract target →
        (implemented = target ↔ target = contract ∨ target.index < copy.index)) ∧
      (implemented = contract ∨ registry.Corresponds substitution contract implemented) := by
  cases follows with
  | @stays entry entryKnown becomes =>
    refine ⟨entry, _, entryKnown, becomes, fun target corresponds => ?_, .inl rfl⟩
    cases (sound.corresponds_iff entryKnown becomes).mp corresponds with
    | inl unchanged => exact iff_of_true unchanged.2.symm (.inl unchanged.2)
    | inr changed => exact absurd rfl changed.1
  | @found _ entry owner entryKnown becomes moved atPlace older =>
    have isCounterpart := (sound.corresponds_iff entryKnown becomes).mpr (.inr ⟨moved, atPlace⟩)
    refine ⟨entry, owner, entryKnown, becomes, fun target corresponds => ?_, .inr isCounterpart⟩
    cases (sound.corresponds_iff entryKnown becomes).mp corresponds with
    | inl unchanged => exact absurd unchanged.1 moved
    | inr changed =>
      cases atPlace.symm.trans changed.2
      exact iff_of_true rfl (.inr older)
  | @missed entry owner _ _ entryKnown becomes moved _ _ _ younger =>
    refine ⟨entry, owner, entryKnown, becomes, fun target corresponds => ?_, .inl rfl⟩
    cases (sound.corresponds_iff entryKnown becomes).mp corresponds with
    | inl unchanged => exact absurd unchanged.1 moved
    | inr changed =>
      have notOlder := Nat.not_lt.mpr (younger target changed.2)
      rw [or_iff_left notOlder, eq_comm]

end Sound

/-- In every registry that is reached, a copy of a member that implements a contract implements the
corresponding member exactly if that is the contract itself or older than the copy, and otherwise
the contract. There is a corresponding member unless the contract's type is replaced itself. -/
theorem Reached.implements_iff {registry : Registry} (reached : registry.Reached)
    {type definition : TypeId} {member copy contract : MemberId} {source : MemberEntry}
    {substitution : Substitution} (matching : registry.Matching type definition member copy)
    (substituted : registry.substitution type = .ok substitution)
    (sourceKnown : registry.member? member = some source)
    (implements : source.implements = some contract) :
    ∃ made entry, registry.member? copy = some made ∧ registry.member? contract = some entry ∧
      (substitution.argument? entry.owner = none →
        ∃ target, registry.Corresponds substitution contract target) ∧
      (∀ target, registry.Corresponds substitution contract target →
        (made.implements = some target ↔ target = contract ∨ target.index < copy.index)) ∧
      (made.implements = some contract ∨
        ∃ target, registry.Corresponds substitution contract target ∧
          made.implements = some target) := by
  have sound := reached.sound
  obtain ⟨instanceEntry, whole, place, known, isCopy, wholeKnown, isMember, isMatch⟩ := matching
  cases substituted.symm.trans (substitution_of_instance known isCopy wholeKnown)
  have mirrored := sound.mirrors known isCopy wholeKnown
  obtain ⟨source', made, sourceKnown', madeKnown, same⟩ :=
    related_of_getElem? mirrored.members isMember isMatch
  cases sourceKnown.symm.trans sourceKnown'
  have follows := same.implements
  rw [implements] at follows
  cases result : made.implements with
  | none =>
    rw [result] at follows
    cases follows
  | some implemented =>
    rw [result, Option.rel_some_some] at follows
    obtain ⟨entry, owner, entryKnown, becomes, condition, either⟩ := sound.follows_iff follows
    refine ⟨made, entry, madeKnown, entryKnown, sound.exists_corresponds entryKnown becomes, ?_, ?_⟩
    · intro target corresponds
      rw [result, Option.some.injEq]
      exact condition target corresponds
    · cases either with
      | inl same => exact .inl (by rw [result, same])
      | inr corresponds => exact .inr ⟨implemented, corresponds, result⟩

/-- Members of instances implement the corresponding members, whatever was made first. -/
def MappingsFollow (registry : Registry) : Prop :=
  ∀ {type definition : TypeId} {member copy contract target : MemberId}
    {source made : MemberEntry} {substitution : Substitution},
    registry.Matching type definition member copy →
    registry.substitution type = .ok substitution →
    registry.member? member = some source → source.implements = some contract →
    registry.Corresponds substitution contract target →
    registry.member? copy = some made → made.implements = some target

/-- An interface of one parameter and a class of one parameter, with the class instantiated at the
interface's parameter. -/
def openTypes : Registry :=
  initial
    |>.after (Registration.declare
      { name := "I", sort := .interfaceType, parameters := ["T"] })
    |>.after (Registration.declare { name := "C", sort := .classType, parameters := ["U"] })
    |>.after (Registration.instantiate 1 ⟨16⟩ [⟨15⟩])

/-- A member of the interface returns that instance, and the interface is instantiated at the
class's parameter. -/
def contractTypes : Registry :=
  openTypes
    |>.after (Registration.addDeclaredMember 1 ⟨14⟩ (.method "M" ⟨18⟩))
    |>.after (Registration.instantiate 2 ⟨14⟩ [⟨17⟩])

/-- A member of the class implements the member of that instance. -/
def mutualTypes : Registry :=
  contractTypes.after (Registration.addDeclaredMember 2 ⟨16⟩
    ((MemberDeclaration.method "M" .object).implementing ⟨9⟩))

/-- The interface and the class are registered without a stop. -/
theorem mutualTypes_reached : mutualTypes.Reached := by
  have openReached : openTypes.Reached :=
    ((Reached.initial.after .declare).after .declare).after .instantiate
  obtain ⟨_, known, uncopied⟩ : ∃ entry ∈ openTypes.type? ⟨14⟩, entry.definition = none := by
    decide
  have contractReached : contractTypes.Reached :=
    (openReached.after (.addMember known uncopied)).after .instantiate
  obtain ⟨_, known, uncopied⟩ : ∃ entry ∈ contractTypes.type? ⟨16⟩, entry.definition = none := by
    decide
  exact contractReached.after (.addMember known uncopied)

/-- The interface is instantiated at integers, which makes the class at integers. -/
def integerTypes : Registry := mutualTypes.after (Registration.instantiate 3 ⟨14⟩ [.int])

/-- The class at the interface's parameter implements the member of the interface itself, which is
older than the copy. -/
theorem mutualTypes_implements : ∃ made, mutualTypes.member? ⟨11⟩ = some made ∧
    mutualTypes.Matching ⟨18⟩ ⟨16⟩ ⟨10⟩ ⟨11⟩ ∧
    mutualTypes.Corresponds [(⟨17⟩, ⟨15⟩)] ⟨9⟩ ⟨8⟩ ∧ made.implements = some ⟨8⟩ := by
  have matching : mutualTypes.Matching ⟨18⟩ ⟨16⟩ ⟨10⟩ ⟨11⟩ :=
    .of_place 0 (by decide) (by decide)
  have substituted : mutualTypes.substitution ⟨18⟩ = .ok [(⟨17⟩, ⟨15⟩)] := by decide
  obtain ⟨source, sourceKnown, implements⟩ : ∃ source ∈ mutualTypes.member? ⟨10⟩,
      source.implements = some ⟨9⟩ := by
    decide
  have corresponds : mutualTypes.Corresponds [(⟨17⟩, ⟨15⟩)] ⟨9⟩ ⟨8⟩ :=
    mutualTypes_reached.sound.corresponds_of_substitute (by decide) 2 ⟨14⟩ (by decide)
  obtain ⟨made, _, madeKnown, -, -, condition, -⟩ :=
    mutualTypes_reached.implements_iff matching substituted sourceKnown implements
  exact ⟨made, madeKnown, matching, corresponds, (condition ⟨8⟩ corresponds).mpr (.inr (by decide))⟩

/-- The class at integers is made while the interface at integers has no member yet. So its member
does not implement that of the interface at integers. -/
theorem integerTypes_not_mappingsFollow :
    integerTypes.Reached ∧ ¬ integerTypes.MappingsFollow := by
  have reached : integerTypes.Reached := mutualTypes_reached.after .instantiate
  refine ⟨reached, fun follow => ?_⟩
  have matching : integerTypes.Matching ⟨21⟩ ⟨16⟩ ⟨10⟩ ⟨12⟩ :=
    .of_place 0 (by decide +kernel) (by decide +kernel)
  have substituted : integerTypes.substitution ⟨21⟩ = .ok [(⟨17⟩, .int)] := by decide +kernel
  obtain ⟨source, sourceKnown, implements⟩ : ∃ source ∈ integerTypes.member? ⟨10⟩,
      source.implements = some ⟨9⟩ := by
    decide +kernel
  obtain ⟨made, madeKnown, missed⟩ : ∃ made ∈ integerTypes.member? ⟨12⟩,
      made.implements = some ⟨9⟩ := by
    decide +kernel
  have corresponds : integerTypes.Corresponds [(⟨17⟩, .int)] ⟨9⟩ ⟨13⟩ :=
    reached.sound.corresponds_of_substitute (by decide) 2 ⟨20⟩ (by decide +kernel)
  have followed := follow matching substituted sourceKnown implements corresponds madeKnown
  rw [missed] at followed
  exact absurd followed (by decide)

end Foreach.Registry
