import Foreach.Proofs.Types.Built
import Foreach.Proofs.Types.Mapping

/-!
# Substitution and instantiation

Where a definition mentions an instantiation, an instance of the definition should mention the
instantiation at what the arguments become in the instance. A definition stands for its
instantiation at its own parameters, so inside itself it should become the instance
(`Registry.Specializes`).

Replacing parameters does not know that: it leaves the definition as it is. So substitution commutes
with instantiation at a place exactly if the definition is not mentioned there
(`Built.commutesAt_iff`).
-/
namespace Foreach

/-- A place of a type where another type stands. -/
inductive Place where
  /-- The base. -/
  | base
  /-- The interface at a position. -/
  | interface (position : Nat)
  /-- The type of a parameter of the member at a position. -/
  | parameter (member position : Nat)
  /-- The type of what the member at a position answers with. -/
  | value (member : Nat)
deriving DecidableEq

namespace Registry

/-- The entry of the member of a type at a position. -/
def memberEntryAt? (registry : Registry) (type : TypeId) (position : Nat) : Option MemberEntry :=
  (registry.membersOf type)[position]?.bind registry.member?

/-- The type that stands at a place of a type. -/
def typeAt? (registry : Registry) (type : TypeId) : Place → Option TypeId
  | .base => (registry.type? type).bind TypeEntry.base
  | .interface position => (registry.interfacesOf type)[position]?
  | .parameter member position =>
    (registry.memberEntryAt? type member).bind fun source => source.parameters[position]?
  | .value member => (registry.memberEntryAt? type member).map MemberEntry.valueType

/-- What a type that a definition mentions should become in an instance of the definition: a
parameter its argument, the definition the instance, another instance the one at what its arguments
should become, and any other type stays. -/
inductive Specializes (registry : Registry) (substitution : Substitution)
    (definition type : TypeId) : TypeId → TypeId → Prop where
  /-- A parameter becomes its argument. -/
  | argument {other argument : TypeId} (replaced : substitution.argument? other = some argument) :
    Specializes registry substitution definition type other argument
  /-- The definition at its own parameters becomes the instance. -/
  | self : Specializes registry substitution definition type definition type
  /-- Another type that is no instance stays. -/
  | whole {other : TypeId} {entry : TypeEntry} (kept : substitution.argument? other = none)
    (foreign : other ≠ definition) (known : registry.type? other = some entry)
    (uncopied : entry.definition = none) :
    Specializes registry substitution definition type other other
  /-- An instance becomes the one at what its arguments become. -/
  | made {other origin result : TypeId} {entry : TypeEntry} {arguments : List TypeId}
    (kept : substitution.argument? other = none) (known : registry.type? other = some entry)
    (copied : entry.definition = some origin)
    (same : entry.arguments.length = arguments.length)
    (each : ∀ pair ∈ entry.arguments.zip arguments,
      Specializes registry substitution definition type pair.1 pair.2)
    (found : registry.instanceAt? origin arguments = some result) :
    Specializes registry substitution definition type other result

/-- A type mentions another: it is that type, or an instance with an argument that mentions it. -/
inductive Mentions (registry : Registry) (part : TypeId) : TypeId → Prop where
  /-- A type mentions itself. -/
  | self : Mentions registry part part
  /-- An instance mentions what its arguments mention. -/
  | argument {type origin argument : TypeId} {entry : TypeEntry}
    (known : registry.type? type = some entry) (copied : entry.definition = some origin)
    (isArgument : argument ∈ entry.arguments) (mentions : Mentions registry part argument) :
    Mentions registry part type

/-- A type that is no instance mentions itself only. -/
theorem Mentions.eq_of_original {registry : Registry} {part type : TypeId} {entry : TypeEntry}
    (mentions : registry.Mentions part type) (known : registry.type? type = some entry)
    (uncopied : entry.definition = none) : type = part := by
  cases mentions with
  | self => rfl
  | argument known' copied =>
    cases known.symm.trans known'
    cases uncopied.symm.trans copied

/-- Substitution commutes with an instantiation at a place of a definition: the instance has there
what the instantiation gives at what the arguments should become. -/
def CommutesAt (registry : Registry) (type definition other : TypeId) (arguments : List TypeId)
    (place : Place) : Prop :=
  ∃ substitution others result, registry.substitution type = .ok substitution ∧
    List.Forall₂ (registry.Specializes substitution definition type) arguments others ∧
    registry.typeAt? type place = some result ∧
    ∀ depth, Registration.instantiate depth other others registry = .ok (result, registry)

/-- Substitution commutes with instantiation at every place of a definition where an instantiation
stands, for every instance of the definition. -/
def SubstitutionCommutes (registry : Registry) : Prop :=
  ∀ {type definition other found : TypeId} {arguments : List TypeId} {place : Place} {depth : Nat},
    registry.IsCopy type definition → registry.typeAt? definition place = some found →
    Registration.instantiate depth other arguments registry = .ok (found, registry) →
      registry.CommutesAt type definition other arguments place

/-- What is related to the element of a list at a place is at that place of the related list. -/
theorem exists_related_getElem? {α β : Type} {related : α → β → Prop} {left : List α}
    {right : List β} (all : List.Forall₂ related left right) {place : Nat} {first : α}
    (isFirst : left[place]? = some first) :
    ∃ second, right[place]? = some second ∧ related first second := by
  obtain ⟨bound, -⟩ := List.getElem?_eq_some_iff.mp isFirst
  rw [all.length_eq] at bound
  have isSecond := List.getElem?_eq_getElem bound
  exact ⟨_, isSecond, related_of_getElem? all isFirst isSecond⟩

/-- A member whose signature becomes that of another has its parameter types and its value type
become those of the other. -/
theorem KindBecomes.types {registry : Registry} {substitution : Substitution}
    {source made : MemberEntry}
    (becomes : registry.KindBecomes substitution source.kind made.kind) :
    List.Forall₂ (registry.Becomes substitution) source.parameters made.parameters ∧
      registry.Becomes substitution source.valueType made.valueType := by
  unfold MemberEntry.parameters MemberEntry.valueType
  generalize source.kind = kind at *
  generalize made.kind = other at *
  cases becomes with
  | method each answer => exact ⟨each, answer⟩
  | property answer => exact ⟨.nil, answer⟩

/-- What stands at a place of a definition becomes what stands there in an instance that mirrors
it. -/
theorem Mirrors.typeAt? {registry : Registry} {substitution : Substitution}
    {type definition found : TypeId} {entry whole : TypeEntry} {place : Place}
    (mirrors : registry.Mirrors substitution type whole.content entry.content)
    (known : registry.type? type = some entry) (wholeKnown : registry.type? definition = some whole)
    (atPlace : registry.typeAt? definition place = some found) :
    ∃ result, registry.typeAt? type place = some result ∧
      registry.Becomes substitution found result := by
  have memberAt {position : Nat} {source : MemberEntry}
      (isSource : registry.memberEntryAt? definition position = some source) :
      ∃ made, registry.memberEntryAt? type position = some made ∧
        registry.KindBecomes substitution source.kind made.kind := by
    rw [memberEntryAt?, membersOf, wholeKnown] at isSource
    obtain ⟨member, isMember, sourceKnown⟩ := Option.bind_eq_some_iff.mp isSource
    obtain ⟨copy, isCopy, source', made, sourceKnown', madeKnown, same⟩ :=
      exists_related_getElem? mirrors.members isMember
    cases sourceKnown.symm.trans sourceKnown'
    refine ⟨made, ?_, same.kind⟩
    rw [memberEntryAt?, membersOf, known]
    exact Option.bind_eq_some_iff.mpr ⟨copy, isCopy, madeKnown⟩
  cases place with
  | base =>
    rw [Registry.typeAt?, wholeKnown, Option.bind_some] at atPlace
    rw [Registry.typeAt?, known, Option.bind_some]
    have bases := mirrors.base
    cases given : entry.base with
    | none =>
      simp only [TypeEntry.content, given, atPlace] at bases
      cases bases
    | some base =>
      simp only [TypeEntry.content, given, atPlace, Option.rel_some_some] at bases
      exact ⟨base, rfl, bases⟩
  | interface position =>
    rw [Registry.typeAt?, interfacesOf, wholeKnown] at atPlace
    rw [Registry.typeAt?, interfacesOf, known]
    exact exists_related_getElem? mirrors.interfaces atPlace
  | parameter member position =>
    obtain ⟨source, isSource, isParameter⟩ := Option.bind_eq_some_iff.mp atPlace
    obtain ⟨made, isMade, kindBecomes⟩ := memberAt isSource
    obtain ⟨result, isResult, becomes⟩ :=
      exists_related_getElem? kindBecomes.types.1 isParameter
    exact ⟨result, Option.bind_eq_some_iff.mpr ⟨made, isMade, isResult⟩, becomes⟩
  | value member =>
    obtain ⟨source, isSource, rfl⟩ := Option.map_eq_some_iff.mp atPlace
    obtain ⟨made, isMade, kindBecomes⟩ := memberAt isSource
    exact ⟨made.valueType, Option.map_eq_some_iff.mpr ⟨made, isMade, rfl⟩, kindBecomes.types.2⟩

/-- The type at arguments is the definition at its own parameters, or an instance at them. -/
theorem WellFormed.instanceAt?_cases {registry : Registry} (formed : registry.WellFormed)
    {definition result : TypeId} {arguments : List TypeId}
    (found : registry.instanceAt? definition arguments = some result) :
    (result = definition ∧ ∃ whole, registry.type? definition = some whole ∧
      whole.parameters = arguments) ∨
      ∃ entry, registry.type? result = some entry ∧ entry.definition = some definition ∧
        entry.arguments = arguments := by
  obtain ⟨whole, wholeKnown, decided⟩ := Option.bind_eq_some_iff.mp found
  by_cases own : whole.parameters = arguments
  · rw [if_pos own] at decided
    exact .inl ⟨(Option.some.inj decided).symm, whole, wholeKnown, own⟩
  · rw [if_neg own] at decided
    exact .inr (formed.of_instance? decided)

/-- A definition is no instance of its own. -/
theorem WellFormed.not_own_instance {registry : Registry} (formed : registry.WellFormed)
    {definition : TypeId} {entry : TypeEntry} (known : registry.type? definition = some entry) :
    entry.definition ≠ some definition := by
  intro isCopy
  obtain ⟨-, whole, wholeKnown, uncopied, -⟩ := formed.copied known isCopy
  cases known.symm.trans wholeKnown
  cases isCopy.symm.trans uncopied

/-- A type is what stands at one list of arguments of a definition only. -/
theorem WellFormed.instanceAt?_injective {registry : Registry} (formed : registry.WellFormed)
    {definition result : TypeId} {arguments others : List TypeId}
    (first : registry.instanceAt? definition arguments = some result)
    (second : registry.instanceAt? definition others = some result) : arguments = others := by
  rcases formed.instanceAt?_cases first with ⟨rfl, whole, known, rfl⟩ | ⟨entry, known, isCopy, rfl⟩
  · rcases formed.instanceAt?_cases second with
      ⟨-, whole', known', rfl⟩ | ⟨entry, known', isCopy, -⟩
    · cases known.symm.trans known'
      rfl
    · exact absurd isCopy (formed.not_own_instance known')
  · rcases formed.instanceAt?_cases second with ⟨rfl, -⟩ | ⟨entry', known', -, rfl⟩
    · exact absurd isCopy (formed.not_own_instance known)
    · cases known.symm.trans known'
      rfl

/-- A type that is no generic parameter is not replaced. -/
theorem Suits.kept {registry : Registry} {substitution : Substitution}
    (suits : registry.Suits substitution) {type : TypeId} {entry : TypeEntry}
    (known : registry.type? type = some entry)
    (notParameter : entry.flags.genericParameter = false) :
    substitution.argument? type = none := by
  cases replaced : substitution.argument? type with
  | none => rfl
  | some argument =>
    obtain ⟨⟨placed, known', flagged⟩, -⟩ := suits _ (mem_of_argument? replaced)
    cases known.symm.trans known'
    cases notParameter.symm.trans flagged

/-- The parameters of one definition are not replaced by those of another. -/
theorem Closed.kept_of_foreign {registry : Registry} (closed : registry.Closed)
    {definition other parameter : TypeId} {whole entry : TypeEntry} (foreign : other ≠ definition)
    (wholeKnown : registry.type? definition = some whole)
    (known : registry.type? other = some entry) (isParameter : parameter ∈ entry.parameters)
    (arguments : List TypeId) :
    Substitution.argument? (whole.parameters.zip arguments) parameter = none := by
  cases replaced : Substitution.argument? (whole.parameters.zip arguments) parameter with
  | none => rfl
  | some argument =>
    have isListed := (List.of_mem_zip (mem_of_argument? replaced)).1
    obtain ⟨placed, placedKnown, ⟨position, kind⟩, -⟩ := closed.parameters wholeKnown isListed
    obtain ⟨placed', placedKnown', ⟨position', kind'⟩, -⟩ := closed.parameters known isParameter
    cases placedKnown.symm.trans placedKnown'
    cases kind.symm.trans kind'
    exact absurd rfl foreign

/-- A type that does not mention a definition becomes what it should in an instance, by induction on
how it becomes it. -/
theorem Becomes.specializes {registry : Registry} {substitution : Substitution}
    {definition type other result : TypeId} (becomes : registry.Becomes substitution other result)
    (foreign : ¬ registry.Mentions definition other) :
    registry.Specializes substitution definition type other result := by
  induction becomes with
  | argument replaced => exact .argument replaced
  | whole kept known uncopied =>
    refine .whole kept (fun same => foreign ?_) known uncopied
    exact same ▸ .self
  | made kept known isInstance sameLength each found ih =>
    refine .made kept known isInstance sameLength (fun pair isPair => ?_) found
    exact ih pair isPair fun mentions =>
      foreign (.argument known isInstance (List.of_mem_zip isPair).1 mentions)

/-- A type that does not mention a definition should become in an instance what it becomes, by
induction on how it should. -/
theorem Specializes.becomes {registry : Registry} {substitution : Substitution}
    {definition type other result : TypeId}
    (specializes : registry.Specializes substitution definition type other result)
    (foreign : ¬ registry.Mentions definition other) :
    registry.Becomes substitution other result := by
  induction specializes with
  | argument replaced => exact .argument replaced
  | self => exact absurd .self foreign
  | whole kept _ known uncopied => exact .whole kept known uncopied
  | made kept known isInstance sameLength each found ih =>
    refine .made kept known isInstance sameLength (fun pair isPair => ?_) found
    exact ih pair isPair fun mentions =>
      foreign (.argument known isInstance (List.of_mem_zip isPair).1 mentions)

/-- A parameter that is listed once is replaced by the argument at its place. -/
theorem argument?_of_mem_zip {parameters arguments : List TypeId} (distinct : parameters.Nodup)
    {pair : TypeId × TypeId} (isPair : pair ∈ parameters.zip arguments) :
    Substitution.argument? (parameters.zip arguments) pair.1 = some pair.2 := by
  induction parameters generalizing arguments with
  | nil => cases isPair
  | cons parameter rest ih =>
    cases arguments with
    | nil => cases isPair
    | cons argument others =>
      obtain ⟨absent, distinctRest⟩ := List.nodup_cons.mp distinct
      rw [List.zip_cons_cons] at isPair ⊢
      cases List.mem_cons.mp isPair with
      | inl isFirst =>
        have matched : decide (parameter = pair.1) = true := decide_eq_true (isFirst ▸ rfl)
        rw [Substitution.argument?, List.find?_cons, matched, isFirst]
        rfl
      | inr inRest =>
        have unmatched : decide (parameter = pair.1) = false := by
          refine decide_eq_false fun same => absent ?_
          exact same ▸ (List.of_mem_zip inRest).1
        rw [Substitution.argument?, List.find?_cons, unmatched]
        exact ih distinctRest inRest

section Instance

variable {registry : Registry} (closed : registry.Closed) {type definition : TypeId}
  {entry whole : TypeEntry} (known : registry.type? type = some entry)
  (isCopy : entry.definition = some definition)
  (wholeKnown : registry.type? definition = some whole)
include closed known isCopy wholeKnown

/-- The definition is not replaced in an instance, and is another type. -/
theorem Closed.definition_kept :
    Substitution.argument? (whole.parameters.zip entry.arguments) definition = none ∧
      whole.definition = none ∧ type ≠ definition := by
  have suits := closed.suits_zip wholeKnown fun _ isArgument => closed.arguments known isArgument
  obtain ⟨-, whole', wholeKnown', uncopied, -, -, isGeneric⟩ := closed.copied known isCopy
  cases wholeKnown.symm.trans wholeKnown'
  refine ⟨suits.kept wholeKnown (closed.not_parameter_of_generic wholeKnown isGeneric), uncopied,
    ?_⟩
  rintro rfl
  exact closed.not_own_instance known isCopy

omit isCopy in
/-- An instance is not replaced. -/
theorem Closed.instance_kept {other origin : TypeId} {otherEntry : TypeEntry}
    (otherKnown : registry.type? other = some otherEntry)
    (otherCopy : otherEntry.definition = some origin) :
    Substitution.argument? (whole.parameters.zip entry.arguments) other = none := by
  have suits := closed.suits_zip wholeKnown fun _ isArgument => closed.arguments known isArgument
  refine suits.kept otherKnown ?_
  cases flagged : otherEntry.flags.genericParameter with
  | false => rfl
  | true => cases otherCopy.symm.trans (closed.placeholders otherKnown flagged).2

/-- What the parameters of the definition should become in an instance are the arguments. -/
theorem Closed.eq_arguments_of_specializes {others : List TypeId}
    (each : List.Forall₂
      (registry.Specializes (whole.parameters.zip entry.arguments) definition type)
      whole.parameters others) : others = entry.arguments := by
  obtain ⟨definitionKept, -⟩ := closed.definition_kept known isCopy wholeKnown
  obtain ⟨-, whole', wholeKnown', -, arity, -⟩ := closed.copied known isCopy
  cases wholeKnown.symm.trans wholeKnown'
  refine List.ext_getElem (each.length_eq.symm.trans arity) fun place bound bound' => ?_
  have inParameters : place < whole.parameters.length := Nat.lt_of_lt_of_eq bound' arity.symm
  have specializes := each.get inParameters bound
  have replaced :=
    argument?_of_mem_zip (closed.distinct wholeKnown) (getElem_mem_zip inParameters bound')
  simp only [List.get_eq_getElem] at specializes
  generalize whole.parameters[place] = parameter at specializes replaced
  cases specializes with
  | argument replaced' => exact Option.some.inj (replaced'.symm.trans replaced)
  | self => cases definitionKept.symm.trans replaced
  | whole kept | made kept => cases kept.symm.trans replaced

/-- A type that mentions the definition becomes something else than it should in the instance, by
induction on where the definition is mentioned. -/
theorem Closed.not_specializes {other result : TypeId}
    (mentions : registry.Mentions definition other)
    (becomes : registry.Becomes (whole.parameters.zip entry.arguments) other result) :
    ¬ registry.Specializes (whole.parameters.zip entry.arguments) definition type other result := by
  obtain ⟨definitionKept, uncopied, differs⟩ := closed.definition_kept known isCopy wholeKnown
  induction mentions generalizing result with
  | self =>
    -- The definition stays, but should become the instance.
    intro specializes
    cases becomes with
    | argument replaced => cases definitionKept.symm.trans replaced
    | made _ known' isInstance =>
      cases wholeKnown.symm.trans known'
      cases uncopied.symm.trans isInstance
    | whole =>
      cases specializes with
      | argument replaced => cases definitionKept.symm.trans replaced
      | self => exact differs rfl
      | whole _ foreign => exact foreign rfl
      | made _ known' isInstance =>
        cases wholeKnown.symm.trans known'
        cases uncopied.symm.trans isInstance
  | @argument other origin argument otherEntry otherKnown otherCopy isArgument mentions ih =>
    intro specializes
    have otherKept := closed.instance_kept known wholeKnown otherKnown otherCopy
    cases becomes with
    | argument replaced => cases otherKept.symm.trans replaced
    | whole _ known' uncopied' =>
      cases otherKnown.symm.trans known'
      cases otherCopy.symm.trans uncopied'
    | @made _ _ _ _ arguments _ known' isInstance sameLength each found =>
      cases otherKnown.symm.trans known'
      cases otherCopy.symm.trans isInstance
      cases specializes with
      | argument replaced => cases otherKept.symm.trans replaced
      | self =>
        cases wholeKnown.symm.trans otherKnown
        cases uncopied.symm.trans otherCopy
      | whole _ _ known'' uncopied' =>
        cases otherKnown.symm.trans known''
        cases otherCopy.symm.trans uncopied'
      | @made _ _ _ _ arguments' _ known'' isInstance' sameLength' each' found' =>
        cases otherKnown.symm.trans known''
        cases otherCopy.symm.trans isInstance'
        -- Both stand at the same arguments, but one argument became something else.
        obtain rfl := closed.instanceAt?_injective found found'
        obtain ⟨place, bound, rfl⟩ := List.mem_iff_getElem.mp isArgument
        have isPair := getElem_mem_zip bound (sameLength ▸ bound : place < arguments.length)
        exact ih (each _ isPair) (each' _ isPair)

/-- What an instantiation should become in an instance is the instantiation at what the arguments
should become. -/
theorem Closed.specializes_of_instanceAt? {other found result : TypeId}
    {arguments others : List TypeId} (foreign : found = other → other = definition)
    (foundAt : registry.instanceAt? other arguments = some found)
    (each : List.Forall₂
      (registry.Specializes (whole.parameters.zip entry.arguments) definition type)
      arguments others)
    (resultAt : registry.instanceAt? other others = some result) :
    registry.Specializes (whole.parameters.zip entry.arguments) definition type found result := by
  rcases closed.instanceAt?_cases foundAt with
    ⟨isOther, other', otherKnown, rfl⟩ | ⟨foundEntry, foundKnown, foundCopy, rfl⟩
  · obtain rfl := foreign isOther
    cases wholeKnown.symm.trans otherKnown
    rw [closed.eq_arguments_of_specializes known isCopy wholeKnown each] at resultAt
    cases (Registration.instanceAt?_of_instance closed.toWellFormed known isCopy).symm.trans
      resultAt
    exact isOther ▸ .self
  · have pairs := List.forall₂_iff_zip.mp each
    exact .made (closed.instance_kept known wholeKnown foundKnown foundCopy) foundKnown
      foundCopy pairs.1 (fun pair isPair => pairs.2 isPair) resultAt

/-- A parameter of another definition stays. -/
theorem Closed.specializes_parameter {other parameter : TypeId} {generic : TypeEntry}
    (differs : other ≠ definition) (genericKnown : registry.type? other = some generic)
    (isParameter : parameter ∈ generic.parameters) :
    registry.Specializes (whole.parameters.zip entry.arguments) definition type parameter
      parameter := by
  obtain ⟨placed, placedKnown, placedIs⟩ := closed.parameters genericKnown isParameter
  refine .whole (closed.kept_of_foreign differs wholeKnown genericKnown isParameter _) ?_
    placedKnown (closed.placeholders placedKnown placedIs.flags).2
  -- The definition is no parameter, of whatever definition.
  rintro rfl
  obtain ⟨-, whole', wholeKnown', -, -, -, wholeGeneric⟩ := closed.copied known isCopy
  have notParameter := closed.not_parameter_of_generic wholeKnown' wholeGeneric
  cases placedKnown.symm.trans wholeKnown'
  cases notParameter.symm.trans placedIs.flags

/-- What an instantiation that does not mention the definition becomes in an instance is the
instantiation at what the arguments should become. -/
theorem Closed.exists_specializes {other found result : TypeId} {arguments : List TypeId}
    {generic : TypeEntry} (genericKnown : registry.type? other = some generic)
    (isGeneric : generic.flags.genericDefinition = true)
    (foreign : ¬ registry.Mentions definition found)
    (foundAt : registry.instanceAt? other arguments = some found)
    (becomes : registry.Becomes (whole.parameters.zip entry.arguments) found result) :
    ∃ others, List.Forall₂
      (registry.Specializes (whole.parameters.zip entry.arguments) definition type)
      arguments others ∧
        registry.instanceAt? other others = some result := by
  rcases closed.instanceAt?_cases foundAt with
    ⟨rfl, whole', genericKnown', rfl⟩ | ⟨foundEntry, foundKnown, foundCopy, rfl⟩
  · -- A definition at its own parameters stays, and so do they.
    cases genericKnown.symm.trans genericKnown'
    have suits := closed.suits_zip wholeKnown fun _ isArgument => closed.arguments known isArgument
    have differs : found ≠ definition := by
      rintro rfl
      exact foreign .self
    have uncopied := closed.generic genericKnown isGeneric
    have stays : result = found := by
      have kept := suits.kept genericKnown (closed.not_parameter_of_generic genericKnown isGeneric)
      exact becomes.unique (.whole kept genericKnown uncopied)
    exact ⟨generic.parameters, List.forall₂_same.mpr fun _ isParameter =>
      closed.specializes_parameter known isCopy wholeKnown differs genericKnown isParameter,
      stays ▸ foundAt⟩
  · cases becomes with
    | argument replaced =>
      cases (closed.instance_kept known wholeKnown foundKnown foundCopy).symm.trans replaced
    | whole _ known' uncopied =>
      cases foundKnown.symm.trans known'
      cases foundCopy.symm.trans uncopied
    | @made _ _ _ _ others _ known' isInstance sameLength each resultAt =>
      cases foundKnown.symm.trans known'
      cases foundCopy.symm.trans isInstance
      refine ⟨others, List.forall₂_iff_zip.mpr ⟨sameLength, fun {argument other} isPair => ?_⟩,
        resultAt⟩
      exact (each _ isPair).specializes fun mentions =>
        foreign (.argument foundKnown foundCopy (List.of_mem_zip isPair).1 mentions)

end Instance

section Built

variable {registry : Registry} (built : Built TypeEntry.IsOriginal registry)
  {type definition other found : TypeId} {arguments : List TypeId} {place : Place} {depth : Nat}
  (isCopy : registry.IsCopy type definition)
  (atPlace : registry.typeAt? definition place = some found)
  (made : Registration.instantiate depth other arguments registry = .ok (found, registry))
include built isCopy atPlace made

/-- Where the definition is mentioned, substitution does not commute with instantiation. -/
theorem Built.not_commutesAt (mentions : registry.Mentions definition found) :
    ¬ registry.CommutesAt type definition other arguments place := by
  have closed := built.complete.toClosed
  have sound := built.reached.sound
  have instantiated {depth : Nat} {types : List TypeId} {result : TypeId}
      (ran : Registration.instantiate depth other types registry = .ok (result, registry)) :
      registry.instanceAt? other types = some result :=
    (Registration.instantiateWith_sound (Registration.substitute_replaces depth) sound ran).2.2
  obtain ⟨entry, known, isDefinition⟩ := isCopy
  obtain ⟨-, whole, wholeKnown, -⟩ := closed.copied known isDefinition
  rintro ⟨substitution, others, result, answer, each, atInstance, remade⟩
  cases answer.symm.trans (substitution_of_instance known isDefinition wholeKnown)
  obtain ⟨result', atInstance', becomes⟩ :=
    (sound.mirrors known isDefinition wholeKnown).typeAt? known wholeKnown atPlace
  cases atInstance.symm.trans atInstance'
  have foreign : found = other → other = definition := by
    rintro rfl
    obtain ⟨generic, genericKnown, isGeneric, -⟩ := Registration.instantiateWith_cases made
    exact mentions.eq_of_original genericKnown (closed.generic genericKnown isGeneric)
  have specializes := closed.specializes_of_instanceAt? known isDefinition wholeKnown foreign
    (instantiated made) each (instantiated (remade 0))
  exact closed.not_specializes known isDefinition wholeKnown mentions becomes specializes

/-- In a registry in which nothing is added to instances directly, substitution commutes with an
instantiation at a place of a definition exactly if the instantiation does not mention the
definition. -/
theorem Built.commutesAt_iff :
    registry.CommutesAt type definition other arguments place ↔
      ¬ registry.Mentions definition found := by
  refine ⟨fun commutes mentions =>
    built.not_commutesAt isCopy atPlace made mentions commutes, fun foreign => ?_⟩
  have closed := built.complete.toClosed
  have sound := built.reached.sound
  obtain ⟨entry, known, isDefinition⟩ := isCopy
  obtain ⟨-, whole, wholeKnown, -⟩ := closed.copied known isDefinition
  obtain ⟨result, atInstance, becomes⟩ :=
    (sound.mirrors known isDefinition wholeKnown).typeAt? known wholeKnown atPlace
  obtain ⟨generic, genericKnown, isGeneric, arity, -⟩ := Registration.instantiateWith_cases made
  have foundAt : registry.instanceAt? other arguments = some found :=
    (Registration.instantiateWith_sound (Registration.substitute_replaces depth) sound made).2.2
  obtain ⟨others, each, resultAt⟩ := closed.exists_specializes known isDefinition wholeKnown
    genericKnown isGeneric foreign foundAt becomes
  refine ⟨_, others, result, substitution_of_instance known isDefinition wholeKnown, each,
    atInstance, fun depth => ?_⟩
  exact Registration.instantiateWith_of_instanceAt? genericKnown isGeneric
    (arity.trans each.length_eq) resultAt

end Built

/-- A class of one parameter. -/
def nodeClass : Registry :=
  initial.after (Registration.declare { name := "Node", sort := .classType, parameters := ["T"] })

/-- The class has a property of its own type, and is instantiated at integers. -/
def nodeTypes : Registry :=
  nodeClass
    |>.after (Registration.addDeclaredMember 1 ⟨14⟩ (.property "Next" ⟨14⟩))
    |>.after (Registration.instantiate 1 ⟨14⟩ [.int])

/-- The class and its instance are registered without a stop. -/
theorem nodeTypes_built : Built TypeEntry.IsOriginal nodeTypes := by
  have start : Built TypeEntry.IsOriginal .initial := .initial
  have declared : Built TypeEntry.IsOriginal nodeClass := start.declare _ rfl
  have withNext := declared.addMember ⟨14⟩ (.property "Next" ⟨14⟩)
    (by decide) (by decide) (by decide)
  exact withNext.instantiate 1 ⟨14⟩ [.int] (by decide)

/-- The property of the instance at integers is of the class at its own parameter, and not of the
instance. -/
theorem nodeTypes_not_commutes :
    Built TypeEntry.IsOriginal nodeTypes ∧ ¬ nodeTypes.SubstitutionCommutes := by
  refine ⟨nodeTypes_built, fun commutes => ?_⟩
  obtain ⟨entry, known, isCopy⟩ : ∃ entry ∈ nodeTypes.type? ⟨16⟩,
      entry.definition = some ⟨14⟩ := by
    decide
  have atPlace : nodeTypes.typeAt? ⟨14⟩ (.value 0) = some ⟨14⟩ := by decide
  have made : Registration.instantiate 0 ⟨14⟩ [⟨15⟩] nodeTypes = .ok (⟨14⟩, nodeTypes) := by
    decide
  have isInstance : nodeTypes.IsCopy ⟨16⟩ ⟨14⟩ := ⟨entry, known, isCopy⟩
  exact nodeTypes_built.not_commutesAt isInstance atPlace made .self
    (commutes isInstance atPlace made)

/-- The enumerable contract, instantiated at integers. -/
def enumerableOfInt : Registry :=
  initial.after (Registration.instantiate 2 .genericEnumerable [.int])

/-- The contract is instantiated without a stop. -/
theorem enumerableOfInt_built : Built TypeEntry.IsOriginal enumerableOfInt :=
  Built.initial.instantiate 2 .genericEnumerable [.int] (by decide)

/-- The enumerable contract mentions the enumerator contract at its own parameter, which does not
mention the enumerable contract. So at integers it mentions the enumerator contract at integers. -/
theorem enumerableOfInt_commutesAt :
    enumerableOfInt.CommutesAt ⟨14⟩ .genericEnumerable .genericEnumerator [⟨12⟩] (.value 0) := by
  obtain ⟨entry, known, isDefinition⟩ : ∃ entry ∈ enumerableOfInt.type? ⟨14⟩,
      entry.definition = some .genericEnumerable := by
    decide
  have made : Registration.instantiate 0 .genericEnumerator [⟨12⟩] enumerableOfInt =
      .ok (⟨13⟩, enumerableOfInt) := by
    decide
  refine (enumerableOfInt_built.commutesAt_iff ⟨entry, known, isDefinition⟩ (by decide)
    made).mpr fun mentions => ?_
  obtain ⟨parameter, parameterKnown, uncopied⟩ : ∃ parameter ∈ enumerableOfInt.type? ⟨12⟩,
      parameter.definition = none := by
    decide
  obtain ⟨typed, typedKnown, arguments⟩ : ∃ typed ∈ enumerableOfInt.type? ⟨13⟩,
      typed.arguments = [⟨12⟩] := by
    decide
  generalize isContract : TypeId.genericEnumerable = contract at mentions
  cases mentions with
  | self => cases isContract
  | argument known' _ isArgument mentions' =>
    cases typedKnown.symm.trans known'
    rw [arguments] at isArgument
    rw [List.mem_singleton.mp isArgument] at mentions'
    cases isContract.trans (mentions'.eq_of_original parameterKnown uncopied).symm

end Registry

end Foreach
