import Foreach.Proofs.Types.WellFormed

/-!
# Registries that are closed

Whatever an entry refers to is registered, listed interfaces are contracts, the parameters of a
definition are entries that say so, and an instance has the flags of its definition. A registry of
this kind is closed (`Registry.Closed`).

An entry is never taken back. It may get another base, further interfaces and further members, and
all else stays (`TypeEntry.Continues`), so what was said of it before is still true in a registry
that keeps it (`Registry.Keeps`).
-/
namespace Foreach

/-- The types of a signature. -/
def MemberKind.types : MemberKind → List TypeId
  | .method parameters returns => parameters ++ [returns]
  | .property type => [type]

/-- The types of a member's signature are those of its parameters and of what it answers with. -/
theorem MemberEntry.types_eq (source : MemberEntry) :
    source.kind.types = source.parameters ++ [source.valueType] := by
  unfold MemberEntry.parameters MemberEntry.valueType
  cases source.kind <;> rfl

/-- An entry is that of a generic parameter of a definition. -/
structure TypeEntry.IsParameterOf (entry : TypeEntry) (owner : TypeId) : Prop where
  /-- The entry says whose parameter it is. -/
  kind : ∃ position, entry.kind = .parameter owner position
  /-- It is flagged as a parameter. -/
  flags : entry.flags.genericParameter = true

/-- An entry is another with a base of its own, more interfaces or more members. -/
def TypeEntry.Continues (later earlier : TypeEntry) : Prop :=
  ∃ base interfaces members, later = { earlier with
    base := base
    interfaces := earlier.interfaces ++ interfaces
    members := earlier.members ++ members }

namespace TypeEntry.Continues

variable {later earlier : TypeEntry}

/-- An entry continues itself. -/
theorem refl (entry : TypeEntry) : entry.Continues entry := ⟨entry.base, [], [], by simp⟩

/-- What continues a continued entry continues the entry. -/
theorem trans {first second third : TypeEntry} (further : third.Continues second)
    (continued : second.Continues first) : third.Continues first := by
  obtain ⟨_, interfaces, members, rfl⟩ := continued
  obtain ⟨base, interfaces', members', rfl⟩ := further
  exact ⟨base, interfaces ++ interfaces', members ++ members', by simp⟩

/-- With a base, an entry continues what it was. -/
theorem withBase (entry : TypeEntry) (base : TypeId) :
    Continues { entry with base := some base } entry :=
  ⟨some base, [], [], by simp⟩

/-- With one more interface, an entry continues what it was. -/
theorem withInterface (entry : TypeEntry) (interface : TypeId) :
    Continues { entry with interfaces := entry.interfaces ++ [interface] } entry :=
  ⟨entry.base, [interface], [], by simp⟩

/-- With one more member, an entry continues what it was. -/
theorem withMember (entry : TypeEntry) (member : MemberId) :
    Continues { entry with members := entry.members ++ [member] } entry :=
  ⟨entry.base, [], [member], by simp⟩

variable (continued : later.Continues earlier)
include continued

/-- The name stays. -/
theorem name : later.name = earlier.name := by
  obtain ⟨_, _, _, rfl⟩ := continued
  rfl

/-- The kind stays. -/
theorem kind : later.kind = earlier.kind := by
  obtain ⟨_, _, _, rfl⟩ := continued
  rfl

/-- The flags stay. -/
theorem flags : later.flags = earlier.flags := by
  obtain ⟨_, _, _, rfl⟩ := continued
  rfl

/-- The parameters stay. -/
theorem parameters : later.parameters = earlier.parameters := by
  obtain ⟨_, _, _, rfl⟩ := continued
  rfl

/-- The definition stays. -/
theorem definition : later.definition = earlier.definition := by
  obtain ⟨_, _, _, rfl⟩ := continued
  rfl

/-- The arguments stay. -/
theorem arguments : later.arguments = earlier.arguments := by
  obtain ⟨_, _, _, rfl⟩ := continued
  rfl

/-- The type around stays. -/
theorem outer : later.outer = earlier.outer := by
  obtain ⟨_, _, _, rfl⟩ := continued
  rfl

/-- The interfaces stay listed. -/
theorem interfaces : earlier.interfaces ⊆ later.interfaces := by
  obtain ⟨_, _, _, rfl⟩ := continued
  exact List.subset_append_left _ _

/-- The members stay listed. -/
theorem members : earlier.members ⊆ later.members := by
  obtain ⟨_, _, _, rfl⟩ := continued
  exact List.subset_append_left _ _

/-- The parameter of a definition stays one. -/
theorem isParameterOf {owner : TypeId} (isParameter : earlier.IsParameterOf owner) :
    later.IsParameterOf owner :=
  ⟨continued.kind ▸ isParameter.kind, continued.flags ▸ isParameter.flags⟩

end TypeEntry.Continues

namespace Registry

/-- A type is registered. -/
def Has (registry : Registry) (type : TypeId) : Prop := type.index < registry.size

/-- A member is registered. -/
def HasMember (registry : Registry) (member : MemberId) : Prop :=
  member.index < registry.members.size

/-- Whether a type is registered can be decided. -/
instance (registry : Registry) (type : TypeId) : Decidable (registry.Has type) :=
  inferInstanceAs (Decidable (_ < _))

/-- Whether a member is registered can be decided. -/
instance (registry : Registry) (member : MemberId) : Decidable (registry.HasMember member) :=
  inferInstanceAs (Decidable (_ < _))

/-- A type is a registered contract. -/
def IsContract (registry : Registry) (type : TypeId) : Prop :=
  ∃ entry, registry.type? type = some entry ∧ entry.flags.isInterface = true

/-- A type is registered if it has an entry. -/
theorem has_iff {registry : Registry} {type : TypeId} :
    registry.Has type ↔ ∃ entry, registry.type? type = some entry :=
  ⟨fun bound => ⟨_, Array.getElem?_eq_getElem bound⟩,
    fun ⟨_, known⟩ => index_lt_of_type? known⟩

/-- A member is registered if it has an entry. -/
theorem hasMember_iff {registry : Registry} {member : MemberId} :
    registry.HasMember member ↔ ∃ source, registry.member? member = some source :=
  ⟨fun bound => ⟨_, Array.getElem?_eq_getElem bound⟩,
    fun ⟨_, known⟩ => index_lt_of_member? known⟩

/-- The instance at arguments says what it is an instance of. -/
theorem WellFormed.of_instance? {registry : Registry} (formed : registry.WellFormed)
    {definition result : TypeId} {arguments : List TypeId}
    (found : registry.instance? definition arguments = some result) :
    ∃ entry, registry.type? result = some entry ∧ entry.definition = some definition ∧
      entry.arguments = arguments := by
  obtain ⟨made, first, rfl⟩ := Option.map_eq_some_iff.mp found
  have holds := List.find?_some first
  rw [Bool.and_eq_true, decide_eq_true_eq, decide_eq_true_eq] at holds
  obtain ⟨entry, known, isCopy, same⟩ := formed.recorded (List.mem_of_find?_eq_some first)
  exact ⟨entry, known, holds.1 ▸ isCopy, same.trans holds.2⟩

/-- Well-formed tables whose entries only refer to what is registered. -/
structure Closed (registry : Registry) : Prop extends WellFormed registry where
  /-- Bases are registered. -/
  bases : ∀ {type entry base}, registry.type? type = some entry → entry.base = some base →
    registry.Has base
  /-- Listed interfaces are registered contracts. -/
  interfaces : ∀ {type entry interface}, registry.type? type = some entry →
    interface ∈ entry.interfaces → registry.IsContract interface
  /-- The parameters of a definition are registered as its parameters. -/
  parameters : ∀ {type entry parameter}, registry.type? type = some entry →
    parameter ∈ entry.parameters →
      ∃ placed, registry.type? parameter = some placed ∧ placed.IsParameterOf type
  /-- A definition has each of its parameters once. -/
  distinct : ∀ {type entry}, registry.type? type = some entry → entry.parameters.Nodup
  /-- Arguments are registered before the instances at them. -/
  older : ∀ {type entry argument}, registry.type? type = some entry →
    argument ∈ entry.arguments → argument.index < type.index
  /-- The types around others are registered before them. -/
  outers : ∀ {type entry outer}, registry.type? type = some entry → entry.outer = some outer →
    outer.index < type.index
  /-- The types of signatures are registered. -/
  signatures : ∀ {member source type}, registry.member? member = some source →
    type ∈ source.kind.types → registry.Has type
  /-- Implemented members are registered. -/
  implemented : ∀ {member source contract}, registry.member? member = some source →
    source.implements = some contract → registry.HasMember contract
  /-- A generic parameter is nothing else: no contract, no definition and no instance. -/
  placeholders : ∀ {type entry}, registry.type? type = some entry →
    entry.flags.genericParameter = true →
      entry.flags = { genericParameter := true } ∧ entry.definition = none
  /-- A generic parameter is inside of no type and has no arguments. -/
  leaves : ∀ {type entry}, registry.type? type = some entry →
    entry.flags.genericParameter = true → entry.outer = none ∧ entry.arguments = []
  /-- An instance has the flags of its definition, except that it is an instance. -/
  flags : ∀ {type entry definition whole}, registry.type? type = some entry →
    entry.definition = some definition → registry.type? definition = some whole →
      entry.flags = whole.flags.forInstance

/-- Arguments are registered. -/
theorem Closed.arguments {registry : Registry} (closed : registry.Closed) {type argument : TypeId}
    {entry : TypeEntry} (known : registry.type? type = some entry)
    (isArgument : argument ∈ entry.arguments) : registry.Has argument :=
  Nat.lt_trans (closed.older known isArgument) (index_lt_of_type? known)

/-- What has a flag that a generic parameter does not have is no generic parameter. -/
theorem Closed.not_parameter_of_flag {registry : Registry} (closed : registry.Closed)
    {type : TypeId} {entry : TypeEntry} (known : registry.type? type = some entry)
    (flag : TypeFlags → Bool) (lacks : flag { genericParameter := true } = false)
    (flagged : flag entry.flags = true) : entry.flags.genericParameter = false := by
  cases isParameter : entry.flags.genericParameter with
  | false => rfl
  | true =>
    rw [(closed.placeholders known isParameter).1, lacks] at flagged
    cases flagged

/-- A contract is no generic parameter. -/
theorem Closed.not_parameter {registry : Registry} (closed : registry.Closed) {type : TypeId}
    {entry : TypeEntry} (known : registry.type? type = some entry)
    (isInterface : entry.flags.isInterface = true) : entry.flags.genericParameter = false :=
  closed.not_parameter_of_flag known TypeFlags.isInterface rfl isInterface

/-- A generic definition is no generic parameter. -/
theorem Closed.not_parameter_of_generic {registry : Registry} (closed : registry.Closed)
    {type : TypeId} {entry : TypeEntry} (known : registry.type? type = some entry)
    (isGeneric : entry.flags.genericDefinition = true) : entry.flags.genericParameter = false :=
  closed.not_parameter_of_flag known TypeFlags.genericDefinition rfl isGeneric

/-- A listed member is registered. -/
theorem Closed.listed_has {registry : Registry} (closed : registry.Closed) {type : TypeId}
    {entry : TypeEntry} {member : MemberId} (known : registry.type? type = some entry)
    (isListed : member ∈ entry.members) : registry.HasMember member := by
  obtain ⟨source, sourceKnown, -⟩ := closed.owned known isListed
  exact hasMember_iff.mpr ⟨source, sourceKnown⟩

/-- The type of what a registered member answers with is registered. -/
theorem Closed.valueType_has {registry : Registry} (closed : registry.Closed) {member : MemberId}
    {source : MemberEntry} (known : registry.member? member = some source) :
    registry.Has source.valueType := by
  refine closed.signatures known ?_
  rw [source.types_eq]
  exact List.mem_append_right _ (List.mem_singleton.mpr rfl)

/-- One registry is another that has grown, with each of its entries continued. -/
structure Keeps (later earlier : Registry) : Prop extends Grows later earlier where
  /-- Entries are continued. -/
  entries : ∀ {type entry}, earlier.type? type = some entry →
    ∃ changed, later.type? type = some changed ∧ changed.Continues entry

/-- A registry keeps its own entries. -/
theorem Keeps.refl (registry : Registry) : registry.Keeps registry :=
  ⟨.refl registry, fun known => ⟨_, known, .refl _⟩⟩

/-- What keeps the entries of a registry that keeps others keeps those. -/
theorem Keeps.trans {first second third : Registry} (further : third.Keeps second)
    (kept : second.Keeps first) : third.Keeps first := by
  refine ⟨further.toGrows.trans kept.toGrows, fun known => ?_⟩
  obtain ⟨changed, reached, continued⟩ := kept.entries known
  obtain ⟨last, final, continued'⟩ := further.entries reached
  exact ⟨last, final, continued'.trans continued⟩

section Kept

variable {later earlier : Registry} (kept : later.Keeps earlier)
include kept

/-- A registered type stays registered. -/
theorem Keeps.has {type : TypeId} (known : earlier.Has type) : later.Has type := by
  obtain ⟨entry, found⟩ := has_iff.mp known
  obtain ⟨changed, reached, -⟩ := kept.entries found
  exact has_iff.mpr ⟨changed, reached⟩

/-- A registered member stays registered. -/
theorem Keeps.hasMember {member : MemberId} (known : earlier.HasMember member) :
    later.HasMember member := Nat.lt_of_lt_of_le known kept.count

/-- A contract stays a contract. -/
theorem Keeps.isContract {type : TypeId} (known : earlier.IsContract type) :
    later.IsContract type := by
  obtain ⟨entry, found, isInterface⟩ := known
  obtain ⟨changed, reached, continued⟩ := kept.entries found
  exact ⟨changed, reached, continued.flags ▸ isInterface⟩

/-- What was registered as a parameter of a definition stays so. -/
theorem Keeps.isParameterOf {parameter owner : TypeId}
    (known : ∃ placed, earlier.type? parameter = some placed ∧ placed.IsParameterOf owner) :
    ∃ placed, later.type? parameter = some placed ∧ placed.IsParameterOf owner := by
  obtain ⟨placed, found, isParameter⟩ := known
  obtain ⟨changed, reached, continued⟩ := kept.entries found
  exact ⟨changed, reached, continued.isParameterOf isParameter⟩

end Kept

namespace Amends

variable {later earlier : Registry} {type : TypeId} {entry changed : TypeEntry}
  {added : Option MemberEntry} (amends : later.Amends earlier type entry changed added)
  (continued : changed.Continues entry)
include amends continued

/-- A registry that amends another keeps its entries. -/
theorem keeps : later.Keeps earlier := by
  refine ⟨amends.grows, fun {other former} known => ?_⟩
  by_cases same : other = type
  · subst same
    have isEntry : former = entry := Option.some.inj (known.symm.trans amends.before)
    exact ⟨changed, amends.after, isEntry ▸ continued⟩
  · exact ⟨former, (amends.others same).trans known, .refl former⟩

/-- An entry of an amended registry continues one that was there. -/
theorem continues {other : TypeId} {found : TypeEntry} (known : later.type? other = some found) :
    ∃ former, earlier.type? other = some former ∧ found.Continues former := by
  by_cases same : other = type
  · subst same
    have isChanged : found = changed := Option.some.inj (known.symm.trans amends.after)
    exact ⟨entry, amends.before, isChanged ▸ continued⟩
  · exact ⟨found, (amends.others same).symm.trans known, .refl found⟩

/-- Amending keeps a registry closed if the new base, interfaces and member only refer to what is
registered. -/
theorem closed (closed : earlier.Closed) (base : ∀ base ∈ changed.base, earlier.Has base)
    (interfaces : ∀ interface ∈ changed.interfaces, earlier.IsContract interface)
    (types : ∀ source ∈ added, ∀ other ∈ source.kind.types, earlier.Has other)
    (implemented : ∀ source ∈ added, ∀ contract ∈ source.implements,
      earlier.HasMember contract) : later.Closed where
  toWellFormed := amends.wellFormed closed.toWellFormed
  bases {other found base'} known isBase := by
    have kept := amends.keeps continued
    by_cases same : other = type
    · subst same
      have isChanged : found = changed := Option.some.inj (known.symm.trans amends.after)
      exact kept.has (base base' (isChanged ▸ isBase))
    · exact kept.has (closed.bases ((amends.others same).symm.trans known) isBase)
  interfaces {other found interface} known isListed := by
    have kept := amends.keeps continued
    by_cases same : other = type
    · subst same
      have isChanged : found = changed := Option.some.inj (known.symm.trans amends.after)
      exact kept.isContract (interfaces interface (isChanged ▸ isListed))
    · exact kept.isContract (closed.interfaces ((amends.others same).symm.trans known) isListed)
  parameters {other found parameter} known isListed := by
    obtain ⟨former, knownBefore, continued'⟩ := amends.continues continued known
    have listedBefore : parameter ∈ former.parameters := continued'.parameters ▸ isListed
    exact (amends.keeps continued).isParameterOf (closed.parameters knownBefore listedBefore)
  distinct {other found} known := by
    obtain ⟨former, knownBefore, continued'⟩ := amends.continues continued known
    exact continued'.parameters ▸ closed.distinct knownBefore
  older {other found argument} known isListed := by
    obtain ⟨former, knownBefore, continued'⟩ := amends.continues continued known
    have listedBefore : argument ∈ former.arguments := continued'.arguments ▸ isListed
    exact closed.older knownBefore listedBefore
  outers {other found outer} known isOuter := by
    obtain ⟨former, knownBefore, continued'⟩ := amends.continues continued known
    exact closed.outers knownBefore (continued'.outer ▸ isOuter)
  signatures {member source other} known isType := by
    have kept := amends.keeps continued
    cases amends.member?_eq_some known with
    | inl knownBefore => exact kept.has (closed.signatures knownBefore isType)
    | inr isNew => exact kept.has (types source isNew.1 other isType)
  implemented {member source contract} known implements := by
    have kept := amends.keeps continued
    cases amends.member?_eq_some known with
    | inl knownBefore => exact kept.hasMember (closed.implemented knownBefore implements)
    | inr isNew => exact kept.hasMember (implemented source isNew.1 contract implements)
  placeholders {other found} known flagged := by
    obtain ⟨former, knownBefore, continued'⟩ := amends.continues continued known
    rw [continued'.flags] at flagged ⊢
    rw [continued'.definition]
    exact closed.placeholders knownBefore flagged
  leaves {other found} known flagged := by
    obtain ⟨former, knownBefore, continued'⟩ := amends.continues continued known
    rw [continued'.flags] at flagged
    rw [continued'.outer, continued'.arguments]
    exact closed.leaves knownBefore flagged
  flags {other found definition whole} known isCopy wholeKnown := by
    obtain ⟨former, knownBefore, continued'⟩ := amends.continues continued known
    obtain ⟨wholeFormer, wholeBefore, wholeContinued⟩ := amends.continues continued wholeKnown
    rw [continued'.definition] at isCopy
    rw [continued'.flags, wholeContinued.flags]
    exact closed.flags knownBefore isCopy wholeBefore

end Amends

section NewInstance

variable {registry : Registry} {definition : TypeId} {arguments : List TypeId} {entry : TypeEntry}

/-- A new instance leaves all entries. -/
theorem withInstance_keeps : (registry.withInstance definition arguments entry).Keeps registry :=
  ⟨(withInstance_extends registry definition arguments entry).toGrows,
    fun known => ⟨_, type?_withInstance_of_some _ _ _ _ known, .refl _⟩⟩

/-- A new instance at registered arguments keeps a registry closed. -/
theorem Closed.withInstance (closed : registry.Closed)
    (known : registry.type? definition = some entry)
    (isGeneric : entry.flags.genericDefinition = true)
    (arity : entry.parameters.length = arguments.length) (proper : entry.parameters ≠ arguments)
    (absent : registry.instance? definition arguments = none)
    (registered : ∀ argument ∈ arguments, registry.Has argument) :
    (registry.withInstance definition arguments entry).Closed where
  toWellFormed := closed.toWellFormed.withInstance known isGeneric arity proper absent
  bases {type found base} isKnown isBase := by
    cases type?_withInstance_cases _ _ _ _ isKnown with
    | inl isNew =>
      obtain ⟨rfl, rfl⟩ := isNew
      cases isBase
    | inr before => exact withInstance_keeps.has (closed.bases before isBase)
  interfaces {type found interface} isKnown isListed := by
    cases type?_withInstance_cases _ _ _ _ isKnown with
    | inl isNew =>
      obtain ⟨rfl, rfl⟩ := isNew
      cases isListed
    | inr before => exact withInstance_keeps.isContract (closed.interfaces before isListed)
  parameters {type found parameter} isKnown isListed := by
    cases type?_withInstance_cases _ _ _ _ isKnown with
    | inl isNew =>
      obtain ⟨rfl, rfl⟩ := isNew
      cases isListed
    | inr before => exact withInstance_keeps.isParameterOf (closed.parameters before isListed)
  distinct {type found} isKnown := by
    cases type?_withInstance_cases _ _ _ _ isKnown with
    | inl isNew =>
      obtain ⟨rfl, rfl⟩ := isNew
      exact List.nodup_nil
    | inr before => exact closed.distinct before
  older {type found argument} isKnown isListed := by
    cases type?_withInstance_cases _ _ _ _ isKnown with
    | inl isNew =>
      obtain ⟨rfl, rfl⟩ := isNew
      exact registered argument isListed
    | inr before => exact closed.older before isListed
  outers {type found outer} isKnown isOuter := by
    cases type?_withInstance_cases _ _ _ _ isKnown with
    | inl isNew =>
      obtain ⟨rfl, rfl⟩ := isNew
      exact Nat.lt_trans (closed.outers known isOuter) (index_lt_of_type? known)
    | inr before => exact closed.outers before isOuter
  signatures isKnown isType := withInstance_keeps.has (closed.signatures isKnown isType)
  implemented isKnown implements := closed.implemented isKnown implements
  placeholders {type found} isKnown flagged := by
    cases type?_withInstance_cases _ _ _ _ isKnown with
    | inl isNew =>
      obtain ⟨rfl, rfl⟩ := isNew
      cases (closed.not_parameter_of_generic known isGeneric).symm.trans flagged
    | inr before => exact closed.placeholders before flagged
  leaves {type found} isKnown flagged := by
    cases type?_withInstance_cases _ _ _ _ isKnown with
    | inl isNew =>
      obtain ⟨rfl, rfl⟩ := isNew
      cases (closed.not_parameter_of_generic known isGeneric).symm.trans flagged
    | inr before => exact closed.leaves before flagged
  flags {type found origin whole} isKnown isCopy wholeKnown := by
    have instanceBare {other : TypeEntry}
        (isBare : other = Registration.bareInstance definition arguments entry) :
        other.definition ≠ none := by
      rw [isBare]
      exact Option.some_ne_none definition
    cases type?_withInstance_cases _ _ _ _ wholeKnown with
    | inl isNew =>
      -- An instance is no definition, and only definitions are instantiated.
      obtain ⟨rfl, isBare⟩ := isNew
      obtain ⟨-, whole', wholeKnown', uncopied, -⟩ :=
        (closed.toWellFormed.withInstance known isGeneric arity proper absent).copied isKnown
          isCopy
      cases wholeKnown.symm.trans wholeKnown'
      exact absurd uncopied (instanceBare isBare)
    | inr wholeBefore =>
      cases type?_withInstance_cases _ _ _ _ isKnown with
      | inl isNew =>
        obtain ⟨rfl, rfl⟩ := isNew
        cases isCopy
        cases wholeBefore.symm.trans known
        rfl
      | inr before => exact closed.flags before isCopy wholeBefore

end NewInstance

/-- One registry is another with declared types, which only refer to what is registered. -/
structure Introduces (later earlier : Registry) : Prop extends Declares later earlier where
  /-- A new type has a registered base and, around it, a type registered before; it has no
  interfaces and no arguments, and parameters that are registered as its own. A new generic
  parameter is nothing else and is inside of no type. -/
  entries : ∀ {type entry}, later.type? type = some entry → earlier.type? type = some entry ∨
    ((∀ base ∈ entry.base, later.Has base) ∧ entry.interfaces = [] ∧ entry.arguments = [] ∧
      (∀ outer ∈ entry.outer, outer.index < type.index) ∧
      (∀ parameter ∈ entry.parameters, ∃ placed, later.type? parameter = some placed ∧
        placed.IsParameterOf type) ∧
      entry.parameters.Nodup ∧
      (entry.flags.genericParameter = true →
        entry.flags = { genericParameter := true } ∧ entry.outer = none))

namespace Introduces

variable {later earlier : Registry} (introduces : later.Introduces earlier)
include introduces

/-- A registry with declared types keeps all entries. -/
theorem keeps : later.Keeps earlier :=
  ⟨introduces.extension.toGrows, fun known => ⟨_, introduces.kept known, .refl _⟩⟩

/-- Declared types keep a registry closed. -/
theorem closed (closed : earlier.Closed) : later.Closed where
  toWellFormed := introduces.wellFormed closed.toWellFormed
  bases {type entry base} known isBase := by
    cases introduces.entries known with
    | inl before => exact introduces.keeps.has (closed.bases before isBase)
    | inr isNew => exact isNew.1 base isBase
  interfaces {type entry interface} known isListed := by
    cases introduces.entries known with
    | inl before => exact introduces.keeps.isContract (closed.interfaces before isListed)
    | inr isNew =>
      rw [isNew.2.1] at isListed
      cases isListed
  parameters {type entry parameter} known isListed := by
    cases introduces.entries known with
    | inl before => exact introduces.keeps.isParameterOf (closed.parameters before isListed)
    | inr isNew => exact isNew.2.2.2.2.1 parameter isListed
  distinct {type entry} known := by
    cases introduces.entries known with
    | inl before => exact closed.distinct before
    | inr isNew => exact isNew.2.2.2.2.2.1
  older {type entry argument} known isListed := by
    cases introduces.entries known with
    | inl before => exact closed.older before isListed
    | inr isNew =>
      rw [isNew.2.2.1] at isListed
      cases isListed
  outers {type entry outer} known isOuter := by
    cases introduces.entries known with
    | inl before => exact closed.outers before isOuter
    | inr isNew => exact isNew.2.2.2.1 outer isOuter
  signatures {member source type} known isType := by
    rw [member?, introduces.members] at known
    exact introduces.keeps.has (closed.signatures known isType)
  implemented {member source contract} known implements := by
    rw [member?, introduces.members] at known
    exact introduces.keeps.hasMember (closed.implemented known implements)
  placeholders {type entry} known flagged := by
    cases introduces.entries known with
    | inl before => exact closed.placeholders before flagged
    | inr isNew =>
      refine ⟨(isNew.2.2.2.2.2.2 flagged).1, ?_⟩
      cases introduces.fresh known with
      | inl before => exact (closed.placeholders before flagged).2
      | inr fresh => exact fresh.1
  leaves {type entry} known flagged := by
    cases introduces.entries known with
    | inl before => exact closed.leaves before flagged
    | inr isNew => exact ⟨(isNew.2.2.2.2.2.2 flagged).2, isNew.2.2.1⟩
  flags {type entry definition whole} known isCopy wholeKnown := by
    cases introduces.fresh known with
    | inr fresh => cases isCopy.symm.trans fresh.1
    | inl before =>
      obtain ⟨-, whole', wholeBefore, -⟩ := closed.copied before isCopy
      cases wholeKnown.symm.trans (introduces.kept wholeBefore)
      exact closed.flags before isCopy wholeBefore

end Introduces

end Registry

end Foreach
