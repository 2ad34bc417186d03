import Foreach.Proofs.Types.Becomes

/-!
# Well-formed registries

The record of instantiations, the lists of instances and the entries of instances tell the same
story, and so do the member lists of types and the owners of members. Three changes keep this so: an
entry gets another base, another interface or one new member (`Registry.Amends`); a bare instance is
added, recorded and listed (`Registry.withInstance`); and types that are no instances are added
(`Registry.Declares`).
-/
namespace Foreach.Registry

/-- What holds of the tables of every registry. -/
structure WellFormed (registry : Registry) : Prop where
  /-- What an instantiation records is in the entry of its result. -/
  recorded : ∀ {made}, made ∈ registry.instantiations → ∃ entry,
    registry.type? made.result = some entry ∧ entry.definition = some made.definition ∧
      entry.arguments = made.arguments
  /-- The instances of a definition are listed as they are recorded, in order. -/
  instances : ∀ definition, registry.instancesOf definition =
    (registry.instantiations.filter fun made => made.definition = definition).map
      Instantiation.result
  /-- Each instance is recorded once. -/
  results : (registry.instantiations.map Instantiation.result).Nodup
  /-- An instance is the recorded one, of a definition with as many parameters that are not all
  equal to the arguments. -/
  copied : ∀ {type entry definition}, registry.type? type = some entry →
    entry.definition = some definition →
      registry.instance? definition entry.arguments = some type ∧
        ∃ whole, registry.type? definition = some whole ∧ whole.definition = none ∧
          whole.parameters.length = entry.arguments.length ∧
            whole.parameters ≠ entry.arguments ∧ whole.flags.genericDefinition = true
  /-- A generic definition is no instance. -/
  generic : ∀ {type entry}, registry.type? type = some entry →
    entry.flags.genericDefinition = true → entry.definition = none
  /-- A type lists each member once. -/
  unique : ∀ {type entry}, registry.type? type = some entry → entry.members.Nodup
  /-- A listed member is registered and has the type for its owner. Only instances list copies. -/
  owned : ∀ {type entry member}, registry.type? type = some entry → member ∈ entry.members →
    ∃ source, registry.member? member = some source ∧ source.owner = type ∧
      (entry.definition = none → source.definition = none)
  /-- Every member is listed on its owner. -/
  listed : ∀ {member source}, registry.member? member = some source → ∃ entry,
    registry.type? source.owner = some entry ∧ member ∈ entry.members
  /-- What a member was made from is registered. -/
  origins : ∀ {member source origin}, registry.member? member = some source →
    source.definition = some origin → origin.index < registry.members.size

/-- The type at a position, after the entry of a type was changed. -/
theorem type?_modifyType (registry : Registry) (type other : TypeId)
    (change : TypeEntry → TypeEntry) :
    (registry.modifyType type change).type? other =
      if other = type then (registry.type? other).map change else registry.type? other := by
  have sameIndex : type.index = other.index ↔ other = type := by
    rw [eq_comm, TypeId.mk.injEq]
  simp only [modifyType, type?, Array.getElem?_modify, sameIndex]

/-- A registered type has a handle below the number of types. -/
theorem index_lt_of_type? {registry : Registry} {type : TypeId} {entry : TypeEntry}
    (known : registry.type? type = some entry) : type.index < registry.size :=
  (Array.getElem?_eq_some_iff.mp known).1

/-- A type that was there before is left when another is added. -/
theorem type?_pushType_of_some {registry : Registry} {type : TypeId} {former : TypeEntry}
    (entry : TypeEntry) (known : registry.type? type = some former) :
    (registry.pushType entry).1.type? type = some former :=
  (registry.type?_pushType_of_lt entry (index_lt_of_type? known)).trans known

/-- A type is the one that was added or was there before. -/
theorem type?_pushType_cases {registry : Registry} {type : TypeId} {entry found : TypeEntry}
    (known : (registry.pushType entry).1.type? type = some found) :
    (type = ⟨registry.size⟩ ∧ found = entry) ∨ registry.type? type = some found := by
  rw [pushType, type?, Array.getElem?_push] at known
  by_cases isNew : type.index = registry.types.size
  · rw [if_pos isNew] at known
    exact .inl ⟨congrArg TypeId.mk isNew, (Option.some.inj known).symm⟩
  · rw [if_neg isNew] at known
    exact .inr known

/-- A registered member has a handle below the number of members. -/
theorem index_lt_of_member? {registry : Registry} {member : MemberId} {entry : MemberEntry}
    (known : registry.member? member = some entry) : member.index < registry.members.size :=
  (Array.getElem?_eq_some_iff.mp known).1

/-- What a member was made from, or else the member itself, is registered. -/
theorem WellFormed.origin_lt {registry : Registry} (formed : registry.WellFormed)
    {member : MemberId} {source : MemberEntry} (known : registry.member? member = some source) :
    (source.definition.getD member).index < registry.members.size := by
  cases origin : source.definition with
  | none => exact index_lt_of_member? known
  | some origin' => exact formed.origins known origin

/-- One registry is another with a changed entry, and perhaps a new member that the entry lists. -/
structure Amends (later earlier : Registry) (type : TypeId) (entry changed : TypeEntry)
    (added : Option MemberEntry) : Prop where
  before : earlier.type? type = some entry
  after : later.type? type = some changed
  others : ∀ {other}, other ≠ type → later.type? other = earlier.type? other
  instantiations : later.instantiations = earlier.instantiations
  instances : later.instances = earlier.instances
  flags : changed.flags = entry.flags
  parameters : changed.parameters = entry.parameters
  definition : changed.definition = entry.definition
  arguments : changed.arguments = entry.arguments
  pushed : later.members = earlier.members ++ added.toArray
  lists : changed.members = entry.members ++ added.toList.map fun _ => ⟨earlier.members.size⟩
  belongs : ∀ source ∈ added, source.owner = type ∧
    (entry.definition = none → source.definition = none) ∧
      ∀ origin ∈ source.definition, origin.index < earlier.members.size

/-- Another base and other interfaces amend a registry. -/
theorem Amends.of_links {registry : Registry} {type : TypeId} {entry : TypeEntry}
    (known : registry.type? type = some entry) (change : TypeEntry → TypeEntry)
    (same : ∀ entry, change entry =
      { entry with base := (change entry).base, interfaces := (change entry).interfaces }) :
    (registry.modifyType type change).Amends registry type entry (change entry) none where
  before := known
  after := by rw [type?_modifyType, if_pos rfl, known, Option.map_some]
  others different := by rw [type?_modifyType, if_neg different]
  instantiations := rfl
  instances := rfl
  flags := by rw [same]
  parameters := by rw [same]
  definition := by rw [same]
  arguments := by rw [same]
  pushed := by simp [modifyType]
  lists := by rw [same]; simp
  belongs := by simp

/-- A new member amends a registry. -/
theorem Amends.of_member {registry : Registry} {type : TypeId} {entry : TypeEntry}
    (source : MemberEntry) (known : registry.type? type = some entry) (owner : source.owner = type)
    (origin : entry.definition = none → source.definition = none)
    (originKnown : ∀ origin ∈ source.definition, origin.index < registry.members.size) :
    ((registry.pushMember source).1.modifyType type fun entry =>
        { entry with members := entry.members ++ [(registry.pushMember source).2] }).Amends
      registry type entry { entry with members := entry.members ++ [⟨registry.members.size⟩] }
      (some source) where
  before := known
  after := by
    rw [type?_modifyType, if_pos rfl]
    exact congrArg (Option.map _) known
  others different := by
    rw [type?_modifyType, if_neg different]
    rfl
  instantiations := rfl
  instances := rfl
  flags := rfl
  parameters := rfl
  definition := rfl
  arguments := rfl
  pushed := Array.push_eq_append
  lists := by simp
  belongs := by
    intro given isGiven
    cases isGiven
    exact ⟨owner, origin, originKnown⟩

namespace Amends

variable {later earlier : Registry} {type : TypeId} {entry changed : TypeEntry}
  {added : Option MemberEntry} (amends : later.Amends earlier type entry changed added)
include amends

/-- A type of an amended registry was there before, with all that decides about instances. -/
theorem type?_eq_some {other : TypeId} {found : TypeEntry}
    (known : later.type? other = some found) :
    ∃ former, earlier.type? other = some former ∧ found.flags = former.flags ∧
      found.parameters = former.parameters ∧ found.definition = former.definition ∧
        found.arguments = former.arguments := by
  by_cases same : other = type
  · rw [same, amends.after] at known
    cases known
    rw [same]
    exact ⟨entry, amends.before, amends.flags, amends.parameters, amends.definition,
      amends.arguments⟩
  · rw [amends.others same] at known
    exact ⟨found, known, rfl, rfl, rfl, rfl⟩

/-- A member of an amended registry was there before or is the new one. -/
theorem member?_eq_some {member : MemberId} {source : MemberEntry}
    (known : later.member? member = some source) :
    earlier.member? member = some source ∨
      added = some source ∧ member = ⟨earlier.members.size⟩ := by
  rw [member?, amends.pushed] at known
  cases added with
  | none =>
    rw [Option.toArray_none, Array.append_empty] at known
    exact .inl known
  | some given =>
    rw [Option.toArray_some, ← Array.push_eq_append, Array.getElem?_push] at known
    by_cases isNew : member.index = earlier.members.size
    · rw [if_pos isNew] at known
      exact .inr ⟨known, congrArg MemberId.mk isNew⟩
    · rw [if_neg isNew] at known
      exact .inl known

/-- The members before stay. -/
theorem member?_of_some {member : MemberId} {source : MemberEntry}
    (known : earlier.member? member = some source) : later.member? member = some source := by
  rw [member?, amends.pushed, Array.getElem?_append_left (Array.getElem?_eq_some_iff.mp known).1]
  exact known

/-- The new member is registered. -/
theorem member?_added {source : MemberEntry} (isAdded : added = some source) :
    later.member? ⟨earlier.members.size⟩ = some source := by
  rw [member?, amends.pushed, isAdded, Option.toArray_some, ← Array.push_eq_append,
    Array.getElem?_push, if_pos rfl]

/-- There are no fewer members. -/
theorem count : earlier.members.size ≤ later.members.size := by
  rw [amends.pushed, Array.size_append]
  exact Nat.le_add_right _ _

/-- An amended registry has grown. -/
theorem grows : later.Grows earlier where
  types {other former} known := by
    by_cases same : other = type
    · rw [same, amends.before] at known
      cases known
      rw [same]
      refine ⟨changed, amends.after, amends.parameters, amends.definition, amends.arguments, _,
        amends.lists, fun member isAdded => ?_⟩
      obtain ⟨_, -, rfl⟩ := List.mem_map.mp isAdded
      exact Nat.le_refl _
    · rw [← amends.others same] at known
      exact ⟨former, known, rfl, rfl, rfl, [], by simp⟩
  members := amends.member?_of_some
  count := amends.count
  instantiations := ⟨[], by rw [amends.instantiations, List.append_nil]⟩

/-- The amended entry lists each member once, since a new one was not registered before. -/
theorem nodup_members (formed : earlier.WellFormed) : changed.members.Nodup := by
  rw [amends.lists, List.nodup_append]
  refine ⟨formed.unique amends.before, ?_, ?_⟩
  · cases added with
    | none => exact List.nodup_nil
    | some given => exact List.nodup_cons.mpr ⟨List.not_mem_nil, List.nodup_nil⟩
  · intro member isListed other isNew equal
    obtain ⟨_, -, rfl⟩ := List.mem_map.mp isNew
    obtain ⟨source, isKnown, -⟩ := formed.owned amends.before isListed
    have bound := index_lt_of_member? isKnown
    rw [equal] at bound
    exact Nat.lt_irrefl _ bound

/-- The amended entry lists members of its type. -/
theorem owns (formed : earlier.WellFormed) {member : MemberId}
    (isListed : member ∈ changed.members) :
    ∃ source, later.member? member = some source ∧ source.owner = type ∧
      (changed.definition = none → source.definition = none) := by
  rw [amends.lists] at isListed
  rw [amends.definition]
  cases List.mem_append.mp isListed with
  | inl inEntry =>
    obtain ⟨source, isKnown, owner, origin⟩ := formed.owned amends.before inEntry
    exact ⟨source, amends.member?_of_some isKnown, owner, origin⟩
  | inr isNew =>
    obtain ⟨source, isAdded, rfl⟩ := List.mem_map.mp isNew
    have given := Option.mem_toList.mp isAdded
    obtain ⟨owner, origin, -⟩ := amends.belongs source given
    exact ⟨source, amends.member?_added given, owner, origin⟩

/-- Amending keeps a registry well-formed. -/
theorem wellFormed (formed : earlier.WellFormed) : later.WellFormed where
  recorded {made} isRecorded := by
    rw [amends.instantiations] at isRecorded
    obtain ⟨former, known, copied, same⟩ := formed.recorded isRecorded
    obtain ⟨found, reached, -, definition, arguments, -⟩ := amends.grows.types known
    exact ⟨found, reached, definition.trans copied, arguments.trans same⟩
  instances definition := by
    rw [instancesOf, amends.instances, amends.instantiations]
    exact formed.instances definition
  results := by
    rw [amends.instantiations]
    exact formed.results
  copied {other found definition} known isCopy := by
    obtain ⟨former, knownBefore, -, -, definitionSame, argumentsSame⟩ := amends.type?_eq_some known
    rw [definitionSame] at isCopy
    obtain ⟨isFound, whole, wholeKnown, uncopied, arity, proper, generic⟩ :=
      formed.copied knownBefore isCopy
    obtain ⟨now, reached, parameters, nowDefinition, -⟩ := amends.grows.types wholeKnown
    obtain ⟨whole', wholeKnown', flags, -⟩ := amends.type?_eq_some reached
    cases wholeKnown.symm.trans wholeKnown'
    rw [← argumentsSame] at isFound arity proper
    exact ⟨amends.grows.instance? isFound, now, reached, nowDefinition.trans uncopied,
      parameters ▸ arity, parameters ▸ proper, flags ▸ generic⟩
  generic {other found} known isGeneric := by
    obtain ⟨former, knownBefore, flags, -, definition, -⟩ := amends.type?_eq_some known
    rw [definition]
    exact formed.generic knownBefore (flags ▸ isGeneric)
  unique {other found} known := by
    by_cases same : other = type
    · rw [same, amends.after] at known
      cases known
      exact amends.nodup_members formed
    · rw [amends.others same] at known
      exact formed.unique known
  owned {other found member} known isListed := by
    by_cases same : other = type
    · rw [same, amends.after] at known
      cases known
      rw [same]
      exact amends.owns formed isListed
    · rw [amends.others same] at known
      obtain ⟨source, isKnown, owner, origin⟩ := formed.owned known isListed
      exact ⟨source, amends.member?_of_some isKnown, owner, origin⟩
  listed {member source} known := by
    cases amends.member?_eq_some known with
    | inl knownBefore =>
      obtain ⟨former, ownerKnown, isListed⟩ := formed.listed knownBefore
      obtain ⟨found, reached, -, -, -, more, members, -⟩ := amends.grows.types ownerKnown
      exact ⟨found, reached, members ▸ List.mem_append_left more isListed⟩
    | inr isNew =>
      obtain ⟨isAdded, rfl⟩ := isNew
      obtain ⟨owner, -⟩ := amends.belongs source isAdded
      refine ⟨changed, owner ▸ amends.after, ?_⟩
      rw [amends.lists, isAdded]
      exact List.mem_append_right _ (List.mem_singleton.mpr rfl)
  origins {member source origin} known made := by
    cases amends.member?_eq_some known with
    | inl knownBefore =>
      exact Nat.lt_of_lt_of_le (formed.origins knownBefore made) amends.count
    | inr isNew =>
      obtain ⟨-, -, originKnown⟩ := amends.belongs source isNew.1
      exact Nat.lt_of_lt_of_le (originKnown origin made) amends.count

end Amends

/-- A registry with a bare instance added, recorded and listed. -/
def withInstance (registry : Registry) (definition : TypeId) (arguments : List TypeId)
    (entry : TypeEntry) : Registry :=
  { (registry.pushType (Registration.bareInstance definition arguments entry)).1 with
    instantiations := registry.instantiations ++ [⟨definition, arguments, ⟨registry.size⟩⟩]
    instances := InstanceList.add definition ⟨registry.size⟩ registry.instances }

section NewInstance

variable (registry : Registry) (definition : TypeId) (arguments : List TypeId) (entry : TypeEntry)

/-- A type that was there before is left by a new instance. -/
theorem type?_withInstance_of_some {type : TypeId} {former : TypeEntry}
    (known : registry.type? type = some former) :
    (registry.withInstance definition arguments entry).type? type = some former :=
  type?_pushType_of_some _ known

/-- A new instance is bare. -/
theorem type?_withInstance_self :
    (registry.withInstance definition arguments entry).type? ⟨registry.size⟩ =
      some (Registration.bareInstance definition arguments entry) :=
  registry.type?_pushType_self _

/-- A type is the new instance or was there before. -/
theorem type?_withInstance_cases {type : TypeId} {found : TypeEntry}
    (known : (registry.withInstance definition arguments entry).type? type = some found) :
    (type = ⟨registry.size⟩ ∧ found = Registration.bareInstance definition arguments entry) ∨
      registry.type? type = some found :=
  type?_pushType_cases known

/-- A registry with a new instance extends the registry. -/
theorem withInstance_extends :
    (registry.withInstance definition arguments entry).Extends registry where
  types known :=
    ⟨_, registry.type?_withInstance_of_some definition arguments entry known, rfl, rfl, rfl, [],
      by simp⟩
  members := id
  count := Nat.le_refl _
  instantiations := ⟨_, rfl⟩
  definitions known _ := registry.type?_withInstance_of_some definition arguments entry known

/-- A new instance is listed behind the others of its definition. -/
theorem instancesOf_withInstance (other : TypeId) :
    (registry.withInstance definition arguments entry).instancesOf other =
      registry.instancesOf other ++ if other = definition then [⟨registry.size⟩] else [] :=
  InstanceList.of_add definition ⟨registry.size⟩ other registry.instances

variable {registry definition arguments entry}

/-- A new instance is the one found at its arguments. -/
theorem instance?_withInstance (absent : registry.instance? definition arguments = none) :
    (registry.withInstance definition arguments entry).instance? definition arguments =
      some ⟨registry.size⟩ := by
  have notBefore := Option.map_eq_none_iff.mp absent
  rw [Registry.instance?, withInstance, List.find?_append, notBefore, Option.none_or]
  simp

/-- A new instance of a definition that had none at its arguments keeps a registry well-formed. -/
theorem WellFormed.withInstance (formed : registry.WellFormed)
    (known : registry.type? definition = some entry)
    (isGeneric : entry.flags.genericDefinition = true)
    (arity : entry.parameters.length = arguments.length) (proper : entry.parameters ≠ arguments)
    (absent : registry.instance? definition arguments = none) :
    (registry.withInstance definition arguments entry).WellFormed where
  recorded {made} isRecorded := by
    cases List.mem_append.mp isRecorded with
    | inl before =>
      obtain ⟨former, knownBefore, same⟩ := formed.recorded before
      exact ⟨former, registry.type?_withInstance_of_some definition arguments entry knownBefore,
        same⟩
    | inr isNew =>
      cases List.mem_singleton.mp isNew
      exact ⟨_, registry.type?_withInstance_self definition arguments entry, rfl, rfl⟩
  instances other := by
    rw [instancesOf_withInstance, formed.instances, Registry.withInstance, List.filter_append,
      List.map_append]
    by_cases same : other = definition <;> simp [same, eq_comm]
  results := by
    rw [Registry.withInstance, List.map_append, List.nodup_append]
    refine ⟨formed.results, List.nodup_cons.mpr ⟨List.not_mem_nil, List.nodup_nil⟩, ?_⟩
    intro type isRecorded other isNew equal
    obtain ⟨made, before, rfl⟩ := List.mem_map.mp isRecorded
    obtain ⟨former, knownBefore, -⟩ := formed.recorded before
    have bound := index_lt_of_type? knownBefore
    rw [equal, List.mem_singleton.mp isNew] at bound
    exact Nat.lt_irrefl _ bound
  copied {type found origin} isKnown isCopy := by
    cases type?_withInstance_cases _ _ _ _ isKnown with
    | inl isNew =>
      obtain ⟨rfl, rfl⟩ := isNew
      cases isCopy
      exact ⟨instance?_withInstance absent, entry,
        registry.type?_withInstance_of_some definition arguments entry known,
        formed.generic known isGeneric, arity, proper, isGeneric⟩
    | inr before =>
      obtain ⟨isFound, whole, wholeKnown, rest⟩ := formed.copied before isCopy
      exact ⟨(withInstance_extends ..).instance? isFound, whole,
        registry.type?_withInstance_of_some definition arguments entry wholeKnown, rest⟩
  generic {type found} isKnown flagged := by
    cases type?_withInstance_cases _ _ _ _ isKnown with
    | inl isNew =>
      obtain ⟨rfl, rfl⟩ := isNew
      cases flagged
    | inr before => exact formed.generic before flagged
  unique {type found} isKnown := by
    cases type?_withInstance_cases _ _ _ _ isKnown with
    | inl isNew =>
      obtain ⟨rfl, rfl⟩ := isNew
      exact List.nodup_nil
    | inr before => exact formed.unique before
  owned {type found member} isKnown isListed := by
    cases type?_withInstance_cases _ _ _ _ isKnown with
    | inl isNew =>
      obtain ⟨rfl, rfl⟩ := isNew
      cases isListed
    | inr before => exact formed.owned before isListed
  listed isKnown := by
    obtain ⟨former, ownerKnown, isListed⟩ := formed.listed isKnown
    exact ⟨former, registry.type?_withInstance_of_some definition arguments entry ownerKnown,
      isListed⟩
  origins := formed.origins

end NewInstance

/-- One registry is another with types that are no instances and list no members. -/
structure Declares (later earlier : Registry) : Prop where
  kept : ∀ {type entry}, earlier.type? type = some entry → later.type? type = some entry
  fresh : ∀ {type entry}, later.type? type = some entry → earlier.type? type = some entry ∨
    entry.definition = none ∧ entry.members = []
  members : later.members = earlier.members
  instantiations : later.instantiations = earlier.instantiations
  instances : later.instances = earlier.instances

namespace Declares

variable {later earlier : Registry} (declares : later.Declares earlier)
include declares

/-- A registry with declared types extends the registry. -/
theorem extension : later.Extends earlier where
  types known := ⟨_, declares.kept known, rfl, rfl, rfl, [], by simp⟩
  members known := by rw [member?, declares.members]; exact known
  count := Nat.le_of_eq (congrArg Array.size declares.members).symm
  instantiations := ⟨[], by rw [declares.instantiations, List.append_nil]⟩
  definitions known _ := declares.kept known

/-- Declared types keep a registry well-formed. -/
theorem wellFormed (formed : earlier.WellFormed) : later.WellFormed where
  recorded {made} isRecorded := by
    rw [declares.instantiations] at isRecorded
    obtain ⟨entry, known, same⟩ := formed.recorded isRecorded
    exact ⟨entry, declares.kept known, same⟩
  instances definition := by
    rw [instancesOf, declares.instances, declares.instantiations]
    exact formed.instances definition
  results := by
    rw [declares.instantiations]
    exact formed.results
  copied {type entry definition} known isCopy := by
    cases declares.fresh known with
    | inl before =>
      obtain ⟨isFound, whole, wholeKnown, rest⟩ := formed.copied before isCopy
      exact ⟨declares.extension.instance? isFound, whole, declares.kept wholeKnown, rest⟩
    | inr isNew => cases isCopy.symm.trans isNew.1
  generic {type entry} known isGeneric := by
    cases declares.fresh known with
    | inl before => exact formed.generic before isGeneric
    | inr isNew => exact isNew.1
  unique {type entry} known := by
    cases declares.fresh known with
    | inl before => exact formed.unique before
    | inr isNew =>
      rw [isNew.2]
      exact List.nodup_nil
  owned {type entry member} known isListed := by
    cases declares.fresh known with
    | inl before =>
      obtain ⟨source, isKnown, rest⟩ := formed.owned before isListed
      exact ⟨source, declares.extension.members isKnown, rest⟩
    | inr isNew =>
      rw [isNew.2] at isListed
      cases isListed
  listed {member source} known := by
    rw [member?, declares.members] at known
    obtain ⟨entry, ownerKnown, isListed⟩ := formed.listed known
    exact ⟨entry, declares.kept ownerKnown, isListed⟩
  origins {member source origin} known made := by
    rw [member?, declares.members] at known
    rw [declares.members]
    exact formed.origins known made

end Declares

end Foreach.Registry
