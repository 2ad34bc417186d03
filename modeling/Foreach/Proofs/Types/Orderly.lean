import Foreach.Proofs.Types.Commuting

/-!
# Orderly registries

Nothing keeps a registration from using a generic parameter anywhere. Where parameters are used as
they are meant, they have nothing of their own, are no bases, and are mentioned by their definitions
only (`Registry.Orderly`).

Replacing parameters leaves a definition as it is, so it matters where a definition is mentioned.
`Registry.Unmentioned` says that it is not where enumeration looks. Both can be read off the entries
of a registry.
-/
namespace Foreach

/-- The definition whose parameter an entry is. -/
def TypeEntry.parameterOf? (entry : TypeEntry) : Option TypeId :=
  match entry.kind with
  | .parameter owner _ => some owner
  | _ => none

namespace Registry

/-- Generic parameters are used where they belong. -/
structure Orderly (registry : Registry) : Prop where
  /-- A generic parameter has nothing of its own. -/
  empty : ∀ {type entry}, registry.type? type = some entry → entry.flags.genericParameter = true →
    entry.base = none ∧ entry.interfaces = [] ∧ entry.members = []
  /-- No base is a generic parameter. -/
  bases : ∀ {type entry base found}, registry.type? type = some entry → entry.base = some base →
    registry.type? base = some found → found.flags.genericParameter = false
  /-- A type that is no instance mentions no generic parameters but its own. -/
  own : ∀ {type entry place found parameter placed owner}, registry.type? type = some entry →
    entry.definition = none → registry.typeAt? type place = some found →
      registry.Mentions parameter found → registry.type? parameter = some placed →
        placed.IsParameterOf owner → owner = type

/-- The names of the members that enumeration looks for and whose types matter to it. -/
def lookedFor : List String :=
  [contractNames.getEnumerator, contractNames.current, contractNames.moveNext]

/-- Enumeration looks at a place of a type. -/
def LooksAt (registry : Registry) (type : TypeId) : Place → Prop
  | .base | .interface _ => True
  | .parameter _ _ => False
  | .value position => ∃ source ∈ registry.memberEntryAt? type position, source.name ∈ lookedFor

/-- No type that is no instance mentions a type where enumeration looks. -/
def Unmentioned (registry : Registry) (part : TypeId) : Prop :=
  ∀ {type entry place found}, registry.type? type = some entry → entry.definition = none →
    registry.LooksAt type place → registry.typeAt? type place = some found →
      ¬ registry.Mentions part found

/-- What stands in a type does not mention the definition, and mentions parameters of the definition
only if the type is the definition. -/
structure Neutral (registry : Registry) (definition type other : TypeId) : Prop where
  /-- The definition is not mentioned. -/
  foreign : ¬ registry.Mentions definition other
  /-- The parameters of the definition are mentioned by the definition only. -/
  own : ∀ {parameter placed}, registry.Mentions parameter other →
    registry.type? parameter = some placed → placed.IsParameterOf definition → definition = type

/-- The arguments of what is neutral are neutral. -/
theorem Neutral.argument {registry : Registry} {definition type other origin argument : TypeId}
    {entry : TypeEntry} (neutral : registry.Neutral definition type other)
    (known : registry.type? other = some entry) (isCopy : entry.definition = some origin)
    (isArgument : argument ∈ entry.arguments) : registry.Neutral definition type argument where
  foreign mentions := neutral.foreign (.argument known isCopy isArgument mentions)
  own mentions := neutral.own (.argument known isCopy isArgument mentions)

/-- What a type mentions, as far as arguments of arguments are followed. -/
def mentioned (registry : Registry) : Nat → TypeId → List TypeId
  | 0, type => [type]
  | depth + 1, type => type :: match registry.type? type with
    | some entry => entry.arguments.flatMap (registry.mentioned depth)
    | none => []

/-- The types that stand at places of a type. -/
def standing (registry : Registry) (type : TypeId) : List TypeId :=
  ((registry.type? type).bind TypeEntry.base).toList ++ registry.interfacesOf type ++
    (registry.membersOf type).flatMap fun member =>
      match registry.member? member with
      | some source => source.kind.types
      | none => []

section Reading

variable {registry : Registry}

/-- What holds of each entry holds of every registered type. -/
theorem of_type? (holds : TypeId → TypeEntry → Prop)
    (each : ∀ index : Fin registry.types.size, holds ⟨index⟩ registry.types[index])
    {type : TypeId} {entry : TypeEntry} (known : registry.type? type = some entry) :
    holds type entry := by
  obtain ⟨bound, rfl⟩ := Array.getElem?_eq_some_iff.mp known
  exact each ⟨type.index, bound⟩

/-- All that a type mentions is found by following arguments as often as there are older types,
since arguments are older than the instances at them. -/
theorem Closed.mem_mentioned (closed : registry.Closed) {part type : TypeId} {depth : Nat}
    (mentions : registry.Mentions part type) (enough : type.index ≤ depth) :
    part ∈ registry.mentioned depth type := by
  induction mentions generalizing depth with
  | self => cases depth <;> exact List.mem_cons_self
  | argument known _ isArgument _ ih =>
    have older := closed.older known isArgument
    obtain ⟨depth, rfl⟩ := Nat.exists_eq_add_one_of_ne_zero (show depth ≠ 0 by omega)
    rw [mentioned, known]
    exact List.mem_cons_of_mem _ (List.mem_flatMap.mpr ⟨_, isArgument, ih (by omega)⟩)

/-- What stands at a place of a type is among what stands at its places. -/
theorem mem_standing {type found : TypeId} {place : Place}
    (atPlace : registry.typeAt? type place = some found) : found ∈ registry.standing type := by
  have ofMember {position : Nat} {source : MemberEntry}
      (atMember : registry.memberEntryAt? type position = some source)
      (isType : found ∈ source.kind.types) : found ∈ registry.standing type := by
    obtain ⟨member, isMember, known⟩ := Option.bind_eq_some_iff.mp atMember
    refine List.mem_append_right _
      (List.mem_flatMap.mpr ⟨member, List.mem_of_getElem? isMember, ?_⟩)
    rw [known]
    exact isType
  cases place with
  | base =>
    exact List.mem_append_left _ (List.mem_append_left _ (Option.mem_toList.mpr atPlace))
  | interface position =>
    exact List.mem_append_left _ (List.mem_append_right _ (List.mem_of_getElem? atPlace))
  | parameter member position =>
    obtain ⟨source, atMember, isParameter⟩ := Option.bind_eq_some_iff.mp atPlace
    refine ofMember atMember ?_
    rw [source.types_eq]
    exact List.mem_append_left _ (List.mem_of_getElem? isParameter)
  | value member =>
    obtain ⟨source, atMember, rfl⟩ := Option.map_eq_some_iff.mp atPlace
    refine ofMember atMember ?_
    rw [source.types_eq]
    exact List.mem_append_right _ (List.mem_singleton.mpr rfl)

variable (closed : registry.Closed)
include closed

/-- Whether a registry is orderly can be read off its entries. -/
theorem Closed.orderly
    (empty : ∀ index : Fin registry.types.size,
      registry.types[index].flags.genericParameter = true →
        registry.types[index].base = none ∧ registry.types[index].interfaces = [] ∧
          registry.types[index].members = [])
    (bases : ∀ index : Fin registry.types.size, ∀ base ∈ registry.types[index].base,
      ∀ found ∈ registry.type? base, found.flags.genericParameter = false)
    (own : ∀ index : Fin registry.types.size, registry.types[index].definition = none →
      ∀ found ∈ registry.standing ⟨index⟩, ∀ part ∈ registry.mentioned found.index found,
        ∀ placed ∈ registry.type? part, ∀ owner ∈ placed.parameterOf?, owner = ⟨index⟩) :
    registry.Orderly where
  empty known := of_type? (fun _ entry => entry.flags.genericParameter = true →
    entry.base = none ∧ entry.interfaces = [] ∧ entry.members = []) empty known
  bases {type entry base found} known isBase foundKnown := by
    have holds := of_type? (fun _ entry => ∀ base ∈ entry.base, ∀ found ∈ registry.type? base,
      found.flags.genericParameter = false) bases known
    exact holds base isBase found foundKnown
  own {type entry place found parameter placed owner} known uncopied atPlace mentions placedKnown
      placedIs := by
    have holds := of_type? (fun type entry => entry.definition = none →
      ∀ found ∈ registry.standing type, ∀ part ∈ registry.mentioned found.index found,
        ∀ placed ∈ registry.type? part, ∀ owner ∈ placed.parameterOf?, owner = type) own known
    obtain ⟨position, kind⟩ := placedIs.kind
    refine holds uncopied found (mem_standing atPlace) parameter
      (closed.mem_mentioned mentions (Nat.le_refl _)) placed placedKnown owner ?_
    rw [TypeEntry.parameterOf?, kind]
    rfl

/-- A type that stands nowhere and in no argument is mentioned nowhere. -/
theorem Closed.unmentioned {part : TypeId}
    (absent : ∀ index : Fin registry.types.size, registry.types[index].definition = none →
      ∀ found ∈ registry.standing ⟨index⟩, part ∉ registry.mentioned found.index found) :
    registry.Unmentioned part := by
  intro type entry place found known uncopied _ atPlace mentions
  have holds := of_type? (fun type entry => entry.definition = none →
    ∀ found ∈ registry.standing type, part ∉ registry.mentioned found.index found) absent known
  exact holds uncopied found (mem_standing atPlace) (closed.mem_mentioned mentions (Nat.le_refl _))

end Reading

end Registry

end Foreach
