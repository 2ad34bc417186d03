import Foreach.Types.WellKnown
import Foreach.Proofs.Types.Propagation

/-!
# Instances mirror their definitions

A registry is reached from the well-known types by declaring types, adding to types that are no
instances, and instantiating definitions, in any order. Every registry that is reached is sound with
nothing owed, so each instance has, part by part and in order, what its definition's base,
interfaces and members become.
-/
namespace Foreach.Registry

/-- One registration. What is added to is no instance itself. -/
inductive Step : Registry → Registry → Prop where
  /-- A type is declared. -/
  | declare {before after : Registry} {declaration : TypeDeclaration} {type : TypeId}
    (ran : Registration.declare declaration before = .ok (type, after)) : Step before after
  /-- A base is set. -/
  | setBase {before after : Registry} {depth : Nat} {type base : TypeId} {entry : TypeEntry}
    (known : before.type? type = some entry) (uncopied : entry.definition = none)
    (ran : Registration.setBase depth type base before = .ok ((), after)) : Step before after
  /-- An interface is added. -/
  | addInterface {before after : Registry} {depth : Nat} {type interface : TypeId}
    {entry : TypeEntry} (known : before.type? type = some entry)
    (uncopied : entry.definition = none)
    (ran : Registration.addInterface depth type interface before = .ok ((), after)) :
    Step before after
  /-- A method or a property is added. -/
  | addMember {before after : Registry} {depth : Nat} {type : TypeId}
    {declaration : MemberDeclaration} {member : MemberId} {entry : TypeEntry}
    (known : before.type? type = some entry) (uncopied : entry.definition = none)
    (ran : Registration.addDeclaredMember depth type declaration before = .ok (member, after)) :
    Step before after
  /-- A definition is instantiated. -/
  | instantiate {before after : Registry} {depth : Nat} {definition type : TypeId}
    {arguments : List TypeId}
    (ran : Registration.instantiate depth definition arguments before = .ok (type, after)) :
    Step before after

/-- A registry that registrations lead to. -/
inductive Reached : Registry → Prop where
  /-- The well-known types are there from the start. -/
  | initial : Reached .initial
  /-- One registration leads on. -/
  | step {before after : Registry} (reached : Reached before) (step : Step before after) :
    Reached after

/-- The registry after some work, or before it if the work stopped. -/
def after {α : Type} (before : Registry) (work : Registration α) : Registry :=
  match work before with
  | .ok (_, later) => later
  | .error _ => before

/-- What work leads to is reached if it is reached by work that does not stop. -/
theorem Reached.after {α : Type} {before : Registry} {work : Registration α}
    (reached : before.Reached)
    (step : ∀ {result later}, work before = .ok (result, later) → Step before later) :
    (before.after work).Reached := by
  unfold Registry.after
  cases ran : work before with
  | error stop => exact reached
  | ok ended => exact reached.step (step ran)

/-- What holds of each well-known type holds of every type of the first registry. -/
theorem initial_type? (holds : TypeId → TypeEntry → Prop)
    (each : ∀ index : Fin 14, holds ⟨index⟩ initial.types[index]) {type : TypeId}
    {entry : TypeEntry} (known : initial.type? type = some entry) : holds type entry := by
  obtain ⟨bound, rfl⟩ := Array.getElem?_eq_some_iff.mp known
  exact each ⟨type.index, bound⟩

/-- What holds of each well-known member holds of every member of the first registry. -/
theorem initial_member? (holds : MemberId → MemberEntry → Prop)
    (each : ∀ index : Fin 8, holds ⟨index⟩ initial.members[index]) {member : MemberId}
    {entry : MemberEntry} (known : initial.member? member = some entry) : holds member entry := by
  obtain ⟨bound, rfl⟩ := Array.getElem?_eq_some_iff.mp known
  exact each ⟨member.index, bound⟩

/-- The one instance that exists from the start. -/
theorem initial_definition {type definition : TypeId} {entry : TypeEntry}
    (known : initial.type? type = some entry) (isCopy : entry.definition = some definition) :
    type = ⟨13⟩ ∧ definition = .genericEnumerator := by
  have only := initial_type?
    (fun type entry => ∀ definition ∈ entry.definition,
      type = ⟨13⟩ ∧ definition = .genericEnumerator)
    (by decide) known
  exact only definition isCopy

/-- The first registry is well-formed. -/
theorem initial_wellFormed : initial.WellFormed where
  recorded {made} isRecorded := by
    cases List.mem_singleton.mp isRecorded
    exact ⟨_, rfl, rfl, rfl⟩
  instances definition := by
    show InstanceList.of definition [⟨.genericEnumerator, [⟨13⟩]⟩] =
      (List.filter _ [⟨.genericEnumerator, [⟨12⟩], ⟨13⟩⟩]).map Instantiation.result
    by_cases same : TypeId.genericEnumerator = definition <;> simp [InstanceList.of, same]
  results := by decide
  copied {type entry definition} known isCopy := by
    obtain ⟨rfl, rfl⟩ := initial_definition known isCopy
    cases known
    exact ⟨by decide, _, rfl, rfl, rfl, by decide, rfl⟩
  generic := initial_type?
    (fun _ entry => entry.flags.genericDefinition = true → entry.definition = none) (by decide)
  unique := initial_type? (fun _ entry => entry.members.Nodup) (by decide)
  owned {type entry member} known isListed := by
    have holds := initial_type?
      (fun type entry => ∀ member ∈ entry.members, ∃ source ∈ initial.member? member,
        source.owner = type ∧ (entry.definition = none → source.definition = none))
      (by decide) known
    exact holds member isListed
  listed := initial_member?
    (fun member source => ∃ entry ∈ initial.type? source.owner, member ∈ entry.members)
    (by decide)
  origins {member source origin} known made := by
    have holds := initial_member?
      (fun _ source => ∀ origin ∈ source.definition, origin.index < initial.members.size)
      (by decide) known
    exact holds origin made

/-- The first registry is sound. -/
theorem initial_sound : initial.Sound settled where
  formed := initial_wellFormed
  pending isOwed := absurd isOwed.symm (Option.some_ne_none _)
  mirrors {type entry definition whole} known isCopy wholeKnown := by
    obtain ⟨rfl, rfl⟩ := initial_definition known isCopy
    cases known
    cases wholeKnown
    refine ⟨.none, .cons (.whole rfl rfl rfl) (.cons (.whole rfl rfl rfl) .nil), .cons ?_ .nil⟩
    exact ⟨_, _, rfl, rfl, rfl, rfl, rfl, .property (.argument rfl), rfl, .none⟩

/-- A registration keeps a registry sound. -/
theorem Step.sound {before after : Registry} (step : Step before after)
    (sound : before.Sound settled) : after.Sound settled := by
  cases step with
  | declare ran => exact Registration.declare_sound sound ran
  | setBase known uncopied ran => exact Registration.setBase_sound sound known uncopied ran
  | addInterface known uncopied ran =>
    exact Registration.addInterface_sound sound known uncopied ran
  | addMember known uncopied ran =>
    exact Registration.addDeclaredMember_sound sound known uncopied ran
  | instantiate ran => exact Registration.instantiate_sound sound ran

/-- Every registry that is reached is sound, and no instance lags behind. -/
theorem Reached.sound {registry : Registry} (reached : registry.Reached) :
    registry.Sound settled := by
  induction reached with
  | initial => exact initial_sound
  | step _ step ih => exact step.sound ih

/-- A member of an instance mirrors a member of the definition: it has the same name and flags, is
declared by the instance, says which member it was made from, and has the types that the types of
that member become. -/
def MirrorsMember (registry : Registry) (substitution : Substitution) (type : TypeId)
    (member copy : MemberId) : Prop :=
  ∃ source made, registry.member? member = some source ∧ registry.member? copy = some made ∧
    made.name = source.name ∧ made.flags = source.flags ∧ made.owner = type ∧
      made.definition = some member ∧ registry.KindBecomes substitution source.kind made.kind

/-- A type mirrors a definition: the definition's parameters are replaced by the type's arguments;
base and interfaces are what those of the definition become, in order; and there are as many
members, each mirroring the one at the same place. -/
def MirrorsDefinition (registry : Registry) (type definition : TypeId) : Prop :=
  ∃ entry whole substitution, registry.type? type = some entry ∧
    registry.type? definition = some whole ∧ registry.substitution type = .ok substitution ∧
    substitution = whole.parameters.zip entry.arguments ∧
    Option.Rel (registry.Becomes substitution) whole.base entry.base ∧
    List.Forall₂ (registry.Becomes substitution) whole.interfaces entry.interfaces ∧
    List.Forall₂ (registry.MirrorsMember substitution type) whole.members entry.members

/-- In every registry that is reached, every instance mirrors its definition. -/
theorem Reached.mirrors_definition {registry : Registry} (reached : registry.Reached)
    {type definition : TypeId} {entry : TypeEntry} (known : registry.type? type = some entry)
    (isCopy : entry.definition = some definition) :
    registry.MirrorsDefinition type definition := by
  have sound := reached.sound
  obtain ⟨-, whole, wholeKnown, uncopied, -⟩ := sound.formed.copied known isCopy
  have mirrored := sound.mirrors known isCopy wholeKnown
  have eachListed : ∀ member ∈ whole.members, ∃ source,
      registry.member? member = some source ∧ source.definition = none := by
    intro member isListed
    obtain ⟨source, sourceKnown, -, origin⟩ := sound.formed.owned wholeKnown isListed
    exact ⟨source, sourceKnown, origin uncopied⟩
  have both := (List.forall₂_and_left whole.members entry.members).mpr
    ⟨eachListed, mirrored.members⟩
  refine ⟨entry, whole, _, known, wholeKnown, substitution_of_instance known isCopy wholeKnown,
    rfl, mirrored.base, mirrored.interfaces, both.imp ?_⟩
  rintro member copy ⟨⟨source, sourceKnown, origin⟩, source', made, sourceKnown', madeKnown, same⟩
  cases sourceKnown.symm.trans sourceKnown'
  have isOrigin : made.definition = some member := by
    rw [same.definition, origin, Option.getD_none]
  exact ⟨source, made, sourceKnown, madeKnown, same.name, same.flags, same.owner, isOrigin,
    same.kind⟩

/-- A generic class without members, and its instance at integers. -/
def emptyBoxes : Registry :=
  initial.after (Registration.declare { name := "Box", sort := .classType, parameters := ["T"] })
    |>.after (Registration.instantiate 1 ⟨14⟩ [.int])

/-- The class is given a property of its parameter's type, when the instance is there. -/
def boxes : Registry :=
  emptyBoxes.after (Registration.addDeclaredMember 1 ⟨14⟩ (.property "Value" ⟨15⟩))

/-- The class and its instance are reached. -/
theorem emptyBoxes_reached : emptyBoxes.Reached :=
  (Reached.initial.after .declare).after .instantiate

/-- The property is added to a class that is no instance. -/
theorem boxes_reached : boxes.Reached := by
  obtain ⟨entry, known, uncopied⟩ : ∃ entry ∈ emptyBoxes.type? ⟨14⟩, entry.definition = none := by
    decide
  exact emptyBoxes_reached.after (.addMember known uncopied)

/-- The enumerable contract at integers mirrors the contract when it was instantiated, which makes
the enumerator contract at integers as well. The instance of a class, which has no members at first,
mirrors the class when a property was added to that. -/
theorem enumerableOfInt_mirrors_definition :
    (∃ registry : Registry, registry.Reached ∧
      (∃ entry, registry.type? ⟨14⟩ = some entry ∧ entry.definition = some .genericEnumerable) ∧
        registry.MirrorsDefinition ⟨14⟩ .genericEnumerable) ∧
      (∃ entry ∈ emptyBoxes.type? ⟨16⟩, entry.definition = some ⟨14⟩ ∧ entry.members = []) ∧
      (∃ entry ∈ boxes.type? ⟨16⟩, entry.definition = some ⟨14⟩ ∧ entry.members = [⟨9⟩]) ∧
      boxes.MirrorsDefinition ⟨16⟩ ⟨14⟩ := by
  have reached : (initial.after
      (Registration.instantiate 2 .genericEnumerable [.int])).Reached :=
    Reached.initial.after .instantiate
  obtain ⟨entry, known, isCopy⟩ : ∃ entry ∈
      (initial.after (Registration.instantiate 2 .genericEnumerable [.int])).type? ⟨14⟩,
      entry.definition = some .genericEnumerable := by
    decide
  obtain ⟨box, boxKnown, isBox, members⟩ : ∃ entry ∈ boxes.type? ⟨16⟩,
      entry.definition = some ⟨14⟩ ∧ entry.members = [⟨9⟩] := by
    decide
  exact ⟨⟨_, reached, ⟨entry, known, isCopy⟩, reached.mirrors_definition known isCopy⟩, by decide,
    ⟨box, boxKnown, isBox, members⟩, boxes_reached.mirrors_definition boxKnown isBox⟩

end Foreach.Registry
