import Foreach.Proofs.Types.Furnishing

/-!
# Registries that are built

A registry is built from the well-known types by declaring types, adding to types, and instantiating
definitions, in any order, where all that is mentioned is registered. Which types may be added to
varies: every type, instances included, or those that are no instances.

Every registry that is built is furnished. If nothing is added to instances directly, it is reached,
so that instances mirror their definitions.
-/
namespace Foreach

namespace Registration

open Registry

/-- A registry with a parameter added to a type. -/
def withParameter (registry : Registry) (owner : TypeId) (entry : TypeEntry) : Registry :=
  (registry.pushType entry).1.modifyType owner fun whole =>
    { whole with parameters := whole.parameters ++ [⟨registry.size⟩] }

section Parameters

variable {registry : Registry} {owner : TypeId} {added : TypeEntry}

/-- A type stays, with its kind and its flags, when a parameter is added. -/
theorem type?_withParameter_of_some {type : TypeId} {entry : TypeEntry}
    (known : registry.type? type = some entry) :
    ∃ changed, (withParameter registry owner added).type? type = some changed ∧
      changed.kind = entry.kind ∧ changed.flags = entry.flags := by
  have pushed := type?_pushType_of_some added known
  rw [withParameter, type?_modifyType]
  by_cases isOwner : type = owner
  · rw [if_pos isOwner, pushed]
    exact ⟨_, rfl, rfl, rfl⟩
  · rw [if_neg isOwner]
    exact ⟨entry, pushed, rfl, rfl⟩

/-- A type is the added parameter, was there before, or is the owner with one parameter more. -/
theorem type?_withParameter_cases (registered : registry.Has owner) {type : TypeId}
    {entry : TypeEntry} (known : (withParameter registry owner added).type? type = some entry) :
    (type = ⟨registry.size⟩ ∧ entry = added) ∨
      (type ≠ owner ∧ registry.type? type = some entry) ∨
      (type = owner ∧ ∃ former, registry.type? owner = some former ∧
        entry = { former with parameters := former.parameters ++ [⟨registry.size⟩] }) := by
  rw [withParameter, type?_modifyType] at known
  by_cases isOwner : type = owner
  · rw [if_pos isOwner] at known
    obtain ⟨former, reached, rfl⟩ := Option.map_eq_some_iff.mp known
    cases type?_pushType_cases reached with
    | inl isNew =>
      rw [isOwner] at isNew
      have index : owner.index = registry.size := congrArg TypeId.index isNew.1
      exact absurd registered (Nat.not_lt.mpr (Nat.le_of_eq index.symm))
    | inr before => exact .inr (.inr ⟨isOwner, former, isOwner ▸ before, rfl⟩)
  · rw [if_neg isOwner] at known
    cases type?_pushType_cases known with
    | inl isNew => exact .inl isNew
    | inr before => exact .inr (.inl ⟨isOwner, before⟩)

/-- The added parameter is there. -/
theorem type?_withParameter_self (registered : registry.Has owner) :
    (withParameter registry owner added).type? ⟨registry.size⟩ = some added := by
  have differs : (⟨registry.size⟩ : TypeId) ≠ owner := by
    rintro rfl
    exact Nat.lt_irrefl _ registered
  rw [withParameter, type?_modifyType, if_neg differs]
  exact registry.type?_pushType_self added

end Parameters

/-- A generic parameter is introduced with its definition. -/
theorem addParameter_introduces {earlier before after : Registry} {owner : TypeId} {position : Nat}
    {name : String} (isNew : earlier.type? owner = none) (introduces : before.Introduces earlier)
    (registered : before.Has owner)
    (ran : addParameter owner position name before = .ok ((), after)) :
    after.Introduces earlier ∧ after.Has owner := by
  have declares := addParameter_declares isNew introduces.toDeclares ran
  obtain ⟨_, -, isAfter⟩ := addParameter_eq_ok.mp ran
  obtain rfl : after = withParameter before owner (parameterEntry owner position name) := isAfter
  have has {type : TypeId} (known : before.Has type) :
      (withParameter before owner (parameterEntry owner position name)).Has type := by
    obtain ⟨entry, found⟩ := has_iff.mp known
    obtain ⟨changed, reached, -⟩ := type?_withParameter_of_some found
    exact has_iff.mpr ⟨changed, reached⟩
  have isParameterOf {type whole : TypeId}
      (known : ∃ placed, before.type? type = some placed ∧ placed.IsParameterOf whole) :
      ∃ placed, (withParameter before owner (parameterEntry owner position name)).type? type =
        some placed ∧ placed.IsParameterOf whole := by
    obtain ⟨placed, found, isParameter⟩ := known
    obtain ⟨changed, reached, kind, flags⟩ := type?_withParameter_of_some found
    exact ⟨changed, reached, kind ▸ isParameter.kind, flags ▸ isParameter.flags⟩
  refine ⟨⟨declares, fun {type entry} known => ?_⟩, has registered⟩
  rcases type?_withParameter_cases registered known with ⟨-, rfl⟩ | ⟨-, before⟩ | isOwner
  · exact .inr ⟨fun _ isBase => (nomatch isBase), rfl, rfl, fun _ isOuter => (nomatch isOuter),
      fun _ isListed => (nomatch isListed), List.nodup_nil, fun _ => ⟨rfl, rfl⟩⟩
  · refine (introduces.entries before).imp_right fun ⟨bases, interfaces, arguments, outers,
      parameters, distinct, flags⟩ => ?_
    exact ⟨fun base isBase => has (bases base isBase), interfaces, arguments, outers,
      fun parameter isListed => isParameterOf (parameters parameter isListed), distinct, flags⟩
  · obtain ⟨rfl, former, ownerKnown, rfl⟩ := isOwner
    obtain ⟨bases, interfaces, arguments, outers, parameters, distinct, flags⟩ :=
      (introduces.entries ownerKnown).resolve_left fun before =>
        Option.some_ne_none _ (before.symm.trans isNew)
    refine .inr ⟨fun base isBase => has (bases base isBase), interfaces, arguments, outers,
      fun parameter isListed => ?_, ?_, flags⟩
    · cases List.mem_append.mp isListed with
      | inl listedBefore => exact isParameterOf (parameters parameter listedBefore)
      | inr isAdded =>
        rw [List.mem_singleton.mp isAdded]
        exact ⟨_, type?_withParameter_self registered, ⟨_, rfl⟩, rfl⟩
    · have isNewParameter : ⟨before.size⟩ ∉ former.parameters := by
        intro isListed
        obtain ⟨placed, placedKnown, -⟩ := parameters _ isListed
        exact Nat.lt_irrefl _ (index_lt_of_type? placedKnown)
      exact List.nodup_append.mpr ⟨distinct, List.nodup_cons.mpr ⟨List.not_mem_nil, List.nodup_nil⟩,
        fun parameter isListed other isAdded same =>
          isNewParameter (List.mem_singleton.mp isAdded ▸ same ▸ isListed)⟩

/-- A declaration introduces types that refer to what is registered, if the type around the new one
is. -/
theorem declare_introduces {before after : Registry} {declaration : TypeDeclaration}
    {type : TypeId} (kept : before.Keeps initial)
    (outers : ∀ outer ∈ declaration.outer, before.Has outer)
    (ran : declare declaration before = .ok (type, after)) : after.Introduces before := by
  obtain ⟨rfl, parameters⟩ := declare_eq_ok.mp ran
  have isNew : before.type? ⟨before.size⟩ = none :=
    Array.getElem?_eq_none_iff.mpr (Nat.le_refl _)
  have pushedHas {entry : TypeEntry} {other : TypeId} (known : before.Has other) :
      (before.pushType entry).1.Has other := by
    obtain ⟨former, found⟩ := has_iff.mp known
    exact has_iff.mpr ⟨former, type?_pushType_of_some entry found⟩
  have baseHas : ∀ base ∈ declaration.sort.base, before.Has base := by
    intro base isBase
    have wellKnown : initial.Has base := by
      cases sort : declaration.sort <;> rw [sort] at isBase <;> cases isBase <;> decide
    exact kept.has wellKnown
  have notParameter : declaration.flags.genericParameter = false := by
    cases sort : declaration.sort <;> simp [TypeDeclaration.flags, TypeSort.flags, sort]
  have start : (before.pushType
      { name := declaration.name, space := declaration.space, kind := declaration.sort.kind,
        flags := declaration.flags, base := declaration.sort.base,
        outer := declaration.outer }).1.Introduces before := by
    refine ⟨⟨type?_pushType_of_some _, fun {type entry} known => ?_, rfl, rfl, rfl⟩,
      fun {type entry} known => ?_⟩
    · cases type?_pushType_cases known with
      | inl isDeclared =>
        rw [isDeclared.2]
        exact .inr ⟨rfl, rfl⟩
      | inr wasThere => exact .inl wasThere
    · cases type?_pushType_cases known with
      | inl isDeclared =>
        obtain ⟨rfl, rfl⟩ := isDeclared
        refine .inr ⟨fun base isBase => pushedHas (baseHas base isBase), rfl, rfl, outers,
          fun _ isListed => (nomatch isListed), List.nodup_nil, fun flagged => ?_⟩
        cases notParameter.symm.trans flagged
      | inr wasThere => exact .inl wasThere
  have isPushed := has_iff.mpr ⟨_, before.type?_pushType_self
    { name := declaration.name, space := declaration.space, kind := declaration.sort.kind,
      flags := declaration.flags, base := declaration.sort.base, outer := declaration.outer }⟩
  exact (Work.forM_induct
    (fun _ registry => registry.Introduces before ∧ registry.Has ⟨before.size⟩)
    (fun _ _ _ _ holds step => addParameter_introduces isNew holds.1 holds.2 step)
    ⟨start, isPushed⟩ parameters).1

/-- A type is declared. -/
theorem declare_furnished {lacking : TypeId → Prop} {before after : Registry}
    {declaration : TypeDeclaration} {type : TypeId} (furnished : before.Furnished lacking)
    (outers : ∀ outer ∈ declaration.outer, before.Has outer)
    (ran : declare declaration before = .ok (type, after)) :
    after.Furnished lacking ∧ after.Keeps before := by
  have introduces := declare_introduces furnished.keeps outers ran
  have kept := introduces.keeps
  refine ⟨furnished.of_keeps (introduces.closed furnished.toClosed) kept fun isCopy => ?_, kept⟩
  obtain ⟨entry, known, isDefinition⟩ := isCopy
  cases introduces.fresh known with
  | inl before => exact ⟨entry, before, isDefinition⟩
  | inr fresh => cases isDefinition.symm.trans fresh.1

end Registration

/-- A type is no instance. -/
abbrev TypeEntry.IsOriginal (entry : TypeEntry) : Prop := entry.definition = none

namespace Registry

/-- One registration of what is registered. What is added to may be edited. -/
inductive Edit (mayEdit : TypeEntry → Prop) : Registry → Registry → Prop where
  /-- A type is declared, in a registered one if any. -/
  | declare {before after : Registry} {declaration : TypeDeclaration} {type : TypeId}
    (outers : ∀ outer ∈ declaration.outer, before.Has outer)
    (ran : Registration.declare declaration before = .ok (type, after)) :
    Edit mayEdit before after
  /-- A registered base is set. -/
  | setBase {before after : Registry} {depth : Nat} {type base : TypeId} {entry : TypeEntry}
    (known : before.type? type = some entry) (allowed : mayEdit entry)
    (registered : before.Has base)
    (ran : Registration.setBase depth type base before = .ok ((), after)) :
    Edit mayEdit before after
  /-- A contract is added. -/
  | addInterface {before after : Registry} {depth : Nat} {type interface : TypeId}
    {entry : TypeEntry} (known : before.type? type = some entry) (allowed : mayEdit entry)
    (ran : Registration.addInterface depth type interface before = .ok ((), after)) :
    Edit mayEdit before after
  /-- A method or a property is added, of registered types and for a registered member if any. -/
  | addMember {before after : Registry} {depth : Nat} {type : TypeId}
    {declaration : MemberDeclaration} {member : MemberId} {entry : TypeEntry}
    (known : before.type? type = some entry) (allowed : mayEdit entry)
    (types : ∀ other ∈ declaration.kind.types, before.Has other)
    (contracts : ∀ contract ∈ declaration.implements, before.HasMember contract)
    (ran : Registration.addDeclaredMember depth type declaration before = .ok (member, after)) :
    Edit mayEdit before after
  /-- A definition is instantiated at registered types. -/
  | instantiate {before after : Registry} {depth : Nat} {definition type : TypeId}
    {arguments : List TypeId} (registered : ∀ argument ∈ arguments, before.Has argument)
    (ran : Registration.instantiate depth definition arguments before = .ok (type, after)) :
    Edit mayEdit before after

/-- A registry that registrations of what is registered lead to. -/
inductive Built (mayEdit : TypeEntry → Prop) : Registry → Prop where
  /-- The well-known types are there from the start. -/
  | initial : Built mayEdit .initial
  /-- One registration leads on. -/
  | edit {before after : Registry} (built : Built mayEdit before)
    (edit : Edit mayEdit before after) : Built mayEdit after

/-- Nothing lacks anything. -/
abbrev Complete (registry : Registry) : Prop := registry.Furnished fun _ => False

variable {mayEdit : TypeEntry → Prop}

/-- The first registry is closed. -/
theorem initial_closed : initial.Closed where
  toWellFormed := initial_wellFormed
  bases {type entry base} known isBase := by
    have holds := initial_type? (fun _ entry => ∀ base ∈ entry.base, initial.Has base)
      (by decide) known
    exact holds base isBase
  interfaces {type entry interface} known isListed := by
    have holds := initial_type?
      (fun _ entry => ∀ interface ∈ entry.interfaces, ∃ contract ∈ initial.type? interface,
        contract.flags.isInterface = true)
      (by decide) known
    exact holds interface isListed
  parameters {type entry parameter} known isListed := by
    have holds := initial_type?
      (fun type entry => ∀ parameter ∈ entry.parameters, ∃ placed ∈ initial.type? parameter,
        placed.kind = .parameter type 0 ∧ placed.flags.genericParameter = true)
      (by decide) known
    obtain ⟨placed, placedKnown, kind, flags⟩ := holds parameter isListed
    exact ⟨placed, placedKnown, ⟨0, kind⟩, flags⟩
  distinct := initial_type? (fun _ entry => entry.parameters.Nodup) (by decide)
  older {type entry argument} known isListed := by
    have holds := initial_type?
      (fun type entry => ∀ argument ∈ entry.arguments, argument.index < type.index)
      (by decide) known
    exact holds argument isListed
  outers {type entry outer} known isOuter := by
    have holds := initial_type?
      (fun type entry => ∀ outer ∈ entry.outer, outer.index < type.index) (by decide) known
    exact holds outer isOuter
  signatures {member source type} known isType := by
    have holds := initial_member?
      (fun _ source => ∀ type ∈ source.kind.types, initial.Has type) (by decide) known
    exact holds type isType
  implemented {member source contract} known implements := by
    have holds := initial_member?
      (fun _ source => ∀ contract ∈ source.implements, initial.HasMember contract)
      (by decide) known
    exact holds contract implements
  placeholders := initial_type?
    (fun _ entry => entry.flags.genericParameter = true →
      entry.flags = { genericParameter := true } ∧ entry.definition = none)
    (by decide)
  leaves := initial_type?
    (fun _ entry => entry.flags.genericParameter = true →
      entry.outer = none ∧ entry.arguments = [])
    (by decide)
  flags {type entry definition whole} known isCopy wholeKnown := by
    obtain ⟨rfl, rfl⟩ := initial_definition known isCopy
    cases known
    cases wholeKnown
    rfl

/-- A well-known type has what it has from the start. -/
theorem initial_carries (type : TypeId) : initial.Carries type type := by
  intro whole known
  refine ⟨fun interface isListed => ⟨whole, known, isListed⟩, whole, whole.members, [], known,
    (List.append_nil _).symm, List.forall₂_same.mpr fun member isListed => ?_⟩
  exact initial_closed.standsIn_self known isListed

/-- The first registry is complete. -/
theorem initial_complete : initial.Complete where
  toClosed := initial_closed
  keeps := .refl _
  carries {type definition} isCopy _ := by
    obtain ⟨entry, known, isDefinition⟩ := isCopy
    obtain ⟨rfl, rfl⟩ := initial_definition known isDefinition
    intro whole wholeKnown
    cases wholeKnown
    -- The one member answers with the parameter, which anything can stand for.
    have stands : initial.StandsIn ⟨5⟩ ⟨6⟩ :=
      ⟨_, _, rfl, rfl, ⟨rfl, rfl, rfl⟩, _, _, rfl, rfl, fun isPlain => nomatch isPlain⟩
    exact ⟨fun interface isListed => ⟨_, rfl, isListed⟩, _, [⟨6⟩], [], rfl, rfl,
      .cons stands .nil⟩

/-- A registration of what is registered keeps a registry complete and takes nothing back. -/
theorem Edit.complete {before after : Registry} (edit : Edit mayEdit before after)
    (complete : before.Complete) : after.Complete ∧ after.Keeps before := by
  cases edit with
  | declare outers ran => exact Registration.declare_furnished complete outers ran
  | setBase _ _ registered ran => exact Registration.setBase_furnished complete registered ran
  | addInterface _ _ ran => exact Registration.addInterface_furnished complete ran
  | addMember _ _ types contracts ran =>
    exact Registration.addDeclaredMember_furnished complete types contracts ran
  | instantiate registered ran =>
    obtain ⟨afterComplete, kept, -⟩ := Registration.instantiateWith_furnishes
      (Registration.substitute_furnishes _) (Registration.substitute_leaves _) complete registered
      ran
    exact ⟨afterComplete, kept⟩

/-- Every registry that is built is complete. -/
theorem Built.complete {registry : Registry} (built : Built mayEdit registry) :
    registry.Complete := by
  induction built with
  | initial => exact initial_complete
  | edit _ edit ih => exact (edit.complete ih).1

/-- What is built without adding to instances is reached. -/
theorem Built.reached {registry : Registry}
    (built : Built TypeEntry.IsOriginal registry) : registry.Reached := by
  induction built with
  | initial => exact .initial
  | edit _ edit ih =>
    cases edit with
    | declare _ ran => exact ih.step (.declare ran)
    | setBase known uncopied _ ran => exact ih.step (.setBase known uncopied ran)
    | addInterface known uncopied ran => exact ih.step (.addInterface known uncopied ran)
    | addMember known uncopied _ _ ran => exact ih.step (.addMember known uncopied ran)
    | instantiate _ ran => exact ih.step (.instantiate ran)

/-- What work leads to is built if work that does not stop is an edit. -/
theorem Built.after {α : Type} {before : Registry} {work : Registration α}
    (built : Built mayEdit before)
    (edit : ∀ {result later}, work before = .ok (result, later) → Edit mayEdit before later) :
    Built mayEdit (before.after work) := by
  unfold Registry.after
  cases ran : work before with
  | error stop => exact built
  | ok ended => exact built.edit (edit ran)

section Registrations

variable {registry : Registry} (built : Built mayEdit registry)
include built

/-- One more type leads on, if it is not nested. -/
theorem Built.declare (declaration : TypeDeclaration) (noOuter : declaration.outer = none) :
    Built mayEdit (registry.after (Registration.declare declaration)) :=
  built.after (.declare fun _ isOuter => nomatch noOuter.symm.trans isOuter)

/-- Another base of a type that may be edited leads on. -/
theorem Built.setBase (type base : TypeId)
    (allowed : ∃ entry ∈ registry.type? type, mayEdit entry) (has : registry.Has base) :
    Built mayEdit (registry.after (Registration.setBase 1 type base)) := by
  obtain ⟨entry, known, allowed⟩ := allowed
  exact built.after (.setBase known allowed has)

/-- One more interface of a type that may be edited leads on. -/
theorem Built.addInterface (type interface : TypeId)
    (allowed : ∃ entry ∈ registry.type? type, mayEdit entry) :
    Built mayEdit (registry.after (Registration.addInterface 1 type interface)) := by
  obtain ⟨entry, known, allowed⟩ := allowed
  exact built.after (.addInterface known allowed)

/-- One more member of a type that may be edited leads on. -/
theorem Built.addMember (type : TypeId) (declaration : MemberDeclaration)
    (allowed : ∃ entry ∈ registry.type? type, mayEdit entry)
    (types : ∀ other ∈ declaration.kind.types, registry.Has other)
    (contracts : ∀ contract ∈ declaration.implements, registry.HasMember contract) :
    Built mayEdit (registry.after (Registration.addDeclaredMember 1 type declaration)) := by
  obtain ⟨entry, known, allowed⟩ := allowed
  exact built.after (.addMember known allowed types contracts)

/-- An instance leads on. -/
theorem Built.instantiate (depth : Nat) (definition : TypeId) (arguments : List TypeId)
    (registered : ∀ argument ∈ arguments, registry.Has argument) :
    Built mayEdit (registry.after (Registration.instantiate depth definition arguments)) :=
  built.after (.instantiate registered)

end Registrations

end Registry

end Foreach
