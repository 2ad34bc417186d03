import Foreach.Proofs.Types.Closed
import Foreach.Proofs.Types.Reached
import Foreach.Proofs.Types.Untouched

/-!
# Instances of contracts are furnished

An instance of a well-known definition has, from the time it is made, the interfaces of the
definition, and it begins with members that stand for those of the definition, in order
(`Registry.Carries`). While it is being made it lacks them; `Registry.Furnished` says which types
may lack something.

`Registration.Furnishes` is the specification of replacing parameters for this purpose: a furnished
registry stays furnished, nothing is taken back, and what a type is replaced by can stand where the
type stood. No sound registry is needed for it, so types may be edited in any way.
-/
namespace Foreach

/-- The number of parameters of a method. -/
def MemberKind.arity : MemberKind → Option Nat
  | .method parameters _ => some parameters.length
  | .property _ => none

/-- The type of what a member of a signature answers with. -/
def MemberKind.answer : MemberKind → TypeId
  | .method _ returns => returns
  | .property type => type

/-- A member answers with what its signature says. -/
theorem MemberEntry.valueType_eq (source : MemberEntry) :
    source.valueType = source.kind.answer := by
  unfold MemberEntry.valueType MemberKind.answer
  cases source.kind <;> rfl

/-- A member is like another: a search by name does not tell them apart unless it asks for types. -/
structure MemberEntry.Alike (copy source : MemberEntry) : Prop where
  /-- The name is the same. -/
  name : copy.name = source.name
  /-- The flags are the same. -/
  flags : copy.flags = source.flags
  /-- Both are properties, or both are methods with as many parameters. -/
  arity : copy.kind.arity = source.kind.arity

/-- An instance of an instance would have the same flags. -/
@[simp] theorem TypeFlags.forInstance_forInstance (flags : TypeFlags) :
    flags.forInstance.forInstance = flags.forInstance := rfl

namespace Registry

/-- A type lists an interface. -/
def Inherits (registry : Registry) (type interface : TypeId) : Prop :=
  ∃ entry, registry.type? type = some entry ∧ interface ∈ entry.interfaces

/-- A type lists a member of which something holds. -/
def Lists (registry : Registry) (type : TypeId) (holds : MemberEntry → Prop) : Prop :=
  ∃ entry member source, registry.type? type = some entry ∧ member ∈ entry.members ∧
    registry.member? member = some source ∧ holds source

/-- A type is an instance of a definition. -/
def IsCopy (registry : Registry) (type definition : TypeId) : Prop :=
  ∃ entry, registry.type? type = some entry ∧ entry.definition = some definition

/-- One type can stand where another stood, unless that is a generic parameter: it is of the same
sort, and it is the other type, or if that is an instance, the definition or an instance of it. -/
def Stands (registry : Registry) (type result : TypeId) : Prop :=
  ∃ entry made, registry.type? type = some entry ∧ registry.type? result = some made ∧
    (entry.flags.genericParameter = false →
      made.flags.forInstance = entry.flags.forInstance ∧
        (entry.definition = none → result = type) ∧
          ∀ definition, entry.definition = some definition →
            result = definition ∨ made.definition = some definition)

/-- One member can stand where another stood: it is like the other, and what it answers with can
stand where what the other answers with stood. -/
def StandsIn (registry : Registry) (member copy : MemberId) : Prop :=
  ∃ source made, registry.member? member = some source ∧ registry.member? copy = some made ∧
    made.Alike source ∧ registry.Stands source.valueType made.valueType

/-- The first members of a type can stand for some members, in order. -/
def BeginsWith (registry : Registry) (type : TypeId) (members : List MemberId) : Prop :=
  ∃ entry copies more, registry.type? type = some entry ∧ entry.members = copies ++ more ∧
    List.Forall₂ registry.StandsIn members copies

/-- A type has what a well-known type has from the start. -/
def Carries (registry : Registry) (type origin : TypeId) : Prop :=
  ∀ whole, initial.type? origin = some whole →
    (∀ interface ∈ whole.interfaces, registry.Inherits type interface) ∧
      registry.BeginsWith type whole.members

/-- What a substitution replaces are registered parameters, and by registered types. -/
def Suits (registry : Registry) (substitution : Substitution) : Prop :=
  ∀ pair ∈ substitution, (∃ placed, registry.type? pair.1 = some placed ∧
    placed.flags.genericParameter = true) ∧ registry.Has pair.2

section Kept

variable {later earlier : Registry} (kept : later.Keeps earlier)
include kept

/-- A listed interface stays listed. -/
theorem Keeps.inherits {type interface : TypeId} (known : earlier.Inherits type interface) :
    later.Inherits type interface := by
  obtain ⟨entry, found, isListed⟩ := known
  obtain ⟨changed, reached, continued⟩ := kept.entries found
  exact ⟨changed, reached, continued.interfaces isListed⟩

/-- A listed member stays listed. -/
theorem Keeps.lists {type : TypeId} {holds : MemberEntry → Prop}
    (known : earlier.Lists type holds) : later.Lists type holds := by
  obtain ⟨entry, member, source, found, isListed, memberKnown, given⟩ := known
  obtain ⟨changed, reached, continued⟩ := kept.entries found
  exact ⟨changed, member, source, reached, continued.members isListed, kept.members memberKnown,
    given⟩

/-- An instance stays an instance. -/
theorem Keeps.isCopy {type definition : TypeId} (known : earlier.IsCopy type definition) :
    later.IsCopy type definition := by
  obtain ⟨entry, found, isCopy⟩ := known
  obtain ⟨changed, reached, continued⟩ := kept.entries found
  exact ⟨changed, reached, continued.definition.trans isCopy⟩

/-- What can stand for a type can do so ever after. -/
theorem Keeps.stands {type result : TypeId} (stands : earlier.Stands type result) :
    later.Stands type result := by
  obtain ⟨entry, made, known, madeKnown, same⟩ := stands
  obtain ⟨changed, reached, continued⟩ := kept.entries known
  obtain ⟨madeChanged, madeReached, madeContinued⟩ := kept.entries madeKnown
  refine ⟨changed, madeChanged, reached, madeReached, ?_⟩
  rw [continued.flags, madeContinued.flags, continued.definition, madeContinued.definition]
  exact same

/-- What can stand for a member can do so ever after. -/
theorem Keeps.standsIn {member copy : MemberId} (stands : earlier.StandsIn member copy) :
    later.StandsIn member copy := by
  obtain ⟨source, made, known, madeKnown, alike, answers⟩ := stands
  exact ⟨source, made, kept.members known, kept.members madeKnown, alike, kept.stands answers⟩

/-- The first members of a type stay the first. -/
theorem Keeps.beginsWith {type : TypeId} {members : List MemberId}
    (begins : earlier.BeginsWith type members) : later.BeginsWith type members := by
  obtain ⟨entry, copies, more, known, listed, stand⟩ := begins
  obtain ⟨changed, reached, _, _, further, same⟩ := kept.entries known
  refine ⟨changed, copies, more ++ further, reached, ?_, stand.imp fun _ _ => kept.standsIn⟩
  rw [same, listed, List.append_assoc]

/-- What a type has, it has ever after. -/
theorem Keeps.carries {type origin : TypeId} (carries : earlier.Carries type origin) :
    later.Carries type origin := by
  intro whole known
  obtain ⟨interfaces, begins⟩ := carries whole known
  exact ⟨fun interface isListed => kept.inherits (interfaces interface isListed),
    kept.beginsWith begins⟩

/-- A substitution suits a registry ever after. -/
theorem Keeps.suits {substitution : Substitution} (suits : earlier.Suits substitution) :
    later.Suits substitution := by
  intro pair isPair
  obtain ⟨⟨placed, known, flagged⟩, has⟩ := suits pair isPair
  obtain ⟨changed, reached, continued⟩ := kept.entries known
  exact ⟨⟨changed, reached, continued.flags ▸ flagged⟩, kept.has has⟩

end Kept

/-- A type can stand for itself. -/
theorem Stands.refl {registry : Registry} {type : TypeId} (has : registry.Has type) :
    registry.Stands type type := by
  obtain ⟨entry, known⟩ := has_iff.mp has
  exact ⟨entry, entry, known, known, fun _ => ⟨rfl, fun _ => rfl, fun _ isCopy => .inr isCopy⟩⟩

/-- What can stand for a type is registered. -/
theorem Stands.has {registry : Registry} {type result : TypeId}
    (stands : registry.Stands type result) : registry.Has result := by
  obtain ⟨-, made, -, madeKnown, -⟩ := stands
  exact has_iff.mpr ⟨made, madeKnown⟩

/-- What can stand for a contract is a contract. -/
theorem Stands.isContract {registry : Registry} (closed : registry.Closed) {type result : TypeId}
    (stands : registry.Stands type result) (isContract : registry.IsContract type) :
    registry.IsContract result := by
  obtain ⟨entry, made, known, madeKnown, same⟩ := stands
  obtain ⟨entry', known', isInterface⟩ := isContract
  cases known.symm.trans known'
  have flags := (same (closed.not_parameter known isInterface)).1
  have isInterface' : made.flags.forInstance.isInterface = entry.flags.forInstance.isInterface :=
    congrArg TypeFlags.isInterface flags
  exact ⟨made, madeKnown, isInterface'.trans isInterface⟩

/-- A type that begins with what stands for more members begins with what stands for the first of
them. -/
theorem BeginsWith.of_append {registry : Registry} {type : TypeId} {first others : List MemberId}
    (begins : registry.BeginsWith type (first ++ others)) : registry.BeginsWith type first := by
  obtain ⟨entry, copies, more, known, listed, stand⟩ := begins
  refine ⟨entry, copies.take first.length, copies.drop first.length ++ more, known, ?_, ?_⟩
  · rw [← List.append_assoc, List.take_append_drop]
    exact listed
  · have taken := List.forall₂_take first.length stand
    rwa [List.take_left] at taken

/-- A type that begins with what stands for a member lists a member like it. -/
theorem BeginsWith.lists {registry : Registry} {type : TypeId} {members : List MemberId}
    (begins : registry.BeginsWith type members) {member : MemberId} (isMember : member ∈ members)
    {source : MemberEntry} (sourceKnown : registry.member? member = some source) :
    registry.Lists type (·.Alike source) := by
  obtain ⟨entry, copies, more, known, listed, stand⟩ := begins
  obtain ⟨place, bound, rfl⟩ := List.mem_iff_getElem.mp isMember
  have copyBound : place < copies.length := stand.length_eq ▸ bound
  obtain ⟨source', made, sourceKnown', madeKnown, alike, -⟩ := stand.get bound copyBound
  cases sourceKnown.symm.trans sourceKnown'
  refine ⟨entry, copies[place], made, known, ?_, madeKnown, alike⟩
  rw [listed]
  exact List.mem_append_left _ (List.getElem_mem copyBound)

/-- A member that a type lists can stand for itself. -/
theorem Closed.standsIn_self {registry : Registry} (closed : registry.Closed) {type : TypeId}
    {entry : TypeEntry} {member : MemberId} (known : registry.type? type = some entry)
    (isListed : member ∈ entry.members) : registry.StandsIn member member := by
  obtain ⟨source, sourceKnown, -⟩ := closed.owned known isListed
  refine ⟨source, source, sourceKnown, sourceKnown, ⟨rfl, rfl, rfl⟩, .refl ?_⟩
  exact closed.valueType_has sourceKnown

/-- The argument of a parameter is paired with it. -/
theorem mem_of_argument? {substitution : Substitution} {type argument : TypeId}
    (replaced : substitution.argument? type = some argument) :
    (type, argument) ∈ substitution := by
  obtain ⟨pair, first, rfl⟩ := Option.map_eq_some_iff.mp replaced
  have holds := List.find?_some first
  have same : pair.1 = type := of_decide_eq_true holds
  rw [← same]
  exact List.mem_of_find?_eq_some first

/-- An argument can stand for its parameter. -/
theorem Suits.stands {registry : Registry} {substitution : Substitution}
    (suits : registry.Suits substitution) {type argument : TypeId}
    (replaced : substitution.argument? type = some argument) : registry.Stands type argument := by
  obtain ⟨⟨placed, known, flagged⟩, has⟩ := suits _ (mem_of_argument? replaced)
  obtain ⟨made, madeKnown⟩ := has_iff.mp has
  refine ⟨placed, made, known, madeKnown, fun isNone => ?_⟩
  rw [flagged] at isNone
  cases isNone

/-- The parameters of a definition can be replaced by registered types. -/
theorem Closed.suits_zip {registry : Registry} (closed : registry.Closed) {definition : TypeId}
    {whole : TypeEntry} {arguments : List TypeId} (known : registry.type? definition = some whole)
    (registered : ∀ argument ∈ arguments, registry.Has argument) :
    registry.Suits (whole.parameters.zip arguments) := by
  intro pair isPair
  obtain ⟨placed, isKnown, isParameter⟩ :=
    closed.parameters known (List.of_mem_zip isPair).1
  exact ⟨⟨placed, isKnown, isParameter.flags⟩, registered _ (List.of_mem_zip isPair).2⟩

/-- A closed registry with all that it had from the start, whose instances of well-known definitions
have what those have from the start, except for some that lack it. -/
structure Furnished (registry : Registry) (lacking : TypeId → Prop) : Prop
    extends Closed registry where
  /-- The well-known types are kept. -/
  keeps : registry.Keeps initial
  /-- An instance that does not lack anything has what its definition has from the start. -/
  carries : ∀ {type definition}, registry.IsCopy type definition → ¬ lacking type →
    registry.Carries type definition

section Changes

variable {later earlier : Registry} {lacking : TypeId → Prop}

/-- A furnished registry stays furnished if it is kept and closed and its instances were there. -/
theorem Furnished.of_keeps (furnished : earlier.Furnished lacking) (closed : later.Closed)
    (kept : later.Keeps earlier)
    (copies : ∀ {type definition}, later.IsCopy type definition →
      earlier.IsCopy type definition) : later.Furnished lacking where
  toClosed := closed
  keeps := kept.trans furnished.keeps
  carries isCopy present := kept.carries (furnished.carries (copies isCopy) present)

/-- Amending keeps a registry furnished if the changed entry refers to what is registered. -/
theorem Furnished.amend (furnished : earlier.Furnished lacking) {type : TypeId}
    {entry changed : TypeEntry} {added : Option MemberEntry}
    (amends : later.Amends earlier type entry changed added) (continued : changed.Continues entry)
    (closed : later.Closed) : later.Furnished lacking ∧ later.Keeps earlier := by
  have kept := amends.keeps continued
  refine ⟨furnished.of_keeps closed kept fun isCopy => ?_, kept⟩
  obtain ⟨found, known, isInstance⟩ := isCopy
  obtain ⟨former, knownBefore, continued'⟩ := amends.continues continued known
  exact ⟨former, knownBefore, continued'.definition ▸ isInstance⟩

section Given

variable (furnished : earlier.Furnished lacking) {type : TypeId} {entry : TypeEntry}
include furnished

/-- A type may be given a registered base. -/
theorem Furnished.withBase {base : TypeId} (registered : earlier.Has base)
    (amends : later.Amends earlier type entry { entry with base := some base } none) :
    later.Furnished lacking ∧ later.Keeps earlier := by
  have continued := TypeEntry.Continues.withBase entry base
  refine furnished.amend amends continued (amends.closed continued furnished.toClosed ?_ ?_ ?_ ?_)
  · exact fun _ isBase => Option.some.inj isBase ▸ registered
  · exact fun _ isListed => furnished.interfaces amends.before isListed
  · exact fun _ isAdded => nomatch isAdded
  · exact fun _ isAdded => nomatch isAdded

/-- A type may be given one more contract. -/
theorem Furnished.withInterface {interface : TypeId} (isContract : earlier.IsContract interface)
    (amends : later.Amends earlier type entry
      { entry with interfaces := entry.interfaces ++ [interface] } none) :
    later.Furnished lacking ∧ later.Keeps earlier := by
  have continued := TypeEntry.Continues.withInterface entry interface
  refine furnished.amend amends continued (amends.closed continued furnished.toClosed ?_ ?_ ?_ ?_)
  · exact fun _ isBase => furnished.bases amends.before isBase
  · intro other isListed
    cases List.mem_append.mp isListed with
    | inl inEntry => exact furnished.interfaces amends.before inEntry
    | inr isNew =>
      rw [List.mem_singleton.mp isNew]
      exact isContract
  · exact fun _ isAdded => nomatch isAdded
  · exact fun _ isAdded => nomatch isAdded

/-- A type may be given one more member that mentions registered types only and implements a
registered member if any. -/
theorem Furnished.withMember {member : MemberId} {source : MemberEntry}
    (types : ∀ other ∈ source.kind.types, earlier.Has other)
    (contracts : ∀ contract ∈ source.implements, earlier.HasMember contract)
    (amends : later.Amends earlier type entry
      { entry with members := entry.members ++ [member] } (some source)) :
    later.Furnished lacking ∧ later.Keeps earlier := by
  have continued := TypeEntry.Continues.withMember entry member
  refine furnished.amend amends continued (amends.closed continued furnished.toClosed ?_ ?_ ?_ ?_)
  · exact fun _ isBase => furnished.bases amends.before isBase
  · exact fun _ isListed => furnished.interfaces amends.before isListed
  · exact fun _ isAdded => Option.some.inj isAdded ▸ types
  · exact fun _ isAdded => Option.some.inj isAdded ▸ contracts

end Given

/-- A type that has everything lacks nothing. -/
theorem Furnished.settle {type definition : TypeId}
    (furnished : earlier.Furnished fun other => lacking other ∨ other = type)
    (isCopy : earlier.IsCopy type definition) (carries : earlier.Carries type definition) :
    earlier.Furnished lacking where
  toClosed := furnished.toClosed
  keeps := furnished.keeps
  carries {other origin} isInstance present := by
    by_cases same : other = type
    · obtain ⟨entry, known, isDefinition⟩ := isCopy
      obtain ⟨entry', known', isDefinition'⟩ := isInstance
      subst same
      cases known.symm.trans known'
      cases isDefinition.symm.trans isDefinition'
      exact carries
    · exact furnished.carries isInstance fun lacks => lacks.elim present same

/-- A new instance lacks everything at first. -/
theorem Furnished.withInstance (furnished : earlier.Furnished lacking) {definition : TypeId}
    {entry : TypeEntry} {arguments : List TypeId}
    (closed : (earlier.withInstance definition arguments entry).Closed) :
    (earlier.withInstance definition arguments entry).Furnished
      fun other => lacking other ∨ other = ⟨earlier.size⟩ where
  toClosed := closed
  keeps := withInstance_keeps.trans furnished.keeps
  carries {type origin} isCopy present := by
    obtain ⟨found, known, isInstance⟩ := isCopy
    cases type?_withInstance_cases _ _ _ _ known with
    | inl isNew => exact absurd (.inr isNew.1) present
    | inr before =>
      exact withInstance_keeps.carries
        (furnished.carries ⟨found, before, isInstance⟩ fun lacks => present (.inl lacks))

end Changes

end Registry

namespace Registration

open Registry

/-- Replacing parameters keeps a registry furnished, takes nothing back, and gives what can stand
for the type. -/
def Furnishes (replace : TypeId → Registration TypeId) (substitution : Substitution) : Prop :=
  ∀ ⦃lacking before type result after⦄, before.Furnished lacking → before.Suits substitution →
    before.Has type → replace type before = .ok (result, after) →
      after.Furnished lacking ∧ after.Keeps before ∧ after.Stands type result

/-- What is done to part after part keeps a registry furnished if it does so for each part, and what
it gives for each part is still there in the end. -/
theorem forM_furnished {α : Type} {lacking : TypeId → Prop} {base after : Registry}
    {parts : List α} {action : α → Registration Unit} (given : α → Registry → Prop)
    (persists : ∀ {part later earlier}, later.Keeps earlier → given part earlier →
      given part later)
    (step : ∀ {part before after}, part ∈ parts → before.Furnished lacking → before.Keeps base →
      action part before = .ok ((), after) →
        after.Furnished lacking ∧ after.Keeps before ∧ given part after)
    (furnished : base.Furnished lacking) (ended : parts.forM action base = .ok ((), after)) :
    after.Furnished lacking ∧ after.Keeps base ∧ ∀ part ∈ parts, given part after := by
  obtain ⟨endFurnished, endKept, -, each⟩ := Work.forM_induct
    (fun rest registry => registry.Furnished lacking ∧ registry.Keeps base ∧ rest ⊆ parts ∧
      ∀ part ∈ parts, part ∈ rest ∨ given part registry)
    (fun next rest before after ⟨isFurnished, kept, within, done⟩ acted => by
      have isPart : next ∈ parts := within (List.mem_cons_self ..)
      obtain ⟨furnished', kept', isGiven⟩ := step isPart isFurnished kept acted
      refine ⟨furnished', kept'.trans kept, fun _ inRest => within (List.mem_cons_of_mem _ inRest),
        fun part isPart => ?_⟩
      cases done part isPart with
      | inr earlier => exact .inr (persists kept' earlier)
      | inl remaining =>
        cases List.mem_cons.mp remaining with
        | inl isNext => exact .inr (isNext ▸ isGiven)
        | inr inRest => exact .inl inRest)
    ⟨furnished, .refl _, fun _ => id, fun _ => .inl⟩ ended
  refine ⟨endFurnished, endKept, fun part isPart => ?_⟩
  exact (each part isPart).resolve_left List.not_mem_nil

section Copies

variable {replace : TypeId → Registration TypeId} {substitution : Substitution}
  (furnishes : Furnishes replace substitution) {lacking : TypeId → Prop}
  {before after : Registry}
include furnishes

/-- Types in sequence are replaced by types that can stand for them. -/
theorem Furnishes.mapM {types results : List TypeId} (furnished : before.Furnished lacking)
    (suits : before.Suits substitution) (registered : ∀ type ∈ types, before.Has type)
    (replaced : types.mapM replace before = .ok (results, after)) :
    after.Furnished lacking ∧ after.Keeps before ∧ List.Forall₂ after.Stands types results := by
  induction types generalizing before results with
  | nil =>
    obtain ⟨rfl, rfl⟩ := Work.pure_eq_ok.mp replaced
    exact ⟨furnished, .refl _, .nil⟩
  | cons type rest ih =>
    obtain ⟨result, results', middle, first, tail, rfl⟩ := Work.mapM_cons_eq_ok.mp replaced
    obtain ⟨middleFurnished, kept, stands⟩ :=
      furnishes furnished suits (registered type (List.mem_cons_self ..)) first
    obtain ⟨afterFurnished, further, stand⟩ := ih middleFurnished (kept.suits suits)
      (fun other inRest => kept.has (registered other (List.mem_cons_of_mem _ inRest))) tail
    exact ⟨afterFurnished, further.trans kept, .cons (further.stands stands) stand⟩

/-- A signature is replaced by one of registered types, of the same arity, that answers with what
can stand for what the signature answered with. -/
theorem Furnishes.copyKind {kind result : MemberKind} (furnished : before.Furnished lacking)
    (suits : before.Suits substitution) (registered : ∀ type ∈ kind.types, before.Has type)
    (copied : copyKind replace kind before = .ok (result, after)) :
    after.Furnished lacking ∧ after.Keeps before ∧ (∀ type ∈ result.types, after.Has type) ∧
      result.arity = kind.arity ∧ after.Stands kind.answer result.answer := by
  cases kind with
  | method parameters returns =>
    obtain ⟨parameters', returns', middle, first, answer, rfl⟩ := copyMethod_eq_ok.mp copied
    obtain ⟨middleFurnished, kept, stand⟩ := furnishes.mapM furnished suits
      (fun type isParameter => registered type (List.mem_append_left _ isParameter)) first
    have returnsHas : middle.Has returns :=
      kept.has (registered returns (List.mem_append_right _ (List.mem_singleton.mpr rfl)))
    obtain ⟨afterFurnished, further, stands⟩ :=
      furnishes middleFurnished (kept.suits suits) returnsHas answer
    refine ⟨afterFurnished, further.trans kept, fun type isType => ?_,
      congrArg some stand.length_eq.symm, stands⟩
    cases List.mem_append.mp isType with
    | inl isParameter =>
      obtain ⟨place, bound, rfl⟩ := List.mem_iff_getElem.mp isParameter
      have standsThere := stand.get (Nat.lt_of_lt_of_eq bound stand.length_eq.symm) bound
      exact further.has standsThere.has
    | inr isReturns =>
      rw [List.mem_singleton.mp isReturns]
      exact stands.has
  | property type =>
    obtain ⟨type', answer, rfl⟩ := copyProperty_eq_ok.mp copied
    obtain ⟨afterFurnished, kept, stands⟩ :=
      furnishes furnished suits (registered type (List.mem_singleton.mpr rfl)) answer
    refine ⟨afterFurnished, kept, fun other isType => ?_, rfl, stands⟩
    rw [List.mem_singleton.mp isType]
    exact stands.has

/-- What stands for a registered member is registered. -/
theorem Furnishes.counterpart {contract result : MemberId} (furnished : before.Furnished lacking)
    (suits : before.Suits substitution) (registered : before.HasMember contract)
    (asked : counterpart replace contract before = .ok (result, after)) :
    after.Furnished lacking ∧ after.Keeps before ∧ after.HasMember result := by
  obtain ⟨entry, owner, known, replaced, decided⟩ := counterpart_eq_ok.mp asked
  obtain ⟨ownerEntry, ownerKnown, -⟩ := furnished.listed known
  obtain ⟨afterFurnished, kept, -⟩ :=
    furnishes furnished suits (has_iff.mpr ⟨ownerEntry, ownerKnown⟩) replaced
  have stillRegistered := kept.hasMember registered
  refine ⟨afterFurnished, kept, ?_⟩
  rcases decided with ⟨-, rfl⟩ | ⟨-, target, source, targetKnown, -, rfl⟩
  · exact stillRegistered
  · cases atPlace : (source.members.idxOf? (entry.definition.getD contract)).bind
        fun place => target.members[place]? with
    | none => exact stillRegistered
    | some listed =>
      obtain ⟨place, -, holds⟩ := Option.bind_eq_some_iff.mp atPlace
      exact afterFurnished.listed_has targetKnown (List.mem_of_getElem? holds)

/-- What stands for a registered member is registered, if there is a member at all. -/
theorem Furnishes.counterparts {contract result : Option MemberId}
    (furnished : before.Furnished lacking) (suits : before.Suits substitution)
    (registered : ∀ member ∈ contract, before.HasMember member)
    (asked : contract.mapM (Registration.counterpart replace) before = .ok (result, after)) :
    after.Furnished lacking ∧ after.Keeps before ∧ ∀ member ∈ result, after.HasMember member := by
  cases contract with
  | none =>
    obtain ⟨rfl, rfl⟩ := Work.pure_eq_ok.mp asked
    exact ⟨furnished, .refl _, fun _ isMember => nomatch isMember⟩
  | some contract =>
    obtain ⟨result', found, rfl⟩ := Work.map_eq_ok.mp asked
    obtain ⟨afterFurnished, kept, has⟩ :=
      furnishes.counterpart furnished suits (registered contract rfl) found
    refine ⟨afterFurnished, kept, fun member isMember => ?_⟩
    cases isMember
    exact has

variable {type : TypeId}

/-- Copying a base keeps a registry furnished. -/
theorem Furnishes.copyBase {base : TypeId} (furnished : before.Furnished lacking)
    (suits : before.Suits substitution) (registered : before.Has base)
    (copied : copyBase replace type base before = .ok ((), after)) :
    after.Furnished lacking ∧ after.Keeps before := by
  obtain ⟨base', middle, entry, replaced, known, rfl⟩ := copyBase_eq_ok.mp copied
  obtain ⟨middleFurnished, kept, stands⟩ := furnishes furnished suits registered replaced
  have amends := Amends.of_links known (fun entry => { entry with base := some base' })
    fun _ => rfl
  obtain ⟨afterFurnished, further⟩ := middleFurnished.withBase stands.has amends
  exact ⟨afterFurnished, further.trans kept⟩

/-- Copying a contract lists what can stand for it. -/
theorem Furnishes.copyInterface {interface : TypeId} (furnished : before.Furnished lacking)
    (suits : before.Suits substitution) (registered : before.IsContract interface)
    (copied : copyInterface replace type interface before = .ok ((), after)) :
    after.Furnished lacking ∧ after.Keeps before ∧
      ∃ result, after.Stands interface result ∧ after.Inherits type result := by
  obtain ⟨interface', middle, entry, replaced, known, rfl⟩ := copyInterface_eq_ok.mp copied
  obtain ⟨contractEntry, contractKnown, -⟩ := id registered
  obtain ⟨middleFurnished, kept, stands⟩ :=
    furnishes furnished suits (has_iff.mpr ⟨contractEntry, contractKnown⟩) replaced
  have amends := Amends.of_links known
    (fun entry => { entry with interfaces := entry.interfaces ++ [interface'] }) fun _ => rfl
  have isContract := stands.isContract middleFurnished.toClosed (kept.isContract registered)
  obtain ⟨afterFurnished, further⟩ := middleFurnished.withInterface isContract amends
  have isListed : interface' ∈ entry.interfaces ++ [interface'] :=
    List.mem_append_right _ (List.mem_singleton.mpr rfl)
  exact ⟨afterFurnished, further.trans kept, interface', further.stands stands, _, amends.after,
    isListed⟩

/-- Copying a member to an instance lists, after the members that the instance has, one that can
stand for the member. -/
theorem Furnishes.copyMember {entry : TypeEntry} {member : MemberId} {source : MemberEntry}
    (leaves : ∀ type, LeavesAll (replace type)) (furnished : before.Furnished lacking)
    (suits : before.Suits substitution) (known : before.type? type = some entry)
    (isInstance : entry.definition ≠ none) (sourceKnown : before.member? member = some source)
    (copied : copyMember replace type member before = .ok ((), after)) :
    after.Furnished lacking ∧ after.Keeps before ∧ ∃ copy,
      after.type? type = some { entry with members := entry.members ++ [copy] } ∧
        after.StandsIn member copy := by
  obtain ⟨_, kind, middle, implements, last, _, sourceKnown', kindCopied, counterparts, -, rfl⟩ :=
    copyMember_eq_ok.mp copied
  cases sourceKnown.symm.trans sourceKnown'
  obtain ⟨middleFurnished, kept, typesHave, sameArity, answers⟩ := furnishes.copyKind furnished
    suits (fun _ isType => furnished.signatures sourceKnown isType) kindCopied
  obtain ⟨lastFurnished, further, implementsHave⟩ := furnishes.counterparts middleFurnished
    (kept.suits suits)
    (fun _ implements => kept.hasMember (furnished.implemented sourceKnown implements))
    counterparts
  have toLast := further.trans kept
  have knownLast : last.type? type = some entry :=
    composes_leaves.counterparts leaves _ counterparts trivial
      (composes_leaves.copyKind leaves _ kindCopied trivial known)
  have sourceLast := toLast.members sourceKnown
  have originKnown := lastFurnished.origin_lt sourceLast
  have amends := Amends.of_member
    ⟨source.name, type, source.flags, kind, implements, some (source.definition.getD member)⟩
    knownLast rfl (fun isNone => absurd isNone isInstance)
    (fun origin isOrigin => Option.some.inj isOrigin ▸ originKnown)
  obtain ⟨afterFurnished, final⟩ := lastFurnished.withMember
    (fun other isType => further.has (typesHave other isType)) implementsHave amends
  refine ⟨afterFurnished, final.trans toLast, ⟨last.members.size⟩, amends.after, source, _,
    final.members sourceLast, amends.member?_added rfl, ⟨rfl, rfl, sameArity⟩, ?_⟩
  rw [MemberEntry.valueType_eq, MemberEntry.valueType_eq]
  exact (final.trans further).stands answers

end Copies

end Registration

end Foreach
