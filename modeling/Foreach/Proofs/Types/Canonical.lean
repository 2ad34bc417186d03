import Foreach.Proofs.Types.Commuting
import Foreach.Proofs.Types.Termination

/-!
# Instantiations are canonical

The entries of instances, the record of instantiations and the lists of instances tell one story
(`Registry.Canonical`). A generic definition at arguments is one type: the definition itself at its
own parameters, and elsewhere the one instance there (`Registry.StandsAt`).

Instantiating a definition gives this type. So does replacing parameters in an instance, at the
arguments that are left after replacing, and so does either in the middle of other registrations,
when instances may lack what their definitions have (`Registry.Computed`). Whichever way two types
were come by, they are one if and only if definition and arguments are.
-/
namespace Foreach

namespace Registry

/-- A type is the instance of a definition at arguments. -/
def IsInstanceAt (registry : Registry) (type definition : TypeId) (arguments : List TypeId) :
    Prop :=
  ∃ entry, registry.type? type = some entry ∧ entry.definition = some definition ∧
    entry.arguments = arguments

/-- A type stands at arguments of a generic definition. -/
inductive StandsAt (registry : Registry) (definition : TypeId) (arguments : List TypeId) :
    TypeId → Prop where
  /-- A definition stands at its own parameters. -/
  | own {whole : TypeEntry} (known : registry.type? definition = some whole)
    (generic : whole.flags.genericDefinition = true) (same : whole.parameters = arguments) :
    StandsAt registry definition arguments definition
  /-- An instance stands at its arguments. -/
  | made {type : TypeId} (isInstance : registry.IsInstanceAt type definition arguments) :
    StandsAt registry definition arguments type

/-- The entries of instances, the record of instantiations and the lists of instances agree, and
there is one instance at most for a definition at arguments. -/
structure Canonical (registry : Registry) : Prop where
  /-- A definition has one instance at most for each list of arguments. -/
  unique : ∀ {type other definition arguments}, registry.IsInstanceAt type definition arguments →
    registry.IsInstanceAt other definition arguments → type = other
  /-- Nothing is the instance of a definition at the definition's own parameters. -/
  proper : ∀ {type definition whole}, registry.type? definition = some whole →
    ¬ registry.IsInstanceAt type definition whole.parameters
  /-- The record gives the instance at arguments, and nothing else. -/
  recorded : ∀ {type definition arguments},
    registry.instance? definition arguments = some type ↔
      registry.IsInstanceAt type definition arguments
  /-- A definition at arguments is recorded once. -/
  once : (registry.instantiations.map fun made => (made.definition, made.arguments)).Nodup
  /-- The instances of a definition are listed, and nothing else. -/
  listed : ∀ {type definition}, type ∈ registry.instancesOf definition ↔
    ∃ arguments, registry.IsInstanceAt type definition arguments
  /-- The instances of a definition are listed in the order in which they are recorded. -/
  ordered : ∀ definition, registry.instancesOf definition =
    (registry.instantiations.filter fun made => made.definition = definition).map
      Instantiation.result
  /-- Each instance is listed once. -/
  distinct : ∀ definition, (registry.instancesOf definition).Nodup

namespace WellFormed

variable {registry : Registry} (formed : registry.WellFormed)
include formed

/-- The record gives the instance at arguments, and nothing else. -/
theorem instance?_eq_some {type definition : TypeId} {arguments : List TypeId} :
    registry.instance? definition arguments = some type ↔
      registry.IsInstanceAt type definition arguments := by
  refine ⟨formed.of_instance?, ?_⟩
  rintro ⟨entry, known, isCopy, rfl⟩
  exact (formed.copied known isCopy).1

/-- Nothing is the instance of a definition at the definition's own parameters. -/
theorem not_isInstanceAt_parameters {type definition : TypeId} {whole : TypeEntry}
    (wholeKnown : registry.type? definition = some whole) :
    ¬ registry.IsInstanceAt type definition whole.parameters := by
  rintro ⟨entry, known, isCopy, same⟩
  obtain ⟨-, whole', wholeKnown', -, -, proper, -⟩ := formed.copied known isCopy
  cases wholeKnown.symm.trans wholeKnown'
  exact proper same.symm

/-- A definition at arguments is recorded once, since each instance is. -/
theorem nodup_recorded :
    (registry.instantiations.map fun made => (made.definition, made.arguments)).Nodup := by
  have results := formed.results
  rw [List.Nodup, List.pairwise_map] at results ⊢
  refine results.imp_of_mem fun {first second} isFirst isSecond different same => different ?_
  obtain ⟨entry, known, isCopy, atArguments⟩ := formed.recorded isFirst
  obtain ⟨entry', known', isCopy', atArguments'⟩ := formed.recorded isSecond
  obtain ⟨sameDefinition, sameArguments⟩ := Prod.mk.inj same
  have found := formed.instance?_eq_some.mpr ⟨entry, known, isCopy, atArguments⟩
  have found' := formed.instance?_eq_some.mpr ⟨entry', known', isCopy', atArguments'⟩
  rw [sameDefinition, sameArguments] at found
  exact Option.some.inj (found.symm.trans found')

/-- Instantiations are canonical in a well-formed registry. -/
theorem canonical : registry.Canonical where
  unique isInstance isOther := Option.some.inj
    ((formed.instance?_eq_some.mpr isInstance).symm.trans (formed.instance?_eq_some.mpr isOther))
  proper := formed.not_isInstanceAt_parameters
  recorded := formed.instance?_eq_some
  once := formed.nodup_recorded
  listed := by
    intro type definition
    rw [formed.mem_instancesOf]
    constructor
    · rintro ⟨entry, known, isCopy⟩
      exact ⟨_, entry, known, isCopy, rfl⟩
    · rintro ⟨_, entry, known, isCopy, -⟩
      exact ⟨entry, known, isCopy⟩
  ordered := formed.instances
  distinct := formed.nodup_instancesOf

/-- Types that stand somewhere are one if and only if definition and arguments are. -/
theorem standsAt_eq_iff {type other definition definition' : TypeId}
    {arguments arguments' : List TypeId} (stands : registry.StandsAt definition arguments type)
    (stands' : registry.StandsAt definition' arguments' other) :
    type = other ↔ definition = definition' ∧ arguments = arguments' := by
  -- A generic definition is the instance of nothing.
  have uncopied {generic : TypeId} {whole : TypeEntry}
      (known : registry.type? generic = some whole)
      (isGeneric : whole.flags.genericDefinition = true) {origin : TypeId} {others : List TypeId} :
      ¬ registry.IsInstanceAt generic origin others := by
    rintro ⟨entry, known', isCopy, -⟩
    cases known.symm.trans known'
    cases isCopy.symm.trans (formed.generic known isGeneric)
  cases stands with
  | own known generic same =>
    cases stands' with
    | own known' _ same' =>
      refine ⟨?_, And.left⟩
      rintro rfl
      cases known.symm.trans known'
      exact ⟨rfl, same.symm.trans same'⟩
    | made isInstance =>
      refine iff_of_false ?_ ?_
      · rintro rfl
        exact uncopied known generic isInstance
      · rintro ⟨rfl, rfl⟩
        exact formed.not_isInstanceAt_parameters known (same ▸ isInstance)
  | made isInstance =>
    cases stands' with
    | own known generic same =>
      refine iff_of_false ?_ ?_
      · rintro rfl
        exact uncopied known generic isInstance
      · rintro ⟨rfl, rfl⟩
        exact formed.not_isInstanceAt_parameters known (same ▸ isInstance)
    | made isInstance' =>
      constructor
      · rintro rfl
        obtain ⟨entry, known, isCopy, rfl⟩ := isInstance
        obtain ⟨entry', known', isCopy', rfl⟩ := isInstance'
        cases known.symm.trans known'
        exact ⟨Option.some.inj (isCopy.symm.trans isCopy'), rfl⟩
      · rintro ⟨rfl, rfl⟩
        exact formed.canonical.unique isInstance isInstance'

end WellFormed

section Kept

variable {later earlier : Registry} (kept : later.Keeps earlier) {type definition : TypeId}
  {arguments : List TypeId}
include kept

/-- An instance stays one, of the same definition at the same arguments. -/
theorem Keeps.isInstanceAt (isInstance : earlier.IsInstanceAt type definition arguments) :
    later.IsInstanceAt type definition arguments := by
  obtain ⟨entry, known, isCopy, same⟩ := isInstance
  obtain ⟨changed, reached, continued⟩ := kept.entries known
  exact ⟨changed, reached, continued.definition.trans isCopy, continued.arguments.trans same⟩

/-- A type stands where it stood. -/
theorem Keeps.standsAt (stands : earlier.StandsAt definition arguments type) :
    later.StandsAt definition arguments type := by
  cases stands with
  | own known generic same =>
    obtain ⟨changed, reached, continued⟩ := kept.entries known
    exact .own reached (continued.flags ▸ generic) (continued.parameters.trans same)
  | made isInstance => exact .made (kept.isInstanceAt isInstance)

end Kept

end Registry

namespace Registration

open Registry

variable {before after : Registry} {lacking : TypeId → Prop}

/-- What is given for a definition at arguments stands there. -/
theorem instantiate_standsAt {depth : Nat} {definition type : TypeId} {arguments : List TypeId}
    (furnished : before.Furnished lacking)
    (registered : ∀ argument ∈ arguments, before.Has argument)
    (ran : instantiate depth definition arguments before = .ok (type, after)) :
    after.StandsAt definition arguments type := by
  obtain ⟨entry, known, generic, arity, decided⟩ := instantiateWith_cases ran
  rcases decided with ⟨own, rfl, rfl⟩ | ⟨proper, ⟨isRecorded, rfl⟩ | isNew⟩
  · exact .own known generic own
  · exact .made (furnished.of_instance? isRecorded)
  · obtain ⟨absent, rfl, first, second, baseCopied, interfacesCopied, membersCopied⟩ := isNew
    obtain ⟨-, kept⟩ := newInstance_furnishes (substitute_furnishes depth)
      (substitute_leaves depth) furnished registered known generic arity proper absent baseCopied
      interfacesCopied membersCopied
    exact kept.standsAt
      (.made ⟨_, before.type?_withInstance_self definition arguments entry, rfl, rfl⟩)

/-- Nothing changes when a definition is instantiated where a type stands already. -/
theorem instantiate_unchanged {depth : Nat} {definition type existing : TypeId}
    {arguments : List TypeId} (formed : before.WellFormed)
    (stands : before.StandsAt definition arguments existing)
    (ran : instantiate depth definition arguments before = .ok (type, after)) : after = before := by
  obtain ⟨entry, known, -, -, decided⟩ := instantiateWith_cases ran
  rcases decided with ⟨-, -, unchanged⟩ | ⟨proper, ⟨-, unchanged⟩ | ⟨absent, -⟩⟩
  · exact unchanged
  · exact unchanged
  · cases stands with
    | own known' _ same =>
      cases known.symm.trans known'
      exact absurd same proper
    | made isInstance =>
      cases absent.symm.trans (formed.instance?_eq_some.mpr isInstance)

/-- What an instance is replaced by stands at what its arguments are replaced by. -/
theorem substitute_standsAt {depth : Nat} {substitution : Substitution}
    {type definition result : TypeId} {entry : TypeEntry} {arguments : List TypeId}
    {middle : Registry} (furnished : before.Furnished lacking)
    (suits : before.Suits substitution) (proper : substitution ≠ [])
    (kept : substitution.argument? type = none) (known : before.type? type = some entry)
    (isCopy : entry.definition = some definition)
    (listed : entry.arguments.mapM (substitute depth substitution) before =
      .ok (arguments, middle))
    (ran : substitute (depth + 1) substitution type before = .ok (result, after)) :
    after.StandsAt definition arguments result := by
  obtain ⟨isReplaced, -⟩ | ⟨-, entry', known', decided⟩ := substitute_cases proper ran
  · cases kept.symm.trans isReplaced
  cases known.symm.trans known'
  obtain ⟨uncopied, -⟩ | ⟨definition', arguments', middle', isCopy', listed', made⟩ := decided
  · cases isCopy.symm.trans uncopied
  cases isCopy.symm.trans isCopy'
  cases listed.symm.trans listed'
  obtain ⟨middleFurnished, middleKept, stand⟩ := (substitute_furnishes depth substitution).mapM
    furnished suits (fun argument isArgument => furnished.arguments known isArgument) listed
  rcases made with ⟨same, rfl, rfl⟩ | made
  · exact middleKept.standsAt (.made ⟨entry, known, isCopy, same.symm⟩)
  · refine instantiate_standsAt middleFurnished (fun argument isArgument => ?_) made
    obtain ⟨place, bound, rfl⟩ := List.mem_iff_getElem.mp isArgument
    exact (stand.get (Nat.lt_of_lt_of_eq bound stand.length_eq.symm) bound).has

end Registration

namespace Registry

variable {mayEdit : TypeEntry → Prop} {registry : Registry}

/-- A type was given for a definition at arguments, at a time when instances may have lacked what
their definitions have, and nothing was taken back since. -/
inductive Computed (registry : Registry) : TypeId → List TypeId → TypeId → Prop where
  /-- The definition was instantiated at the arguments. -/
  | instantiated {before after : Registry} {lacking : TypeId → Prop} {depth : Nat}
    {definition type : TypeId} {arguments : List TypeId} (furnished : before.Furnished lacking)
    (registered : ∀ argument ∈ arguments, before.Has argument)
    (ran : Registration.instantiate depth definition arguments before = .ok (type, after))
    (kept : registry.Keeps after) : Computed registry definition arguments type
  /-- Parameters were replaced in an instance, whose arguments became the arguments. -/
  | replaced {before middle after : Registry} {lacking : TypeId → Prop} {depth : Nat}
    {substitution : Substitution} {entry : TypeEntry} {definition type result : TypeId}
    {arguments : List TypeId} (furnished : before.Furnished lacking)
    (suits : before.Suits substitution) (proper : substitution ≠ [])
    (whole : substitution.argument? type = none) (known : before.type? type = some entry)
    (isCopy : entry.definition = some definition)
    (listed : entry.arguments.mapM (Registration.substitute depth substitution) before =
      .ok (arguments, middle))
    (ran : Registration.substitute (depth + 1) substitution type before = .ok (result, after))
    (kept : registry.Keeps after) : Computed registry definition arguments result

/-- What was given for a definition at arguments stands there ever after. -/
theorem Computed.standsAt {definition type : TypeId} {arguments : List TypeId}
    (computed : registry.Computed definition arguments type) :
    registry.StandsAt definition arguments type := by
  cases computed with
  | instantiated furnished registered ran kept =>
    exact kept.standsAt (Registration.instantiate_standsAt furnished registered ran)
  | replaced furnished suits proper whole known isCopy listed ran kept =>
    exact kept.standsAt
      (Registration.substitute_standsAt furnished suits proper whole known isCopy listed ran)

/-- Instantiating a definition at arguments gives the one type that stands there. -/
structure InstantiatesOnce (registry : Registry) (definition : TypeId) (whole : TypeEntry)
    (arguments : List TypeId) : Prop where
  /-- Instantiating returns. -/
  returns : Registration.Returns
    (fun depth => Registration.instantiate depth definition arguments) registry
  /-- The definition itself is given exactly at its own parameters. -/
  own : ∀ {depth type after},
    Registration.instantiate depth definition arguments registry = .ok (type, after) →
      (type = definition ↔ arguments = whole.parameters)
  /-- Elsewhere the instance at the arguments is given, which is the only one. -/
  made : ∀ {depth type after},
    Registration.instantiate depth definition arguments registry = .ok (type, after) →
      arguments ≠ whole.parameters →
        ∀ other, after.IsInstanceAt other definition arguments ↔ other = type
  /-- Where a type stands already, that type is given, and nothing changes. -/
  unchanged : ∀ {depth type after existing},
    Registration.instantiate depth definition arguments registry = .ok (type, after) →
      registry.StandsAt definition arguments existing → type = existing ∧ after = registry

/-- In every registry that is built, whatever may be edited, instantiations are canonical: entries,
record and lists of instances agree, each registered definition can be instantiated at registered
arguments and gives the one type that stands there, and what was ever given for definitions at
arguments is the same type if and only if definition and arguments are the same. -/
theorem Built.instantiations_canonical (built : Built mayEdit registry) :
    registry.Canonical ∧
    (∀ {definition whole arguments}, registry.type? definition = some whole →
      whole.flags.genericDefinition = true → whole.parameters.length = arguments.length →
        (∀ argument ∈ arguments, registry.Has argument) →
          registry.InstantiatesOnce definition whole arguments) ∧
    ∀ {definition definition' arguments arguments' type type'},
      registry.Computed definition arguments type →
        registry.Computed definition' arguments' type' →
          (type = type' ↔ definition = definition' ∧ arguments = arguments') := by
  have formed := built.complete.toWellFormed
  refine ⟨formed.canonical, fun {definition whole arguments} known generic arity registered => ?_,
    fun computed computed' => formed.standsAt_eq_iff computed.standsAt computed'.standsAt⟩
  have builtAfter {depth : Nat} {type : TypeId} {after : Registry}
      (ran : Registration.instantiate depth definition arguments registry = .ok (type, after)) :
      after.Keeps registry ∧ after.WellFormed ∧ after.StandsAt definition arguments type := by
    have edit : Edit mayEdit registry after := .instantiate registered ran
    obtain ⟨complete, kept⟩ := edit.complete built.complete
    exact ⟨kept, complete.toWellFormed,
      Registration.instantiate_standsAt built.complete registered ran⟩
  constructor
  case returns => exact built.instantiate_returns known generic arity registered
  case own =>
    intro depth type after ran
    obtain ⟨kept, afterFormed, stands⟩ := builtAfter ran
    have own := kept.standsAt (.own known generic rfl)
    rw [afterFormed.standsAt_eq_iff stands own, eq_self_iff_true, true_and]
  case made =>
    intro depth type after ran elsewhere other
    obtain ⟨kept, afterFormed, stands⟩ := builtAfter ran
    have isInstance : after.IsInstanceAt type definition arguments := by
      cases stands with
      | own known' _ same =>
        obtain ⟨changed, reached, continued⟩ := kept.entries known
        cases reached.symm.trans known'
        exact absurd (same.symm.trans continued.parameters) elsewhere
      | made isInstance => exact isInstance
    refine ⟨fun isOther => afterFormed.canonical.unique isOther isInstance, ?_⟩
    rintro rfl
    exact isInstance
  case unchanged =>
    intro depth type after existing ran stands
    obtain rfl := Registration.instantiate_unchanged formed stands ran
    exact ⟨(formed.standsAt_eq_iff (builtAfter ran).2.2 stands).mpr ⟨rfl, rfl⟩, rfl⟩

/-- The enumerator of integers, which was made while the enumerable of integers was, is the one
instance of its definition at integers: instantiating gives it again and changes nothing, whatever
was given for the definition at integers is this type, and what was given for the enumerable is
not. -/
theorem enumerableOfInt_canonical :
    enumerableOfInt.Canonical ∧
    (∀ other, enumerableOfInt.IsInstanceAt other .genericEnumerator [.int] ↔ other = ⟨15⟩) ∧
    (∀ {depth type after}, Registration.instantiate depth .genericEnumerator [.int]
      enumerableOfInt = .ok (type, after) → type = ⟨15⟩ ∧ after = enumerableOfInt) ∧
    (∀ {type}, enumerableOfInt.Computed .genericEnumerator [.int] type → type = ⟨15⟩) ∧
    ∀ {type}, enumerableOfInt.Computed .genericEnumerable [.int] type → type ≠ ⟨15⟩ := by
  obtain ⟨canonical, instantiates, computed⟩ := enumerableOfInt_built.instantiations_canonical
  obtain ⟨whole, known, generic, arity, elsewhere⟩ :
      ∃ whole ∈ enumerableOfInt.type? .genericEnumerator,
        whole.flags.genericDefinition = true ∧ whole.parameters.length = [TypeId.int].length ∧
          [TypeId.int] ≠ whole.parameters := by
    decide
  have registered : ∀ argument ∈ [TypeId.int], enumerableOfInt.Has argument := by decide
  have once := instantiates known generic arity registered
  have ran : Registration.instantiate 1 .genericEnumerator [.int] enumerableOfInt =
      .ok (⟨15⟩, enumerableOfInt) := by decide
  have isComputed : enumerableOfInt.Computed .genericEnumerator [.int] ⟨15⟩ :=
    .instantiated enumerableOfInt_built.complete registered ran (.refl _)
  refine ⟨canonical, once.made ran elsewhere, fun ran' => ?_,
    fun other => (computed other isComputed).mpr ⟨rfl, rfl⟩, fun other same => ?_⟩
  · exact once.unchanged ran' (.made ((once.made ran elsewhere _).mpr rfl))
  · cases ((computed other isComputed).mp same).1

end Registry

end Foreach
