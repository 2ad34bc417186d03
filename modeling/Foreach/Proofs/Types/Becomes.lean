import Mathlib.Data.List.Forall2
import Foreach.Proofs.Work
import Foreach.Types.Instantiation

/-!
# What types become

Under a substitution a parameter becomes its argument, an instance becomes the registered instance
of its definition at what its arguments become, and every other type stays. `Registry.Becomes` reads
this off a registry, without making anything.

A registry only grows: entries keep what decides about instances, members keep their entries, and
instantiations stay recorded (`Registry.Grows`). What a type becomes, it becomes ever after.
-/
namespace Foreach

namespace Registry

/-- The instance of a definition at arguments, if there is one. The definition itself stands for its
instance at its own parameters. -/
def instanceAt? (registry : Registry) (definition : TypeId) (arguments : List TypeId) :
    Option TypeId :=
  (registry.type? definition).bind fun entry =>
    if entry.parameters = arguments then some definition
    else registry.instance? definition arguments

/-- What a type becomes under a substitution. -/
inductive Becomes (registry : Registry) (substitution : Substitution) : TypeId → TypeId → Prop where
  /-- A parameter becomes its argument. -/
  | argument {type argument : TypeId} (replaced : substitution.argument? type = some argument) :
    Becomes registry substitution type argument
  /-- A type that is no instance stays. -/
  | whole {type : TypeId} {entry : TypeEntry} (kept : substitution.argument? type = none)
    (known : registry.type? type = some entry) (uncopied : entry.definition = none) :
    Becomes registry substitution type type
  /-- An instance becomes the registered instance at what its arguments become. -/
  | made {type definition result : TypeId} {entry : TypeEntry} {arguments : List TypeId}
    (kept : substitution.argument? type = none) (known : registry.type? type = some entry)
    (copied : entry.definition = some definition)
    (same : entry.arguments.length = arguments.length)
    (each : ∀ pair ∈ entry.arguments.zip arguments, Becomes registry substitution pair.1 pair.2)
    (found : registry.instanceAt? definition arguments = some result) :
    Becomes registry substitution type result

/-- What a signature becomes. -/
inductive KindBecomes (registry : Registry) (substitution : Substitution) :
    MemberKind → MemberKind → Prop where
  /-- A method's parameter types and its result type become something each. -/
  | method {parameters others : List TypeId} {returns other : TypeId}
    (each : List.Forall₂ (registry.Becomes substitution) parameters others)
    (answer : registry.Becomes substitution returns other) :
    KindBecomes registry substitution (.method parameters returns) (.method others other)
  /-- A property's type becomes something. -/
  | property {type other : TypeId} (answer : registry.Becomes substitution type other) :
    KindBecomes registry substitution (.property type) (.property other)

/-- One registry is another that has grown. -/
structure Grows (later earlier : Registry) : Prop where
  /-- Types keep what decides about instances, and members are only added. -/
  types : ∀ {type entry}, earlier.type? type = some entry → ∃ changed,
    later.type? type = some changed ∧ changed.parameters = entry.parameters ∧
      changed.definition = entry.definition ∧ changed.arguments = entry.arguments ∧
      ∃ added, changed.members = entry.members ++ added ∧
        ∀ member ∈ added, earlier.members.size ≤ member.index
  /-- Members keep their entries. -/
  members : ∀ {member entry}, earlier.member? member = some entry →
    later.member? member = some entry
  /-- There are no fewer members. -/
  count : earlier.members.size ≤ later.members.size
  /-- Instantiations stay recorded. -/
  instantiations : ∃ added, later.instantiations = earlier.instantiations ++ added

/-- A registry has grown, and the types that are no instances are as they were. -/
structure Extends (later earlier : Registry) : Prop extends Grows later earlier where
  /-- Types that are no instances keep their entries. -/
  definitions : ∀ {type entry}, earlier.type? type = some entry → entry.definition = none →
    later.type? type = some entry

/-- A registry has grown from itself. -/
theorem Grows.refl (registry : Registry) : registry.Grows registry where
  types known := ⟨_, known, rfl, rfl, rfl, [], by simp⟩
  members := id
  count := Nat.le_refl _
  instantiations := ⟨[], by simp⟩

/-- What has grown from a grown registry has grown from the registry. -/
theorem Grows.trans {first second third : Registry} (later : third.Grows second)
    (earlier : second.Grows first) : third.Grows first := by
  obtain ⟨laterAdded, laterSame⟩ := later.instantiations
  obtain ⟨earlierAdded, earlierSame⟩ := earlier.instantiations
  refine ⟨?_, later.members ∘ earlier.members, Nat.le_trans earlier.count later.count,
    earlierAdded ++ laterAdded, by rw [laterSame, earlierSame, List.append_assoc]⟩
  intro type entry known
  obtain ⟨changed, found, parameters, definition, arguments, added, members, fresh⟩ :=
    earlier.types known
  obtain ⟨final, reached, parameters', definition', arguments', more, members', newer⟩ :=
    later.types found
  refine ⟨final, reached, parameters'.trans parameters, definition'.trans definition,
    arguments'.trans arguments, added ++ more, ?_, ?_⟩
  · rw [members', members, List.append_assoc]
  · intro member listed
    cases List.mem_append.mp listed with
    | inl inFirst => exact fresh member inFirst
    | inr inSecond => exact Nat.le_trans earlier.count (newer member inSecond)

/-- A registry extends itself. -/
theorem Extends.refl (registry : Registry) : registry.Extends registry :=
  ⟨.refl registry, fun known _ => known⟩

/-- What extends an extended registry extends the registry. -/
theorem Extends.trans {first second third : Registry} (later : third.Extends second)
    (earlier : second.Extends first) : third.Extends first :=
  ⟨later.toGrows.trans earlier.toGrows, fun known uncopied =>
    later.definitions (earlier.definitions known uncopied) uncopied⟩

/-- A recorded instance is found ever after. -/
theorem Grows.instance? {later earlier : Registry} (grown : later.Grows earlier)
    {definition result : TypeId} {arguments : List TypeId}
    (found : earlier.instance? definition arguments = some result) :
    later.instance? definition arguments = some result := by
  obtain ⟨added, same⟩ := grown.instantiations
  obtain ⟨made, first, rfl⟩ := Option.map_eq_some_iff.mp found
  rw [Registry.instance?, same, List.find?_append, first]
  rfl

/-- The instance at arguments is found ever after. -/
theorem Grows.instanceAt? {later earlier : Registry} (grown : later.Grows earlier)
    {definition result : TypeId} {arguments : List TypeId}
    (found : earlier.instanceAt? definition arguments = some result) :
    later.instanceAt? definition arguments = some result := by
  obtain ⟨entry, known, decided⟩ := Option.bind_eq_some_iff.mp found
  obtain ⟨changed, reached, parameters, -⟩ := grown.types known
  refine Option.bind_eq_some_iff.mpr ⟨changed, reached, ?_⟩
  rw [parameters]
  by_cases own : entry.parameters = arguments
  · rw [if_pos own] at decided ⊢
    exact decided
  · rw [if_neg own] at decided ⊢
    exact grown.instance? decided

/-- What a type becomes, it becomes ever after. -/
theorem Becomes.grow {later earlier : Registry} (grown : later.Grows earlier)
    {substitution : Substitution} {type result : TypeId}
    (becomes : earlier.Becomes substitution type result) :
    later.Becomes substitution type result := by
  induction becomes with
  | argument replaced => exact .argument replaced
  | whole kept known uncopied =>
    obtain ⟨changed, reached, -, definition, -⟩ := grown.types known
    exact .whole kept reached (definition.trans uncopied)
  | made kept known copied same each found ih =>
    obtain ⟨changed, reached, -, definition, arguments, -⟩ := grown.types known
    rw [← arguments] at same ih
    exact .made kept reached (definition.trans copied) same ih (grown.instanceAt? found)

/-- What a signature becomes, it becomes ever after. -/
theorem KindBecomes.grow {later earlier : Registry} (grown : later.Grows earlier)
    {substitution : Substitution} {kind other : MemberKind}
    (becomes : earlier.KindBecomes substitution kind other) :
    later.KindBecomes substitution kind other := by
  cases becomes with
  | method each answer => exact .method (each.imp fun _ _ => Becomes.grow grown) (answer.grow grown)
  | property answer => exact .property (answer.grow grown)

/-- What stands at one place of two lists is a pair of them. -/
theorem getElem_mem_zip {α β : Type} {left : List α} {right : List β} {place : Nat}
    (inLeft : place < left.length) (inRight : place < right.length) :
    (left[place], right[place]) ∈ left.zip right := by
  refine List.mem_iff_getElem.mpr ⟨place, ?_, List.getElem_zip⟩
  rw [List.length_zip]
  exact Nat.lt_min.mpr ⟨inLeft, inRight⟩

/-- A type becomes one type at most. -/
theorem Becomes.unique {registry : Registry} {substitution : Substitution}
    {type result other : TypeId} (first : registry.Becomes substitution type result)
    (second : registry.Becomes substitution type other) : result = other := by
  induction first generalizing other with
  | argument replaced =>
    cases second with
    | argument replaced' => exact Option.some.inj (replaced.symm.trans replaced')
    | whole kept | made kept => cases kept.symm.trans replaced
  | whole kept known uncopied =>
    cases second with
    | argument replaced => cases kept.symm.trans replaced
    | whole => rfl
    | made _ known' copied =>
      cases known.symm.trans known'
      cases uncopied.symm.trans copied
  | @made _ _ _ _ arguments kept known copied same each found ih =>
    cases second with
    | argument replaced => cases kept.symm.trans replaced
    | whole _ known' uncopied =>
      cases known.symm.trans known'
      cases uncopied.symm.trans copied
    | @made _ _ _ _ arguments' _ known' copied' same' each' found' =>
      cases known.symm.trans known'
      cases copied.symm.trans copied'
      have equal : arguments = arguments' := by
        refine List.ext_getElem (same.symm.trans same') fun place bound bound' => ?_
        have inEntry := Nat.lt_of_lt_of_eq bound same.symm
        exact ih _ (getElem_mem_zip inEntry bound) (each' _ (getElem_mem_zip inEntry bound'))
      rw [equal] at found
      exact Option.some.inj (found.symm.trans found')

end Registry

end Foreach
