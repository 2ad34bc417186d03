import Foreach.Proofs.Types.Dispatch

/-!
# Which public member runs

A public member that is called on a value runs the nearest public member that is called alike, as a
look-up by name and signature from the type of the value finds it. On a type whose bases are no
contracts this is always some member, declared no further from the type than the one that is called,
and it runs itself when it is called again (`Registry.Built.runsNearest`). Members of the same name
that cannot be called alike are passed over, wherever they are declared.
-/
namespace Foreach

/-- A member cannot be called like another one of its name: it belongs to the type, it is not
visible, it serves a contract alone, or it is of another kind, a method with other parameters or a
property that cannot be read. -/
inductive MemberEntry.IsPassedOver (source target : MemberEntry) : Prop where
  /-- It belongs to the type and not to its values. -/
  | static (isStatic : source.flags.isStatic = true)
  /-- It is not visible from outside. -/
  | hidden (isHidden : source.flags.isPublic = false)
  /-- It serves one member of a contract and nothing else. -/
  | explicit (isExplicit : source.flags.isExplicit = true)
  /-- One is a method and the other a property. -/
  | otherKind (differs : source.isMethod ≠ target.isMethod)
  /-- It takes other parameters. -/
  | overload (differs : source.parameters ≠ target.parameters)
  /-- It is a property that cannot be read. -/
  | writeOnly (isProperty : source.isProperty = true) (unreadable : source.flags.hasGetter = false)

/-- What is called like a member is not passed over. -/
theorem MemberEntry.IsNamesake.not_isPassedOver {source target : MemberEntry}
    (isNamesake : source.IsNamesake target) : ¬ source.IsPassedOver target := by
  have signature := isNamesake.signature
  rintro (isStatic | isHidden | isExplicit | differs | differs | ⟨isProperty, unreadable⟩)
  · cases isStatic.symm.trans isNamesake.notStatic
  · cases isHidden.symm.trans isNamesake.isPublic
  · cases isExplicit.symm.trans isNamesake.notExplicit
  all_goals
    cases targetKind : target.kind with
    | method parameters result =>
      rw [targetKind] at signature
      obtain ⟨returns, sourceKind⟩ := signature
      simp_all [MemberEntry.isMethod, MemberEntry.isProperty, MemberEntry.parameters]
    | property type =>
      rw [targetKind] at signature
      obtain ⟨⟨other, sourceKind⟩, hasGetter⟩ := signature
      simp_all [MemberEntry.isMethod, MemberEntry.isProperty, MemberEntry.parameters]

namespace Registry

/-- A public member is called on a value of a type whose bases are no contracts, one of which
declares the member. -/
structure PublicCall (registry : Registry) (type : TypeId) (member : MemberId)
    (target : MemberEntry) (chain : List TypeId) : Prop where
  /-- The type and its bases. -/
  bases : registry.baseChain type = .ok chain
  /-- None of them is a contract. -/
  plain : ∀ scope ∈ chain, registry.isInterface scope = .ok false
  /-- The member is registered. -/
  known : registry.member? member = some target
  /-- It is declared on the type or one of its bases. -/
  declared : target.owner ∈ chain
  /-- It can be called: a public method of the values, or such a property that can be read. -/
  callable : target.IsNamesake target

/-- A member, with what is recorded of it, is what runs for a public member. -/
structure RunsNearest (registry : Registry) (type : TypeId) (target : MemberEntry)
    (chain : List TypeId) (found : MemberId) (source : MemberEntry) : Prop where
  /-- It is registered. -/
  known : registry.member? found = some source
  /-- It is a public member of the values, of the same kind, name and parameters. -/
  alike : source.IsNamesake target
  /-- It is declared on the type or one of its bases. -/
  declared : source.owner ∈ chain
  /-- It is declared no further from the type than the member that is called. -/
  noFurther : chain.idxOf source.owner ≤ chain.idxOf target.owner
  /-- It is the first of the nearest type that declares any that is called alike. -/
  nearest : registry.Nearest chain (·.IsNamesake target) found
  /-- A look-up by name and signature finds it. -/
  lookedUp : registry.findNamesake? type target = .ok (some found)
  /-- It runs itself. -/
  settled : registry.findImplementation? type found = .ok (some found)
  /-- A type all of whose members of the name are passed over does not declare it. -/
  unhindered : ∀ scope, (∀ entry other between, registry.type? scope = some entry →
    other ∈ entry.members → registry.member? other = some between → between.name = target.name →
      between.IsPassedOver target) → source.owner ≠ scope

section Calls

variable {mayEdit : TypeEntry → Prop} {registry : Registry} {type : TypeId} {member : MemberId}
  {target : MemberEntry} {chain : List TypeId}

/-- A type whose bases are known is registered, if there are any. -/
theorem has_of_mem_baseChain {scope : TypeId} (bases : registry.baseChain type = .ok chain)
    (isBase : scope ∈ chain) : registry.Has type := by
  rw [baseChain, baseWalk, Walk.toList] at bases
  cases size : registry.size with
  | zero =>
    rw [size, walkBases, if_pos rfl] at bases
    cases bases
    cases isBase
  | succ steps =>
    rw [size, walkBases] at bases
    cases known : registry.type? type with
    | none =>
      rw [known, if_neg Bool.false_ne_true] at bases
      cases bases
    | some entry => exact has_iff.mpr ⟨entry, known⟩

/-- A member is listed by its owner. -/
theorem WellFormed.lists_owner (formed : registry.WellFormed) {holds : MemberEntry → Prop}
    (known : registry.member? member = some target) (isHeld : holds target) :
    registry.Lists target.owner holds := by
  obtain ⟨entry, ownerKnown, isListed⟩ := formed.listed known
  exact ⟨entry, member, target, ownerKnown, isListed, known, isHeld⟩

/-- What is nearest is declared no further away than any other that the same holds of. -/
theorem Nearest.idxOf_owner_le (formed : registry.WellFormed) {holds : MemberEntry → Prop}
    {found : MemberId} {source : MemberEntry} (nearest : registry.Nearest chain holds found)
    (foundKnown : registry.member? found = some source)
    (known : registry.member? member = some target) (isHeld : holds target) :
    chain.idxOf source.owner ≤ chain.idxOf target.owner := by
  obtain ⟨below, scope, above, rfl, absent, entry, source', earlier, later, scopeKnown, members,
    foundKnown', -⟩ := nearest
  cases foundKnown.symm.trans foundKnown'
  have isListed : found ∈ entry.members :=
    members ▸ List.mem_append_right _ (List.mem_cons_self ..)
  obtain ⟨source', foundKnown', rfl, -⟩ := formed.owned scopeKnown isListed
  cases foundKnown.symm.trans foundKnown'
  have noLower : target.owner ∉ below := fun isLower =>
    absent _ isLower (formed.lists_owner known isHeld)
  have here : (below ++ source.owner :: above).idxOf source.owner ≤ below.length := by
    by_cases isLower : source.owner ∈ below
    · rw [List.idxOf_append_of_mem isLower]
      exact Nat.le_of_lt (List.idxOf_lt_length_of_mem isLower)
    · rw [List.idxOf_append_of_notMem isLower, List.idxOf_cons_self]
      exact Nat.le_refl _
  calc (below ++ source.owner :: above).idxOf source.owner
      ≤ below.length := here
    _ ≤ below.length + (source.owner :: above).idxOf target.owner := Nat.le_add_right ..
    _ = (below ++ source.owner :: above).idxOf target.owner :=
        (List.idxOf_append_of_notMem noLower).symm

/-- A type all of whose members of a name are passed over declares none that is called alike. -/
theorem WellFormed.owner_ne (formed : registry.WellFormed) {source : MemberEntry}
    (isNamesake : source.IsNamesake target) (known : registry.member? member = some source)
    {scope : TypeId} (passed : ∀ entry other between, registry.type? scope = some entry →
      other ∈ entry.members → registry.member? other = some between →
        between.name = target.name → between.IsPassedOver target) :
    source.owner ≠ scope := by
  rintro rfl
  obtain ⟨entry, ownerKnown, isListed⟩ := formed.listed known
  exact isNamesake.not_isPassedOver (passed entry member source ownerKnown isListed known
    isNamesake.name)

/-- In every registry that is built, whatever may be edited, a public member that is called on a
value of a type whose bases are no contracts runs the nearest public member of the same kind, name
and parameters: one that is declared no further from the type, that a look-up finds, and that runs
itself. So the member itself runs if a look-up finds it, and a type whose members of the name cannot
be called alike does not declare what runs. -/
theorem Built.runsNearest (built : Built mayEdit registry)
    (call : registry.PublicCall type member target chain) :
    ∃ found source, registry.findImplementation? type member = .ok (some found) ∧
      registry.RunsNearest type target chain found source ∧
        (registry.findNamesake? type target = .ok (some member) → found = member) := by
  have closed := built.complete.toClosed
  have formed := closed.toWellFormed
  have has : registry.Has type := has_of_mem_baseChain call.bases call.declared
  obtain rfl : registry.ancestors type = chain :=
    Except.ok.inj ((closed.baseChain_eq_ok has).symm.trans call.bases)
  have ownerHas : registry.Has target.owner := formed.owner_has call.known
  have noContract : (registry.flagsOf target.owner).isInterface = false :=
    Except.ok.inj ((isInterface_eq_ok ownerHas).symm.trans (call.plain _ call.declared))
  have plain : (registry.flagsOf type).isInterface = false := by
    obtain ⟨above, isAncestors⟩ := ancestors_eq_cons has
    have isOwn : type ∈ registry.ancestors type := isAncestors ▸ List.mem_cons_self ..
    exact Except.ok.inj ((isInterface_eq_ok has).symm.trans (call.plain _ isOwn))
  have answered := closed.findImplementation?_eq_ok has call.known ownerHas
  rw [noContract, if_neg Bool.false_ne_true, Option.none_or] at answered
  cases found : registry.namesake? type target with
  | none =>
    have unlisted := (namesake?_eq_none plain).mp found _ call.declared
    exact (unlisted (formed.lists_owner call.known call.callable)).elim
  | some member' =>
    rw [found] at answered
    obtain ⟨source, sourceKnown, isScope, passes⟩ := publicMember?_eq_some formed found
    rw [scopes, plain, if_neg Bool.false_ne_true] at isScope
    have alike : source.IsNamesake target := isNamesake_iff.mp passes
    have nearest := nearest_of_namesake? plain found
    have lookedUp : registry.findNamesake? type target = .ok (some member') :=
      (closed.findNamesake?_eq_ok has).trans (congrArg Except.ok found)
    refine ⟨member', source, answered, ⟨sourceKnown, alike, isScope, ?_, nearest, lookedUp, ?_, ?_⟩,
      fun isFound => ?_⟩
    · exact nearest.idxOf_owner_le formed sourceKnown call.known call.callable
    · exact closed.findImplementation?_of_namesake has found sourceKnown (call.plain _ isScope)
    · exact fun scope passed => formed.owner_ne alike sourceKnown passed
    · cases lookedUp.symm.trans isFound
      rfl

end Calls

/-- Three classes on top of each other. The first declares a method without parameters; the second
hides it by such a method; the third has members of the same name that cannot be called alike: a
method of the type, one that is not visible, one with a parameter, and a property. -/
def hidingTypes : Registry :=
  initial
    |>.after (Registration.declare { name := "A", sort := .classType })
    |>.after (Registration.addDeclaredMember 1 ⟨14⟩ (.method "M" .void))
    |>.after (Registration.declare { name := "B", sort := .classType })
    |>.after (Registration.setBase 1 ⟨15⟩ ⟨14⟩)
    |>.after (Registration.addDeclaredMember 1 ⟨15⟩ (.method "M" .int))
    |>.after (Registration.declare { name := "C", sort := .classType })
    |>.after (Registration.setBase 1 ⟨16⟩ ⟨15⟩)
    |>.after (Registration.addDeclaredMember 1 ⟨16⟩ (MemberDeclaration.method "M" .void).static)
    |>.after (Registration.addDeclaredMember 1 ⟨16⟩ (MemberDeclaration.method "M" .void).hidden)
    |>.after (Registration.addDeclaredMember 1 ⟨16⟩ (.method "M" .void [.int]))
    |>.after (Registration.addDeclaredMember 1 ⟨16⟩ (.property "M" .int))

/-- The three classes are registered without a stop. -/
theorem hidingTypes_built : Built TypeEntry.IsOriginal hidingTypes := by
  have start : Built TypeEntry.IsOriginal .initial := .initial
  have first := start.declare { name := "A", sort := .classType } rfl
  have called := first.addMember ⟨14⟩ (.method "M" .void) (by decide) (by decide) (by decide)
  have second := called.declare { name := "B", sort := .classType } rfl
  have extended := second.setBase ⟨15⟩ ⟨14⟩ (by decide) (by decide)
  have hidden := extended.addMember ⟨15⟩ (.method "M" .int) (by decide) (by decide) (by decide)
  have third := hidden.declare { name := "C", sort := .classType } rfl
  have lowest := third.setBase ⟨16⟩ ⟨15⟩ (by decide) (by decide)
  have static := lowest.addMember ⟨16⟩ (MemberDeclaration.method "M" .void).static
    (by decide) (by decide) (by decide)
  have unseen := static.addMember ⟨16⟩ (MemberDeclaration.method "M" .void).hidden
    (by decide) (by decide) (by decide)
  have overloaded := unseen.addMember ⟨16⟩ (.method "M" .void [.int])
    (by decide) (by decide) (by decide)
  exact overloaded.addMember ⟨16⟩ (.property "M" .int) (by decide) (by decide) (by decide)

/-- The method of the first class, called on a value of the third, runs that of the second. -/
theorem hidingTypes_runsNearest : ∃ target source,
    hidingTypes.PublicCall ⟨16⟩ ⟨8⟩ target [⟨16⟩, ⟨15⟩, ⟨14⟩, .object] ∧
      hidingTypes.RunsNearest ⟨16⟩ target [⟨16⟩, ⟨15⟩, ⟨14⟩, .object] ⟨9⟩ source := by
  obtain ⟨target, known, declared, passes⟩ : ∃ target ∈ hidingTypes.member? ⟨8⟩,
      target.owner ∈ [⟨16⟩, ⟨15⟩, ⟨14⟩, TypeId.object] ∧
        target.flags.isPublicInstance = true ∧ namesakeTest target target = true := by
    decide +kernel
  have call : hidingTypes.PublicCall ⟨16⟩ ⟨8⟩ target [⟨16⟩, ⟨15⟩, ⟨14⟩, .object] :=
    ⟨by decide +kernel, by decide +kernel, known, declared, isNamesake_iff.mp passes⟩
  obtain ⟨found, source, answered, runs, -⟩ := hidingTypes_built.runsNearest call
  have second : hidingTypes.findImplementation? ⟨16⟩ ⟨8⟩ = .ok (some ⟨9⟩) := by
    decide +kernel
  cases answered.symm.trans second
  exact ⟨target, source, call, runs⟩

end Registry

end Foreach
