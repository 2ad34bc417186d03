import Foreach.Proofs.Types.Built

/-!
# Instances are supplied

An instance is filled with what the references of its definition become: its base, its interfaces,
the types of its members' signatures, and the types that declare what its members implement. So in
every registry that is built, whatever a definition refers to becomes a registered type in each of
its instances (`Built.supplied`). While an instance is being filled it lacks some of that;
`Registry.Supplied` says which types may lack something.

`Registration.Supplies` is the specification of replacing parameters for this purpose. Types may be
edited in any way, since what is added to an instance is added to nothing else.
-/
namespace Foreach

namespace Registry

/-- The types that a member refers to: those of its signature, and the one that declares what it
implements. -/
def memberReferences (registry : Registry) (member : MemberId) : List TypeId :=
  match registry.member? member with
  | some source => source.kind.types ++
    ((source.implements.bind registry.member?).map MemberEntry.owner).toList
  | none => []

/-- The types that an entry refers to in what is copied to instances. -/
def references (registry : Registry) (entry : TypeEntry) : List TypeId :=
  entry.base.toList ++ (entry.interfaces ++ entry.members.flatMap registry.memberReferences)

/-- What definitions refer to becomes something in each of their instances, except for those that
lack something. -/
def Supplied (registry : Registry) (pending : TypeId → Prop) : Prop :=
  ∀ ⦃type definition entry whole⦄, registry.type? type = some entry →
    entry.definition = some definition → registry.type? definition = some whole →
      ¬ pending type → ∀ reference ∈ registry.references whole,
        ∃ result, registry.Becomes (whole.parameters.zip entry.arguments) reference result

/-- One registry is another with its entries continued, and the types that are no instances are as
they were. -/
structure Proceeds (later earlier : Registry) : Prop extends Keeps later earlier where
  /-- Types that are no instances keep their entries. -/
  left : ∀ {type entry}, earlier.type? type = some entry → entry.definition = none →
    later.type? type = some entry

/-- A registry proceeds from itself. -/
theorem Proceeds.refl (registry : Registry) : registry.Proceeds registry :=
  ⟨.refl registry, fun known _ => known⟩

/-- What proceeds from a registry that proceeds from another proceeds from that. -/
theorem Proceeds.trans {first second third : Registry} (further : third.Proceeds second)
    (proceeds : second.Proceeds first) : third.Proceeds first :=
  ⟨further.toKeeps.trans proceeds.toKeeps,
    fun known uncopied => further.left (proceeds.left known uncopied) uncopied⟩

/-- A registry with a new instance proceeds from the registry. -/
theorem withInstance_proceeds {registry : Registry} {definition : TypeId}
    {arguments : List TypeId} {entry : TypeEntry} :
    (registry.withInstance definition arguments entry).Proceeds registry :=
  ⟨withInstance_keeps, fun known _ =>
    registry.type?_withInstance_of_some definition arguments entry known⟩

/-- A registry proceeds when an instance is amended. -/
theorem Amends.proceeds {later earlier : Registry} {type : TypeId} {entry changed : TypeEntry}
    {added : Option MemberEntry} (amends : later.Amends earlier type entry changed added)
    (continued : changed.Continues entry) (isInstance : entry.definition ≠ none) :
    later.Proceeds earlier := by
  refine ⟨amends.keeps continued, fun {other found} known uncopied => ?_⟩
  have differs : other ≠ type := by
    rintro rfl
    cases known.symm.trans amends.before
    exact isInstance uncopied
  exact (amends.others differs).trans known

section References

variable {registry later earlier : Registry} {type reference : TypeId} {entry : TypeEntry}

/-- A registered member refers to what its entry says. -/
theorem memberReferences_of_known {member : MemberId} {source : MemberEntry}
    (known : registry.member? member = some source) :
    registry.memberReferences member = source.kind.types ++
      ((source.implements.bind registry.member?).map MemberEntry.owner).toList := by
  rw [memberReferences, known]

/-- What a registered member refers to is registered. -/
theorem Closed.memberReferences_has (closed : registry.Closed) {member : MemberId}
    (isReference : reference ∈ registry.memberReferences member) : registry.Has reference := by
  unfold memberReferences at isReference
  cases known : registry.member? member with
  | none =>
    rw [known] at isReference
    cases isReference
  | some source =>
    rw [known] at isReference
    cases List.mem_append.mp isReference with
    | inl isType => exact closed.signatures known isType
    | inr isOwner =>
      obtain ⟨contract, implements, rfl⟩ := Option.map_eq_some_iff.mp (Option.mem_toList.mp isOwner)
      obtain ⟨member', -, contractKnown⟩ := Option.bind_eq_some_iff.mp implements
      obtain ⟨owner, ownerKnown, -⟩ := closed.listed contractKnown
      exact has_iff.mpr ⟨owner, ownerKnown⟩

/-- What a registered type refers to is registered. -/
theorem Closed.references_has (closed : registry.Closed) (known : registry.type? type = some entry)
    (isReference : reference ∈ registry.references entry) : registry.Has reference := by
  rcases List.mem_append.mp isReference with isBase | isOther
  · exact closed.bases known (Option.mem_toList.mp isBase)
  · rcases List.mem_append.mp isOther with isInterface | isMentioned
    · obtain ⟨contract, contractKnown, -⟩ := closed.interfaces known isInterface
      exact has_iff.mpr ⟨contract, contractKnown⟩
    · obtain ⟨member, -, isMentioned⟩ := List.mem_flatMap.mp isMentioned
      exact closed.memberReferences_has isMentioned

/-- The member that a registered member implements has its entry ever after. -/
theorem Grows.bind_member? (grown : later.Grows earlier) (closed : earlier.Closed)
    {member : MemberId} {source : MemberEntry} (known : earlier.member? member = some source) :
    source.implements.bind later.member? = source.implements.bind earlier.member? := by
  cases implements : source.implements with
  | none => rfl
  | some contract =>
    obtain ⟨target, targetKnown⟩ := hasMember_iff.mp (closed.implemented known implements)
    rw [Option.bind_some, Option.bind_some, targetKnown, grown.members targetKnown]

/-- A registered member refers to the same types ever after. -/
theorem Grows.memberReferences (grown : later.Grows earlier) (closed : earlier.Closed)
    {member : MemberId} (registered : earlier.HasMember member) :
    later.memberReferences member = earlier.memberReferences member := by
  obtain ⟨source, known⟩ := hasMember_iff.mp registered
  rw [memberReferences_of_known known, memberReferences_of_known (grown.members known),
    grown.bind_member? closed known]

/-- An entry refers to the same types ever after. -/
theorem Grows.references (grown : later.Grows earlier) (closed : earlier.Closed)
    (known : earlier.type? type = some entry) :
    later.references entry = earlier.references entry := by
  have members : entry.members.flatMap later.memberReferences =
      entry.members.flatMap earlier.memberReferences := by
    refine List.flatMap_congr fun member isListed => ?_
    exact grown.memberReferences closed (closed.listed_has known isListed)
  rw [Registry.references, Registry.references, members]

/-- What is supplied stays supplied where a registry proceeds, if instances that are not pending
were there. -/
theorem Supplied.keep {pending : TypeId → Prop} (supplied : earlier.Supplied pending)
    (closed : earlier.Closed) (proceeds : later.Proceeds earlier)
    (copies : ∀ {type definition}, later.IsCopy type definition → ¬ pending type →
      earlier.IsCopy type definition) : later.Supplied pending := by
  intro type definition entry whole known isCopy wholeKnown present reference isReference
  obtain ⟨former, formerKnown, formerCopy⟩ := copies ⟨entry, known, isCopy⟩ present
  obtain ⟨-, formerWhole, formerWholeKnown, uncopied, -⟩ := closed.copied formerKnown formerCopy
  cases wholeKnown.symm.trans (proceeds.left formerWholeKnown uncopied)
  obtain ⟨changed, reached, continued⟩ := proceeds.entries formerKnown
  cases known.symm.trans reached
  rw [proceeds.toGrows.references closed formerWholeKnown] at isReference
  obtain ⟨result, becomes⟩ :=
    supplied formerKnown formerCopy formerWholeKnown present reference isReference
  rw [continued.arguments]
  exact ⟨result, becomes.grow proceeds.toGrows⟩

/-- What is supplied stays supplied when an instance is amended. -/
theorem Supplied.amend {pending : TypeId → Prop} (supplied : earlier.Supplied pending)
    (closed : earlier.Closed) {changed : TypeEntry} {added : Option MemberEntry}
    (amends : later.Amends earlier type entry changed added) (continued : changed.Continues entry)
    (isInstance : entry.definition ≠ none) : later.Supplied pending := by
  refine supplied.keep closed (amends.proceeds continued isInstance) fun isCopy _ => ?_
  obtain ⟨found, known, isDefinition⟩ := isCopy
  obtain ⟨former, formerKnown, continued'⟩ := amends.continues continued known
  exact ⟨former, formerKnown, continued'.definition ▸ isDefinition⟩

/-- What is supplied when less is pending is supplied when more is. -/
theorem Supplied.weaken {pending others : TypeId → Prop} (supplied : registry.Supplied pending)
    (more : ∀ type, pending type → others type) : registry.Supplied others :=
  fun _ _ _ _ known isCopy wholeKnown present =>
    supplied known isCopy wholeKnown fun isPending => present (more _ isPending)

/-- Nothing is promised of instances that are all pending. -/
theorem supplied_of_pending : registry.Supplied fun _ => True :=
  fun _ _ _ _ _ _ _ present => absurd trivial present

/-- A new instance is pending at first. -/
theorem Supplied.withInstance {pending : TypeId → Prop} (supplied : earlier.Supplied pending)
    (closed : earlier.Closed) {definition : TypeId} {arguments : List TypeId} :
    (earlier.withInstance definition arguments entry).Supplied
      fun other => pending other ∨ other = ⟨earlier.size⟩ := by
  refine (supplied.weaken fun _ => .inl).keep closed withInstance_proceeds
    fun isCopy present => ?_
  obtain ⟨found, known, isDefinition⟩ := isCopy
  cases type?_withInstance_cases _ _ _ _ known with
  | inl isNew => exact absurd (.inr isNew.1) present
  | inr before => exact ⟨found, before, isDefinition⟩

/-- When a type is amended, its instances are pending. -/
theorem Supplied.lag (supplied : earlier.Supplied fun _ => False) (closed : earlier.Closed)
    {changed : TypeEntry} {added : Option MemberEntry}
    (amends : later.Amends earlier type entry changed added)
    (continued : changed.Continues entry) :
    later.Supplied fun other => later.IsCopy other type := by
  intro other definition found whole known isCopy wholeKnown present reference isReference
  have differs : definition ≠ type := by
    rintro rfl
    exact present ⟨found, known, isCopy⟩
  have formerWhole := (amends.others differs).symm.trans wholeKnown
  have kept := amends.keeps continued
  obtain ⟨former, formerKnown, continued'⟩ := amends.continues continued known
  rw [kept.toGrows.references closed formerWhole] at isReference
  obtain ⟨result, becomes⟩ := supplied formerKnown (continued'.definition ▸ isCopy) formerWhole
    not_false reference isReference
  rw [continued'.arguments]
  exact ⟨result, becomes.grow kept.toGrows⟩

/-- An instance that got what its definition refers to lacks nothing. -/
theorem Supplied.settle {pending : TypeId → Prop} {definition : TypeId} {whole : TypeEntry}
    (supplied : registry.Supplied fun other => pending other ∨ other = type)
    (known : registry.type? type = some entry) (isCopy : entry.definition = some definition)
    (wholeKnown : registry.type? definition = some whole)
    (each : ∀ reference ∈ registry.references whole,
      ∃ result, registry.Becomes (whole.parameters.zip entry.arguments) reference result) :
    registry.Supplied pending := by
  intro other origin found source foundKnown foundCopy sourceKnown present
  by_cases same : other = type
  · subst same
    cases known.symm.trans foundKnown
    cases isCopy.symm.trans foundCopy
    cases wholeKnown.symm.trans sourceKnown
    exact each
  · exact supplied foundKnown foundCopy sourceKnown fun lacks => lacks.elim present same

end References

end Registry

namespace Registration

open Registry

/-- Replacing parameters furnishes a registry, leaves the types that are there, and gives what the
type becomes, while what is supplied stays supplied. -/
structure Supplies (replace : TypeId → Registration TypeId) (substitution : Substitution) :
    Prop where
  /-- A furnished registry stays furnished. -/
  furnishes : Furnishes replace substitution
  /-- The types that are there are left. -/
  leaves : ∀ type, LeavesAll (replace type)
  /-- The result is what the type becomes. -/
  becomes : ∀ ⦃lacking pending before type result after⦄, before.Furnished lacking →
    before.Supplied pending → before.Suits substitution → before.Has type →
      replace type before = .ok (result, after) →
        after.Supplied pending ∧ after.Becomes substitution type result

/-- Each of some types becomes something. -/
def BecomeIn (registry : Registry) (substitution : Substitution) (types : List TypeId) : Prop :=
  ∀ type ∈ types, ∃ result, registry.Becomes substitution type result

/-- What each of some types becomes, it becomes ever after. -/
theorem BecomeIn.grow {later earlier : Registry} (kept : later.Keeps earlier)
    {substitution : Substitution} {types : List TypeId}
    (become : BecomeIn earlier substitution types) : BecomeIn later substitution types := by
  intro type isType
  obtain ⟨result, becomes⟩ := become type isType
  exact ⟨result, becomes.grow kept.toGrows⟩

/-- Replacing parameters makes a registry proceed and gives a registered type. -/
theorem Supplies.proceeds {replace : TypeId → Registration TypeId} {substitution : Substitution}
    (supplies : Supplies replace substitution) {lacking : TypeId → Prop} {before after : Registry}
    (furnished : before.Furnished lacking) (suits : before.Suits substitution)
    {type result : TypeId} (has : before.Has type)
    (replaced : replace type before = .ok (result, after)) :
    after.Furnished lacking ∧ after.Proceeds before ∧ after.Has result := by
  obtain ⟨afterFurnished, kept, stands⟩ := supplies.furnishes furnished suits has replaced
  exact ⟨afterFurnished, ⟨kept, fun known _ => supplies.leaves type replaced trivial known⟩,
    stands.has⟩

section Copies

variable {replace : TypeId → Registration TypeId} {substitution : Substitution}
  (supplies : Supplies replace substitution) {lacking pending : TypeId → Prop}
  {before after : Registry} (furnished : before.Furnished lacking)
  (supplied : before.Supplied pending) (suits : before.Suits substitution)
include supplies furnished supplied suits

/-- Types in sequence become something each. -/
theorem Supplies.mapM {types results : List TypeId} (registered : ∀ type ∈ types, before.Has type)
    (replaced : types.mapM replace before = .ok (results, after)) :
    after.Supplied pending ∧ List.Forall₂ (after.Becomes substitution) types results := by
  induction types generalizing before results with
  | nil =>
    obtain ⟨rfl, rfl⟩ := Work.pure_eq_ok.mp replaced
    exact ⟨supplied, .nil⟩
  | cons type rest ih =>
    obtain ⟨result, results', middle, first, tail, rfl⟩ := Work.mapM_cons_eq_ok.mp replaced
    have has := registered type (List.mem_cons_self ..)
    have restHas : ∀ other ∈ rest, before.Has other :=
      fun other inRest => registered other (List.mem_cons_of_mem _ inRest)
    obtain ⟨middleFurnished, kept, -⟩ := supplies.furnishes furnished suits has first
    obtain ⟨middleSupplied, becomes⟩ := supplies.becomes furnished supplied suits has first
    obtain ⟨-, further, -⟩ := supplies.furnishes.mapM middleFurnished (kept.suits suits)
      (fun other inRest => kept.has (restHas other inRest)) tail
    obtain ⟨afterSupplied, become⟩ := ih middleFurnished middleSupplied (kept.suits suits)
      (fun other inRest => kept.has (restHas other inRest)) tail
    exact ⟨afterSupplied, .cons (becomes.grow further.toGrows) become⟩

/-- The types of a signature become something each. -/
theorem Supplies.copyKind {kind result : MemberKind}
    (registered : ∀ type ∈ kind.types, before.Has type)
    (copied : copyKind replace kind before = .ok (result, after)) :
    after.Supplied pending ∧ BecomeIn after substitution kind.types := by
  cases kind with
  | method parameters returns =>
    obtain ⟨parameters', returns', middle, first, answer, rfl⟩ := copyMethod_eq_ok.mp copied
    have parametersHave : ∀ type ∈ parameters, before.Has type :=
      fun type isParameter => registered type (List.mem_append_left _ isParameter)
    have returnsHas : before.Has returns :=
      registered returns (List.mem_append_right _ (List.mem_singleton.mpr rfl))
    obtain ⟨middleFurnished, kept, -⟩ :=
      supplies.furnishes.mapM furnished suits parametersHave first
    obtain ⟨middleSupplied, each⟩ := supplies.mapM furnished supplied suits parametersHave first
    obtain ⟨-, further, -⟩ :=
      supplies.furnishes middleFurnished (kept.suits suits) (kept.has returnsHas) answer
    obtain ⟨afterSupplied, becomes⟩ := supplies.becomes middleFurnished middleSupplied
      (kept.suits suits) (kept.has returnsHas) answer
    refine ⟨afterSupplied, fun type isType => ?_⟩
    cases List.mem_append.mp isType with
    | inl isParameter =>
      obtain ⟨place, bound, rfl⟩ := List.mem_iff_getElem.mp isParameter
      have there := each.get bound (Nat.lt_of_lt_of_eq bound each.length_eq)
      exact ⟨_, there.grow further.toGrows⟩
    | inr isReturns =>
      rw [List.mem_singleton.mp isReturns]
      exact ⟨_, becomes⟩
  | property type =>
    obtain ⟨type', answer, rfl⟩ := copyProperty_eq_ok.mp copied
    obtain ⟨afterSupplied, becomes⟩ := supplies.becomes furnished supplied suits
      (registered type (List.mem_singleton.mpr rfl)) answer
    refine ⟨afterSupplied, fun other isType => ?_⟩
    rw [List.mem_singleton.mp isType]
    exact ⟨_, becomes⟩

/-- The type that declares an implemented member becomes something. -/
theorem Supplies.counterpart {contract result : MemberId} {source : MemberEntry}
    (known : before.member? contract = some source)
    (asked : counterpart replace contract before = .ok (result, after)) :
    after.Supplied pending ∧ BecomeIn after substitution [source.owner] := by
  obtain ⟨source', owner, known', replaced, -⟩ := counterpart_eq_ok.mp asked
  cases known.symm.trans known'
  obtain ⟨ownerEntry, ownerKnown, -⟩ := furnished.listed known
  obtain ⟨afterSupplied, becomes⟩ := supplies.becomes furnished supplied suits
    (has_iff.mpr ⟨ownerEntry, ownerKnown⟩) replaced
  refine ⟨afterSupplied, fun type isType => ?_⟩
  rw [List.mem_singleton.mp isType]
  exact ⟨owner, becomes⟩

/-- The type that declares an implemented member becomes something, if there is such a member. -/
theorem Supplies.counterparts {contract result : Option MemberId}
    (asked : contract.mapM (Registration.counterpart replace) before = .ok (result, after)) :
    after.Supplied pending ∧ BecomeIn after substitution
      ((contract.bind before.member?).map MemberEntry.owner).toList := by
  cases contract with
  | none =>
    obtain ⟨-, rfl⟩ := Work.pure_eq_ok.mp asked
    exact ⟨supplied, fun _ isType => nomatch isType⟩
  | some contract =>
    obtain ⟨result', found, -⟩ := Work.map_eq_ok.mp asked
    obtain ⟨source, _, known, -⟩ := counterpart_eq_ok.mp found
    rw [Option.bind_some, known]
    exact supplies.counterpart furnished supplied suits known found

end Copies

end Registration

end Foreach
