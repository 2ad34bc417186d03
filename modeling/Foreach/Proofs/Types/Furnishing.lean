import Foreach.Proofs.Types.Furnished

/-!
# Registering keeps a registry furnished

Replacing parameters furnishes a registry at every depth, so each way of registering keeps one
furnished, provided that what it is given is registered. Types may be edited in any way here,
instances included.
-/
namespace Foreach

namespace Registry

/-- What stands for the interfaces of a definition from the start are those interfaces. -/
theorem initial_interface_plain {definition interface : TypeId} {whole : TypeEntry}
    (known : initial.type? definition = some whole)
    (isGeneric : whole.flags.genericDefinition = true) (isListed : interface ∈ whole.interfaces) :
    ∃ entry, initial.type? interface = some entry ∧ entry.definition = none ∧
      entry.flags.genericParameter = false := by
  have holds := initial_type?
    (fun _ whole => whole.flags.genericDefinition = true → ∀ interface ∈ whole.interfaces,
      ∃ entry ∈ initial.type? interface, entry.definition = none ∧
        entry.flags.genericParameter = false)
    (by decide) known
  exact holds isGeneric interface isListed

/-- An instance that was given what stands for the interfaces of a definition, and that begins with
what stands for the members of the definition, has what the definition has from the start. -/
theorem Furnished.carries_of_copied {later earlier : Registry} {lacking : TypeId → Prop}
    (furnished : earlier.Furnished lacking) (kept : later.Keeps earlier) {type definition : TypeId}
    {entry : TypeEntry} (known : earlier.type? definition = some entry)
    (isGeneric : entry.flags.genericDefinition = true)
    (interfaces : ∀ interface ∈ entry.interfaces,
      ∃ result, later.Stands interface result ∧ later.Inherits type result)
    (members : later.BeginsWith type entry.members) : later.Carries type definition := by
  intro whole wholeKnown
  obtain ⟨entry', known', continued⟩ := furnished.keeps.entries wholeKnown
  cases known.symm.trans known'
  refine ⟨fun interface isListed => ?_, ?_⟩
  · obtain ⟨result, stands, inherits⟩ := interfaces interface (continued.interfaces isListed)
    obtain ⟨plain, plainKnown, uncopied, notParameter⟩ :=
      initial_interface_plain wholeKnown (continued.flags ▸ isGeneric) isListed
    obtain ⟨plain', plainKnown', plainContinued⟩ :=
      (kept.trans furnished.keeps).entries plainKnown
    obtain ⟨found, made, foundKnown, -, same⟩ := stands
    cases plainKnown'.symm.trans foundKnown
    rw [plainContinued.flags, plainContinued.definition] at same
    have stays : result = interface := (same notParameter).2.1 uncopied
    exact stays ▸ inherits
  · obtain ⟨_, _, more, rfl⟩ := continued
    exact members.of_append

end Registry

namespace Registration

open Registry

variable {lacking : TypeId → Prop} {before after : Registry}

/-- Copying members to an instance that has none gives it, in order, what can stand for them. -/
theorem Furnishes.copyMembers {replace : TypeId → Registration TypeId} {substitution : Substitution}
    (furnishes : Furnishes replace substitution) (leaves : ∀ type, LeavesAll (replace type))
    {type definition : TypeId} {bare : TypeEntry} {members : List MemberId}
    (furnished : before.Furnished lacking) (suits : before.Suits substitution)
    (isCopy : before.IsCopy type definition) (known : before.type? type = some bare)
    (isBare : bare.members = [])
    (registered : ∀ member ∈ members, ∃ source, before.member? member = some source)
    (copied : members.forM (Registration.copyMember replace type) before = .ok ((), after)) :
    after.Furnished lacking ∧ after.Keeps before ∧ after.BeginsWith type members := by
  -- The members are those copied already, which the instance has counterparts of, and the rest.
  obtain ⟨afterFurnished, kept, done, filled, allDone, reached, stand⟩ := Work.forM_induct
    (fun rest registry => registry.Furnished lacking ∧ registry.Keeps before ∧
      ∃ done filled, members = done ++ rest ∧ registry.type? type = some filled ∧
        List.Forall₂ registry.StandsIn done filled.members)
    (fun member rest between next invariant acted => by
      obtain ⟨isFurnished, kept, done, filled, part, reached, stand⟩ := invariant
      have isMember : member ∈ members := by simp [part]
      obtain ⟨source, sourceKnown⟩ := registered member isMember
      obtain ⟨filled', reached', isInstance⟩ := kept.isCopy isCopy
      cases reached.symm.trans reached'
      obtain ⟨stillFurnished, further, copy, nextKnown, stands⟩ := furnishes.copyMember leaves
        isFurnished (kept.suits suits) reached (isInstance ▸ Option.some_ne_none _)
        (kept.members sourceKnown) acted
      refine ⟨stillFurnished, further.trans kept, done ++ [member], _, by simp [part], nextKnown,
        ?_⟩
      exact List.rel_append (stand.imp fun _ _ => further.standsIn) (.cons stands .nil))
    ⟨furnished, .refl _, [], bare, rfl, known, by rw [isBare]; exact .nil⟩ copied
  rw [List.append_nil] at allDone
  exact ⟨afterFurnished, kept, filled, filled.members, [], reached, (List.append_nil _).symm,
    allDone ▸ stand⟩

/-- Copying base, interfaces and members to a new instance gives it what the definition has from
the start. -/
theorem Furnishes.copyAll {replace : TypeId → Registration TypeId} {substitution : Substitution}
    (furnishes : Furnishes replace substitution) (leaves : ∀ type, LeavesAll (replace type))
    {type definition : TypeId} {whole : TypeEntry} {first second : Registry}
    (furnished : before.Furnished lacking) (suits : before.Suits substitution)
    (known : before.type? definition = some whole)
    (isGeneric : whole.flags.genericDefinition = true) (isCopy : before.IsCopy type definition)
    (isNew : ∃ bare, before.type? type = some bare ∧ bare.members = [])
    (baseCopied : whole.base.forM (Registration.copyBase replace type) before = .ok ((), first))
    (interfacesCopied :
      whole.interfaces.forM (Registration.copyInterface replace type) first = .ok ((), second))
    (membersCopied :
      whole.members.forM (Registration.copyMember replace type) second = .ok ((), after)) :
    after.Furnished lacking ∧ after.Keeps before ∧ after.Carries type definition := by
  have atFirst : first.Furnished lacking ∧ first.Keeps before := by
    cases given : whole.base with
    | none =>
      rw [given] at baseCopied
      obtain ⟨-, rfl⟩ := Work.pure_eq_ok.mp baseCopied
      exact ⟨furnished, .refl _⟩
    | some base =>
      rw [given] at baseCopied
      exact furnishes.copyBase furnished suits (furnished.bases known given) baseCopied
  obtain ⟨firstFurnished, firstKept⟩ := atFirst
  obtain ⟨secondFurnished, secondKept, interfaces⟩ := forM_furnished
    (fun interface registry => ∃ result, registry.Stands interface result ∧
      registry.Inherits type result)
    (fun kept ⟨result, stands, inherits⟩ => ⟨result, kept.stands stands, kept.inherits inherits⟩)
    (fun isListed isFurnished kept copied => furnishes.copyInterface isFurnished
      (kept.suits (firstKept.suits suits))
      (kept.isContract (firstKept.isContract (furnished.interfaces known isListed))) copied)
    firstFurnished interfacesCopied
  have toSecond := secondKept.trans firstKept
  obtain ⟨bare, bareKnown, isBare⟩ := isNew
  obtain ⟨filled, filledKnown, same⟩ :=
    copyLinks_members leaves bareKnown baseCopied interfacesCopied
  obtain ⟨afterFurnished, afterKept, members⟩ := furnishes.copyMembers leaves secondFurnished
    (toSecond.suits suits) (toSecond.isCopy isCopy) filledKnown (same.trans isBare)
    (fun member isListed => by
      obtain ⟨source, sourceKnown, -⟩ := furnished.owned known isListed
      exact ⟨source, toSecond.members sourceKnown⟩)
    membersCopied
  have overall := afterKept.trans toSecond
  refine ⟨afterFurnished, overall,
    furnished.carries_of_copied overall known isGeneric (fun interface isListed => ?_) members⟩
  obtain ⟨result, stands, inherits⟩ := interfaces interface isListed
  exact ⟨result, afterKept.stands stands, afterKept.inherits inherits⟩

/-- A new instance that is filled lacks nothing, and filling it takes nothing back. -/
theorem newInstance_furnishes {replace : Substitution → TypeId → Registration TypeId}
    (furnishes : ∀ substitution, Furnishes (replace substitution) substitution)
    (leaves : ∀ substitution type, LeavesAll (replace substitution type))
    {definition : TypeId} {arguments : List TypeId} {entry : TypeEntry} {first second : Registry}
    (furnished : before.Furnished lacking)
    (registered : ∀ argument ∈ arguments, before.Has argument)
    (known : before.type? definition = some entry)
    (generic : entry.flags.genericDefinition = true)
    (arity : entry.parameters.length = arguments.length) (proper : entry.parameters ≠ arguments)
    (absent : before.instance? definition arguments = none)
    (baseCopied :
      entry.base.forM (copyBase (replace (entry.parameters.zip arguments)) ⟨before.size⟩)
        (before.withInstance definition arguments entry) = .ok ((), first))
    (interfacesCopied :
      entry.interfaces.forM
        (copyInterface (replace (entry.parameters.zip arguments)) ⟨before.size⟩) first =
          .ok ((), second))
    (membersCopied :
      entry.members.forM
        (copyMember (replace (entry.parameters.zip arguments)) ⟨before.size⟩) second =
          .ok ((), after)) :
    after.Furnished lacking ∧ after.Keeps (before.withInstance definition arguments entry) := by
  have closed := furnished.toClosed.withInstance known generic arity proper absent registered
  have bare := before.type?_withInstance_self definition arguments entry
  have stillKnown := before.type?_withInstance_of_some definition arguments entry known
  have isCopy : (before.withInstance definition arguments entry).IsCopy ⟨before.size⟩
      definition := ⟨_, bare, rfl⟩
  have suits := closed.suits_zip stillKnown
    (fun argument isArgument => withInstance_keeps.has (registered argument isArgument))
  obtain ⟨afterFurnished, kept, carries⟩ := (furnishes _).copyAll (leaves _)
    (furnished.withInstance closed) suits stillKnown generic isCopy ⟨_, bare, rfl⟩ baseCopied
    interfacesCopied membersCopied
  exact ⟨afterFurnished.settle (kept.isCopy isCopy) carries, kept⟩

/-- A definition can be used at registered arguments, which furnishes a registry: what stands for it
there is of the same sort, and it is the definition or an instance of it. -/
theorem instantiateWith_furnishes {replace : Substitution → TypeId → Registration TypeId}
    (furnishes : ∀ substitution, Furnishes (replace substitution) substitution)
    (leaves : ∀ substitution type, LeavesAll (replace substitution type))
    {definition result : TypeId} {arguments : List TypeId} (furnished : before.Furnished lacking)
    (registered : ∀ argument ∈ arguments, before.Has argument)
    (made : instantiateWith replace definition arguments before = .ok (result, after)) :
    after.Furnished lacking ∧ after.Keeps before ∧
      ∃ whole found, after.type? definition = some whole ∧ after.type? result = some found ∧
        found.flags.forInstance = whole.flags.forInstance ∧
          (result = definition ∨ found.definition = some definition) := by
  obtain ⟨entry, known, generic, arity, decided⟩ := instantiateWith_cases made
  rcases decided with ⟨own, rfl, rfl⟩ | ⟨proper, recorded | isNew⟩
  · exact ⟨furnished, .refl _, entry, entry, known, known, rfl, .inl rfl⟩
  · obtain ⟨isRecorded, rfl⟩ := recorded
    obtain ⟨found, foundKnown, isCopy, -⟩ := furnished.of_instance? isRecorded
    have flags := furnished.flags foundKnown isCopy known
    refine ⟨furnished, .refl _, entry, found, known, foundKnown, ?_, .inr isCopy⟩
    rw [flags, TypeFlags.forInstance_forInstance]
  · obtain ⟨absent, rfl, first, second, baseCopied, interfacesCopied, membersCopied⟩ := isNew
    obtain ⟨afterFurnished, kept⟩ := newInstance_furnishes furnishes leaves furnished registered
      known generic arity proper absent baseCopied interfacesCopied membersCopied
    obtain ⟨whole, wholeKnown, wholeContinued⟩ :=
      kept.entries (before.type?_withInstance_of_some definition arguments entry known)
    obtain ⟨found, foundKnown, foundContinued⟩ :=
      kept.entries (before.type?_withInstance_self definition arguments entry)
    refine ⟨afterFurnished, kept.trans withInstance_keeps, whole, found, wholeKnown, foundKnown, ?_,
      .inr foundContinued.definition⟩
    rw [wholeContinued.flags, foundContinued.flags]
    rfl

/-- Parameters are replaced in a way that furnishes a registry at every depth, by induction on it:
the instances that replacing makes are filled at one level less. -/
theorem substitute_furnishes (depth : Nat) :
    ∀ substitution : Substitution, Furnishes (substitute depth substitution) substitution := by
  induction depth with
  | zero =>
    intro substitution lacking before type result after _ _ _ stopped
    cases stopped
  | succ depth ih =>
    intro substitution lacking before type result after furnished suits has replaced
    by_cases proper : substitution = []
    · rw [proper, substitute, if_pos List.isEmpty_nil] at replaced
      obtain ⟨rfl, rfl⟩ := Work.pure_eq_ok.mp replaced
      exact ⟨furnished, .refl _, .refl has⟩
    rcases substitute_cases proper replaced with ⟨isReplaced, rfl⟩ | ⟨-, entry, known, decided⟩
    · exact ⟨furnished, .refl _, suits.stands isReplaced⟩
    rcases decided with ⟨-, rfl, rfl⟩ | ⟨definition, arguments, middle, isCopy, listed, made⟩
    · exact ⟨furnished, .refl _, .refl has⟩
    obtain ⟨middleFurnished, kept, stand⟩ := (ih substitution).mapM furnished suits
      (fun argument isArgument => furnished.arguments known isArgument) listed
    rcases made with ⟨-, rfl, rfl⟩ | made
    · exact ⟨middleFurnished, kept, .refl (kept.has has)⟩
    have registered : ∀ argument ∈ arguments, middle.Has argument := by
      intro argument isArgument
      obtain ⟨place, bound, rfl⟩ := List.mem_iff_getElem.mp isArgument
      exact (stand.get (Nat.lt_of_lt_of_eq bound stand.length_eq.symm) bound).has
    obtain ⟨afterFurnished, further, whole, found, wholeKnown, foundKnown, sameFlags, sameOrigin⟩ :=
      instantiateWith_furnishes ih (substitute_leaves depth) middleFurnished registered made
    have overall := further.trans kept
    obtain ⟨changed, reached, continued⟩ := overall.entries known
    have changedCopy : changed.definition = some definition := continued.definition.trans isCopy
    refine ⟨afterFurnished, overall, changed, found, reached, foundKnown,
      fun _ => ⟨?_, fun uncopied => ?_, fun origin isOrigin => ?_⟩⟩
    · rw [sameFlags, afterFurnished.flags reached changedCopy wholeKnown,
        TypeFlags.forInstance_forInstance]
    · cases changedCopy.symm.trans uncopied
    · cases changedCopy.symm.trans isOrigin
      exact sameOrigin

section Propagating

variable {depth : Nat}

/-- What an instance's definition has is copied to it under a substitution that suits the
registry. -/
theorem suits_of_isCopy {registry : Registry} (closed : registry.Closed) {type definition : TypeId}
    (isCopy : registry.IsCopy type definition) {substitution : Substitution}
    (answer : registry.substitution type = .ok substitution) : registry.Suits substitution := by
  obtain ⟨entry, known, isDefinition⟩ := isCopy
  obtain ⟨-, whole, wholeKnown, -⟩ := closed.copied known isDefinition
  cases answer.symm.trans (substitution_of_instance known isDefinition wholeKnown)
  exact closed.suits_zip wholeKnown fun argument isArgument => closed.arguments known isArgument

/-- What is done for each instance of a definition keeps a registry furnished if it does so for each
of them. -/
theorem forInstances_furnished {definition : TypeId}
    {action : (TypeId → Registration TypeId) → TypeId → Registration Unit}
    (step : ∀ {replace substitution type between after}, Furnishes replace substitution →
      (∀ type, LeavesAll (replace type)) → between.Furnished lacking →
      between.Suits substitution → between.Keeps before →
      between.IsCopy type definition → action replace type between = .ok ((), after) →
        after.Furnished lacking ∧ after.Keeps between)
    (furnished : before.Furnished lacking)
    (ran : forInstances depth definition action before = .ok ((), after)) :
    after.Furnished lacking ∧ after.Keeps before := by
  obtain ⟨afterFurnished, kept, -⟩ := forInstances_induct
    (fun rest registry => registry.Furnished lacking ∧ registry.Keeps before ∧
      rest ⊆ before.instancesOf definition)
    (fun {made rest here there substitution} invariant answer acted => by
      obtain ⟨isFurnished, kept, within⟩ := invariant
      have isInstance := within (List.mem_cons_self ..)
      have isCopy := kept.isCopy (furnished.mem_instancesOf.mp isInstance)
      have suits := suits_of_isCopy isFurnished.toClosed isCopy answer
      obtain ⟨stillFurnished, further⟩ :=
        step (substitute_furnishes depth _) (substitute_leaves depth _) isFurnished suits kept
          isCopy acted
      exact ⟨stillFurnished, further.trans kept,
        fun _ inRest => within (List.mem_cons_of_mem _ inRest)⟩)
    ⟨furnished, .refl _, fun _ => id⟩ ran
  exact ⟨afterFurnished, kept⟩

/-- A registered base is set. -/
theorem setBase_furnished {type base : TypeId} (furnished : before.Furnished lacking)
    (registered : before.Has base) (ran : setBase depth type base before = .ok ((), after)) :
    after.Furnished lacking ∧ after.Keeps before := by
  obtain ⟨entry, known, propagated⟩ := setBase_eq_ok.mp ran
  have amends := Amends.of_links known (fun entry => { entry with base := some base })
    fun _ => rfl
  obtain ⟨middleFurnished, kept⟩ := furnished.withBase registered amends
  obtain ⟨afterFurnished, further⟩ := forInstances_furnished
    (fun furnishes _ isFurnished suits toHere _ copied =>
      furnishes.copyBase isFurnished suits (toHere.has (kept.has registered)) copied)
    middleFurnished propagated
  exact ⟨afterFurnished, further.trans kept⟩

/-- An interface is added. -/
theorem addInterface_furnished {type interface : TypeId} (furnished : before.Furnished lacking)
    (ran : addInterface depth type interface before = .ok ((), after)) :
    after.Furnished lacking ∧ after.Keeps before := by
  obtain ⟨isContract, entry, known, propagated⟩ := addInterface_eq_ok.mp ran
  have amends := Amends.of_links known
    (fun entry => { entry with interfaces := entry.interfaces ++ [interface] }) fun _ => rfl
  obtain ⟨middleFurnished, kept⟩ := furnished.withInterface isContract amends
  obtain ⟨afterFurnished, further⟩ := forInstances_furnished
    (fun furnishes _ isFurnished suits toHere _ copied => by
      obtain ⟨stillFurnished, keptOn, -⟩ := furnishes.copyInterface isFurnished suits
        (toHere.isContract (kept.isContract isContract)) copied
      exact ⟨stillFurnished, keptOn⟩)
    middleFurnished propagated
  exact ⟨afterFurnished, further.trans kept⟩

/-- A member is added that mentions registered types only and implements a registered member if
any. -/
theorem addDeclaredMember_furnished {type : TypeId} {declaration : MemberDeclaration}
    {member : MemberId} (furnished : before.Furnished lacking)
    (types : ∀ other ∈ declaration.kind.types, before.Has other)
    (contracts : ∀ contract ∈ declaration.implements, before.HasMember contract)
    (ran : addDeclaredMember depth type declaration before = .ok (member, after)) :
    after.Furnished lacking ∧ after.Keeps before := by
  obtain ⟨rfl, entry, known, propagated⟩ := addDeclaredMember_eq_ok.mp ran
  have amends := Amends.of_member
    ⟨declaration.name, type, declaration.flags, declaration.kind, declaration.implements, none⟩
    known rfl (fun _ => rfl) (fun _ isOrigin => nomatch isOrigin)
  obtain ⟨middleFurnished, kept⟩ := furnished.withMember types contracts amends
  have sourceKnown := amends.member?_added rfl
  obtain ⟨afterFurnished, further⟩ := forInstances_furnished
    (fun furnishes leaves isFurnished suits toHere isCopy copied => by
      obtain ⟨instanceEntry, instanceKnown, isInstance⟩ := isCopy
      obtain ⟨stillFurnished, keptOn, -⟩ := furnishes.copyMember leaves isFurnished suits
        instanceKnown (isInstance ▸ Option.some_ne_none _) (toHere.members sourceKnown) copied
      exact ⟨stillFurnished, keptOn⟩)
    middleFurnished propagated
  exact ⟨afterFurnished, further.trans kept⟩

end Propagating

end Registration

end Foreach
