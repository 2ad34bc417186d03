import Foreach.Proofs.Types.Actions
import Foreach.Proofs.Types.Sound

/-!
# Replacing parameters keeps a registry sound

`Registration.Replaces` is the specification of replacing parameters under a substitution: it keeps
a registry sound, only adds to it, and gives what the type becomes. Given that, copying a
definition's base, interfaces and members gives an instance a little more each time, and an instance
that was given everything mirrors its definition. So one more level of depth meets the specification
again.
-/
namespace Foreach.Registration

open Registry

/-- Replacing parameters keeps a registry sound, only adds to it, and gives what the type
becomes. -/
def Replaces (replace : TypeId → Registration TypeId) (substitution : Substitution) : Prop :=
  ∀ ⦃owed before type result after⦄, before.Sound owed → replace type before = .ok (result, after) →
    after.Sound owed ∧ after.Extends before ∧ after.Becomes substitution type result

section Copies

variable {replace : TypeId → Registration TypeId} {substitution : Substitution}
  (replaces : Replaces replace substitution) {owed : Owed} {before after : Registry}
include replaces

/-- Types in sequence become something each. -/
theorem Replaces.mapM {types results : List TypeId} (sound : before.Sound owed)
    (replaced : types.mapM replace before = .ok (results, after)) :
    after.Sound owed ∧ after.Extends before ∧
      List.Forall₂ (after.Becomes substitution) types results := by
  induction types generalizing before results with
  | nil =>
    obtain ⟨rfl, rfl⟩ := Work.pure_eq_ok.mp replaced
    exact ⟨sound, .refl _, .nil⟩
  | cons type rest ih =>
    obtain ⟨result, results', middle, first, tail, rfl⟩ := Work.mapM_cons_eq_ok.mp replaced
    obtain ⟨middleSound, extended, becomes⟩ := replaces sound first
    obtain ⟨afterSound, further, become⟩ := ih middleSound tail
    exact ⟨afterSound, further.trans extended, .cons (becomes.grow further.toGrows) become⟩

/-- A signature becomes another. -/
theorem Replaces.copyKind {kind result : MemberKind} (sound : before.Sound owed)
    (copied : copyKind replace kind before = .ok (result, after)) :
    after.Sound owed ∧ after.Extends before ∧ after.KindBecomes substitution kind result := by
  cases kind with
  | method parameters returns =>
    obtain ⟨parameters', returns', middle, first, answer, rfl⟩ := copyMethod_eq_ok.mp copied
    obtain ⟨middleSound, extended, each⟩ := replaces.mapM sound first
    obtain ⟨afterSound, further, becomes⟩ := replaces middleSound answer
    exact ⟨afterSound, further.trans extended,
      .method (each.imp fun _ _ => Becomes.grow further.toGrows) becomes⟩
  | property type =>
    obtain ⟨type', answer, rfl⟩ := copyProperty_eq_ok.mp copied
    obtain ⟨afterSound, extended, becomes⟩ := replaces sound answer
    exact ⟨afterSound, extended, .property becomes⟩

/-- What the next copy implements follows from what its member implements. -/
theorem Replaces.counterpart {contract result : MemberId} (sound : before.Sound owed)
    (asked : counterpart replace contract before = .ok (result, after)) :
    after.Sound owed ∧ after.Extends before ∧
      after.Follows substitution ⟨after.members.size⟩ contract result := by
  obtain ⟨entry, owner, known, replaced, decided⟩ := counterpart_eq_ok.mp asked
  obtain ⟨afterSound, extended, becomes⟩ := replaces sound replaced
  have stillKnown := extended.members known
  rcases decided with ⟨stays, rfl⟩ | ⟨stays, target, source, targetKnown, sourceKnown, isResult⟩
  · exact ⟨afterSound, extended, .stays stillKnown (stays ▸ becomes)⟩
  · have counterpart : after.counterpart? owner (entry.definition.getD contract) =
        (source.members.idxOf? (entry.definition.getD contract)).bind
          fun place => target.members[place]? := by
      rw [Registry.counterpart?, targetKnown, Option.bind_some, sourceKnown, Option.bind_some]
    rw [← counterpart] at isResult
    refine ⟨afterSound, extended, ?_⟩
    cases atPlace : after.counterpart? owner (entry.definition.getD contract) with
    | none =>
      rw [atPlace, Option.getD_none] at isResult
      cases isResult
      refine .missed stillKnown becomes stays targetKnown sourceKnown
        (afterSound.formed.origin_lt stillKnown) fun other found => ?_
      cases atPlace.symm.trans found
    | some result' =>
      rw [atPlace, Option.getD_some] at isResult
      cases isResult
      rw [counterpart] at atPlace
      obtain ⟨place, -, holds⟩ := Option.bind_eq_some_iff.mp atPlace
      rw [← counterpart] at atPlace
      obtain ⟨listed, isKnown, -⟩ :=
        afterSound.formed.owned targetKnown (List.mem_of_getElem? holds)
      exact .found stillKnown becomes stays atPlace (index_lt_of_member? isKnown)

/-- What the next copy implements follows from what its member implements, if anything. -/
theorem Replaces.counterparts {contract result : Option MemberId} (sound : before.Sound owed)
    (asked : contract.mapM (Registration.counterpart replace) before = .ok (result, after)) :
    after.Sound owed ∧ after.Extends before ∧
      Option.Rel (after.Follows substitution ⟨after.members.size⟩) contract result := by
  cases contract with
  | none =>
    obtain ⟨rfl, rfl⟩ := Work.pure_eq_ok.mp asked
    exact ⟨sound, .refl _, .none⟩
  | some contract =>
    obtain ⟨result', found, rfl⟩ := Work.map_eq_ok.mp asked
    obtain ⟨afterSound, extended, follows⟩ := replaces.counterpart sound found
    exact ⟨afterSound, extended, .some follows⟩

variable {type definition : TypeId} {whole : TypeEntry} {given : Content}

/-- Copying a base gives it to the instance. -/
theorem Replaces.copyBase {base : TypeId}
    (copying : before.Copying owed type definition whole substitution given)
    (copied : copyBase replace type base before = .ok ((), after)) :
    after.Copying owed type definition whole substitution { given with base := some base } ∧
      after.Extends before := by
  obtain ⟨base', middle, entry, replaced, known, rfl⟩ := copyBase_eq_ok.mp copied
  obtain ⟨middleSound, extended, becomes⟩ := replaces copying.sound replaced
  have stillCopying := copying.extend middleSound extended
  have amends := Amends.of_links known (fun entry => { entry with base := some base' })
    fun _ => rfl
  have mirrored := (stillCopying.mirrors known).grow amends.grows
  obtain ⟨given', further⟩ := stillCopying.amend { given with base := some base } amends
    ⟨.some (becomes.grow amends.grows), mirrored.interfaces, mirrored.members⟩
  exact ⟨given', further.trans extended⟩

/-- Copying an interface gives it to the instance, after those that it was given before. -/
theorem Replaces.copyInterface {interface : TypeId}
    (copying : before.Copying owed type definition whole substitution given)
    (copied : copyInterface replace type interface before = .ok ((), after)) :
    after.Copying owed type definition whole substitution
        { given with interfaces := given.interfaces ++ [interface] } ∧
      after.Extends before := by
  obtain ⟨interface', middle, entry, replaced, known, rfl⟩ := copyInterface_eq_ok.mp copied
  obtain ⟨middleSound, extended, becomes⟩ := replaces copying.sound replaced
  have stillCopying := copying.extend middleSound extended
  have amends := Amends.of_links known
    (fun entry => { entry with interfaces := entry.interfaces ++ [interface'] }) fun _ => rfl
  have mirrored := (stillCopying.mirrors known).grow amends.grows
  have interfaces := List.rel_append mirrored.interfaces
    (.cons (becomes.grow amends.grows) .nil)
  obtain ⟨given', further⟩ := stillCopying.amend
    { given with interfaces := given.interfaces ++ [interface] } amends
    ⟨mirrored.base, interfaces, mirrored.members⟩
  exact ⟨given', further.trans extended⟩

/-- Copying a member gives it to the instance, after those that it was given before. -/
theorem Replaces.copyMember {member : MemberId}
    (copying : before.Copying owed type definition whole substitution given)
    (copied : copyMember replace type member before = .ok ((), after)) :
    after.Copying owed type definition whole substitution
        { given with members := given.members ++ [member] } ∧
      after.Extends before := by
  obtain ⟨source, kind, middle, implements, last, entry, sourceKnown, kindCopied, counterparts,
    known, rfl⟩ := copyMember_eq_ok.mp copied
  obtain ⟨middleSound, extended, kindBecomes⟩ := replaces.copyKind copying.sound kindCopied
  obtain ⟨lastSound, further, follows⟩ := replaces.counterparts middleSound counterparts
  have toLast := further.trans extended
  have stillCopying := copying.extend lastSound toLast
  have sourceLast := toLast.members sourceKnown
  have originKnown := lastSound.formed.origin_lt sourceLast
  have isCopy : entry.definition ≠ none := by
    obtain ⟨entry', known', isInstance, -⟩ := stillCopying.target
    cases known.symm.trans known'
    exact fun isNone => Option.some_ne_none _ (isInstance.symm.trans isNone)
  have amends := Amends.of_member
    ⟨source.name, type, source.flags, kind, implements, some (source.definition.getD member)⟩
    known rfl (fun isNone => absurd isNone isCopy)
    (fun origin isOrigin => Option.some.inj isOrigin ▸ originKnown)
  have mirrored := (stillCopying.mirrors known).grow amends.grows
  have copies : Registry.Copies _ substitution type member ⟨last.members.size⟩ :=
    ⟨source, _, amends.grows.members sourceLast, amends.member?_added rfl, rfl, rfl, rfl,
      (kindBecomes.grow further.toGrows).grow amends.grows, rfl,
      rel_imp (fun _ _ => Follows.grow amends.grows (Nat.le_refl _)) follows⟩
  obtain ⟨given', final⟩ := stillCopying.amend
    { given with members := given.members ++ [member] } amends
    ⟨mirrored.base, mirrored.interfaces, List.rel_append mirrored.members (.cons copies .nil)⟩
  exact ⟨given', final.trans toLast⟩

omit replaces in
/-- Copying each of some parts gives all of them to the instance. -/
theorem forM_copying {α : Type} {action : α → Registration Unit} (give : List α → Content)
    (step : ∀ {done next before after},
      before.Copying owed type definition whole substitution (give done) →
      action next before = .ok ((), after) →
        after.Copying owed type definition whole substitution (give (done ++ [next])) ∧
          after.Extends before)
    {parts : List α} (copying : before.Copying owed type definition whole substitution (give []))
    (ended : parts.forM action before = .ok ((), after)) :
    after.Copying owed type definition whole substitution (give parts) ∧ after.Extends before := by
  have ⟨done, split, isGiven, extended⟩ := Work.forM_induct
    (fun rest registry => ∃ done, parts = done ++ rest ∧
      registry.Copying owed type definition whole substitution (give done) ∧
        registry.Extends before)
    (fun next rest _ _ ⟨done, split, isGiven, extended⟩ acted => by
      obtain ⟨more, further⟩ := step isGiven acted
      exact ⟨done ++ [next], by rw [split, List.append_assoc, List.singleton_append], more,
        further.trans extended⟩)
    ⟨[], rfl, copying, .refl _⟩ ended
  rw [List.append_nil] at split
  rw [split]
  exact ⟨isGiven, extended⟩

/-- Copying base, interfaces and members gives the instance all that the definition has. -/
theorem Replaces.copyAll {first second : Registry}
    (copying : before.Copying owed type definition whole substitution .empty)
    (baseCopied : whole.base.forM (Registration.copyBase replace type) before = .ok ((), first))
    (interfacesCopied :
      whole.interfaces.forM (Registration.copyInterface replace type) first = .ok ((), second))
    (membersCopied :
      whole.members.forM (Registration.copyMember replace type) second = .ok ((), after)) :
    after.Copying owed type definition whole substitution whole.content ∧
      after.Extends before := by
  have atFirst : first.Copying owed type definition whole substitution ⟨whole.base, [], []⟩ ∧
      first.Extends before := by
    cases given : whole.base with
    | none =>
      rw [given] at baseCopied
      obtain ⟨-, rfl⟩ := Work.pure_eq_ok.mp baseCopied
      exact ⟨copying, .refl _⟩
    | some base =>
      rw [given] at baseCopied
      exact replaces.copyBase copying baseCopied
  have atSecond := forM_copying (fun done => ⟨whole.base, done, []⟩)
    replaces.copyInterface atFirst.1 interfacesCopied
  have atEnd := forM_copying (fun done => ⟨whole.base, whole.interfaces, done⟩)
    replaces.copyMember atSecond.1 membersCopied
  exact ⟨atEnd.1, atEnd.2.trans (atSecond.2.trans atFirst.2)⟩

end Copies

section Instances

variable {owed : Owed} {before after : Registry}

/-- A new instance has been given nothing yet. -/
theorem copying_withInstance {definition : TypeId} {entry : TypeEntry} {arguments : List TypeId}
    (sound : before.Sound owed) (known : before.type? definition = some entry)
    (generic : entry.flags.genericDefinition = true)
    (arity : entry.parameters.length = arguments.length) (proper : entry.parameters ≠ arguments)
    (absent : before.instance? definition arguments = none) :
    (before.withInstance definition arguments entry).Copying owed ⟨before.size⟩ definition entry
      (entry.parameters.zip arguments) .empty := by
  have extended := before.withInstance_extends definition arguments entry
  have bare := before.type?_withInstance_self definition arguments entry
  have uncopied := sound.formed.generic known generic
  have entryKnown := extended.definitions known uncopied
  refine ⟨⟨sound.formed.withInstance known generic arity proper absent, ?_, ?_⟩, entryKnown, _,
    bare, rfl, rfl⟩
  · intro type content isOwed
    by_cases isNew : type = ⟨before.size⟩
    · exact ⟨_, isNew ▸ bare⟩
    · rw [Function.update_of_ne isNew] at isOwed
      obtain ⟨former, formerKnown⟩ := sound.pending isOwed
      exact ⟨former, before.type?_withInstance_of_some definition arguments entry formerKnown⟩
  · intro type found origin source reached isCopied originKnown
    cases type?_withInstance_cases _ _ _ _ reached with
    | inl isNew =>
      obtain ⟨rfl, rfl⟩ := isNew
      rw [Function.update_self]
      exact .empty
    | inr knownBefore =>
      have differs : type ≠ ⟨before.size⟩ := by
        rintro rfl
        exact Nat.lt_irrefl _ (index_lt_of_type? knownBefore)
      rw [Function.update_of_ne differs]
      exact sound.mirrors_extend extended knownBefore isCopied originKnown

/-- An instance at given arguments is the definition, the recorded instance or a new one. -/
theorem instantiateWith_cases {replace : Substitution → TypeId → Registration TypeId}
    {definition result : TypeId} {arguments : List TypeId}
    (made : instantiateWith replace definition arguments before = .ok (result, after)) :
    ∃ entry, before.type? definition = some entry ∧ entry.flags.genericDefinition = true ∧
      entry.parameters.length = arguments.length ∧
      ((entry.parameters = arguments ∧ result = definition ∧ after = before) ∨
        entry.parameters ≠ arguments ∧
          ((before.instance? definition arguments = some result ∧ after = before) ∨
            before.instance? definition arguments = none ∧ result = ⟨before.size⟩ ∧
            ∃ first second,
              entry.base.forM (copyBase (replace (entry.parameters.zip arguments)) result)
                (before.withInstance definition arguments entry) = .ok ((), first) ∧
              entry.interfaces.forM
                (copyInterface (replace (entry.parameters.zip arguments)) result) first =
                  .ok ((), second) ∧
              entry.members.forM
                (copyMember (replace (entry.parameters.zip arguments)) result) second =
                  .ok ((), after))) := by
  obtain ⟨entry, _, asked, others⟩ := Work.bind_eq_ok.mp made
  obtain ⟨known, rfl⟩ := ask_entry_eq_ok.mp asked
  obtain ⟨⟨⟩, _, isGeneric, others⟩ := Work.bind_eq_ok.mp others
  obtain ⟨generic, rfl⟩ := Work.lift_eq_ok.mp isGeneric
  obtain ⟨⟨⟩, _, sameLength, others⟩ := Work.bind_eq_ok.mp others
  obtain ⟨arity, rfl⟩ := Work.lift_eq_ok.mp sameLength
  refine ⟨entry, known, Checked.require_eq_ok.mp generic,
    of_decide_eq_true (Checked.require_eq_ok.mp arity), ?_⟩
  by_cases own : entry.parameters = arguments
  · rw [if_pos own] at others
    obtain ⟨rfl, rfl⟩ := Work.pure_eq_ok.mp others
    exact .inl ⟨own, rfl, rfl⟩
  · rw [if_neg own] at others
    obtain ⟨registry, _, got, others⟩ := Work.bind_eq_ok.mp others
    obtain ⟨rfl, rfl⟩ := Work.get_eq_ok.mp got
    refine .inr ⟨own, ?_⟩
    cases recorded : before.instance? definition arguments with
    | some found =>
      rw [recorded] at others
      obtain ⟨rfl, rfl⟩ := Work.pure_eq_ok.mp others
      exact .inl ⟨rfl, rfl⟩
    | none =>
      rw [recorded] at others
      obtain ⟨type, _, added, others⟩ := Work.bind_eq_ok.mp others
      obtain ⟨rfl, rfl⟩ := addType_eq_ok.mp added
      obtain ⟨⟨⟩, _, noted, others⟩ := Work.bind_eq_ok.mp others
      obtain rfl := Work.modify_eq_ok.mp noted
      obtain ⟨⟨⟩, first, baseCopied, others⟩ := Work.bind_eq_ok.mp others
      obtain ⟨⟨⟩, second, interfacesCopied, others⟩ := Work.bind_eq_ok.mp others
      obtain ⟨⟨⟩, third, membersCopied, ended⟩ := Work.bind_eq_ok.mp others
      obtain ⟨rfl, rfl⟩ := Work.pure_eq_ok.mp ended
      exact .inr ⟨rfl, rfl, first, second, baseCopied, interfacesCopied, membersCopied⟩

/-- An instance is made soundly if parameters are replaced soundly, and is found afterwards. -/
theorem instantiateWith_sound {replace : Substitution → TypeId → Registration TypeId}
    (replaces : ∀ {substitution}, substitution ≠ [] → Replaces (replace substitution) substitution)
    {definition result : TypeId} {arguments : List TypeId} (sound : before.Sound owed)
    (made : instantiateWith replace definition arguments before = .ok (result, after)) :
    after.Sound owed ∧ after.Extends before ∧
      after.instanceAt? definition arguments = some result := by
  obtain ⟨entry, known, generic, arity, decided⟩ := instantiateWith_cases made
  rcases decided with ⟨own, rfl, rfl⟩ | ⟨proper, recorded | isNew⟩
  · refine ⟨sound, .refl _, ?_⟩
    rw [Registry.instanceAt?, known, Option.bind_some, if_pos own]
  · obtain ⟨found, rfl⟩ := recorded
    refine ⟨sound, .refl _, ?_⟩
    rw [Registry.instanceAt?, known, Option.bind_some, if_neg proper, found]
  · obtain ⟨absent, rfl, first, second, baseCopied, interfacesCopied, membersCopied⟩ := isNew
    have copying := copying_withInstance sound known generic arity proper absent
    obtain ⟨copied, extended⟩ :=
      (replaces copying.proper).copyAll copying baseCopied interfacesCopied membersCopied
    have overall := extended.trans (before.withInstance_extends definition arguments entry)
    have notOwed : owed ⟨before.size⟩ = none := by
      cases isOwed : owed ⟨before.size⟩ with
      | none => rfl
      | some content =>
        obtain ⟨former, formerKnown⟩ := sound.pending isOwed
        exact absurd (index_lt_of_type? formerKnown) (Nat.lt_irrefl _)
    obtain ⟨instanceEntry, instanceKnown, isCopy, -⟩ := copied.target
    have settled := copied.sound.settle instanceKnown isCopy copied.source
    rw [← notOwed, Function.update_eq_self] at settled
    have atArguments : after.instance? definition arguments = some ⟨before.size⟩ :=
      extended.toGrows.instance? (instance?_withInstance absent)
    refine ⟨settled, overall, ?_⟩
    rw [Registry.instanceAt?, copied.source, Option.bind_some, if_neg proper, atArguments]

end Instances

/-- Where something is replaced, a type is replaced itself, stays, or is an instance whose arguments
are replaced first. -/
theorem substitute_cases {before after : Registry} {depth : Nat} {substitution : Substitution}
    {type result : TypeId} (proper : substitution ≠ [])
    (replaced : substitute (depth + 1) substitution type before = .ok (result, after)) :
    (substitution.argument? type = some result ∧ after = before) ∨
      substitution.argument? type = none ∧ ∃ entry, before.type? type = some entry ∧
        ((entry.definition = none ∧ result = type ∧ after = before) ∨
          ∃ definition arguments middle, entry.definition = some definition ∧
            entry.arguments.mapM (substitute depth substitution) before =
              .ok (arguments, middle) ∧
            ((arguments = entry.arguments ∧ result = type ∧ after = middle) ∨
              instantiateWith (substitute depth) definition arguments middle =
                .ok (result, after))) := by
  have notEmpty : ¬ substitution.isEmpty = true := fun isEmpty =>
    proper (List.isEmpty_iff.mp isEmpty)
  rw [substitute, if_neg notEmpty] at replaced
  cases isReplaced : substitution.argument? type with
  | some argument =>
    rw [isReplaced] at replaced
    obtain ⟨rfl, rfl⟩ := Work.pure_eq_ok.mp replaced
    exact .inl ⟨rfl, rfl⟩
  | none =>
    rw [isReplaced] at replaced
    obtain ⟨entry, _, asked, others⟩ := Work.bind_eq_ok.mp replaced
    obtain ⟨known, rfl⟩ := ask_entry_eq_ok.mp asked
    refine .inr ⟨rfl, entry, known, ?_⟩
    cases isCopy : entry.definition with
    | none =>
      rw [isCopy] at others
      obtain ⟨rfl, rfl⟩ := Work.pure_eq_ok.mp others
      exact .inl ⟨rfl, rfl, rfl⟩
    | some definition =>
      rw [isCopy] at others
      obtain ⟨arguments, middle, listed, decided⟩ := Work.bind_eq_ok.mp others
      refine .inr ⟨definition, arguments, middle, rfl, listed, ?_⟩
      by_cases unchanged : arguments = entry.arguments
      · rw [if_pos unchanged] at decided
        obtain ⟨rfl, rfl⟩ := Work.pure_eq_ok.mp decided
        exact .inl ⟨unchanged, rfl, rfl⟩
      · rw [if_neg unchanged] at decided
        exact .inr decided

/-- An instance stands at its own arguments. -/
theorem instanceAt?_of_instance {registry : Registry} (formed : registry.WellFormed)
    {type definition : TypeId} {entry : TypeEntry} (known : registry.type? type = some entry)
    (isCopy : entry.definition = some definition) :
    registry.instanceAt? definition entry.arguments = some type := by
  obtain ⟨found, whole, wholeKnown, -, -, different, -⟩ := formed.copied known isCopy
  rw [Registry.instanceAt?, wholeKnown, Option.bind_some, if_neg different, found]

/-- Parameters are replaced soundly at every depth, by induction on it: what an instance becomes is
made at one level less. -/
theorem substitute_replaces (depth : Nat) :
    ∀ {substitution : Substitution}, substitution ≠ [] →
      Replaces (substitute depth substitution) substitution := by
  induction depth with
  | zero =>
    intro substitution _ owed before type result after _ stopped
    cases stopped
  | succ depth ih =>
    intro substitution proper owed before type result after sound replaced
    rcases substitute_cases proper replaced with ⟨isReplaced, rfl⟩ | ⟨kept, entry, known, decided⟩
    · exact ⟨sound, .refl _, .argument isReplaced⟩
    rcases decided with ⟨isWhole, rfl, rfl⟩ | ⟨definition, arguments, middle, isCopy, listed, made⟩
    · exact ⟨sound, .refl _, .whole kept known isWhole⟩
    obtain ⟨middleSound, extended, each⟩ := (ih proper).mapM sound listed
    obtain ⟨now, reached, -, definitionSame, argumentsSame, -⟩ := extended.types known
    have nowCopy : now.definition = some definition := definitionSame.trans isCopy
    rw [← argumentsSame] at each made
    obtain ⟨sameLength, eachPair⟩ := List.forall₂_iff_zip.mp each
    rcases made with ⟨rfl, rfl, rfl⟩ | made
    · have found := instanceAt?_of_instance middleSound.formed reached nowCopy
      exact ⟨middleSound, extended, .made kept reached nowCopy sameLength
        (fun _ isPair => eachPair isPair) found⟩
    · obtain ⟨afterSound, further, found⟩ := instantiateWith_sound ih middleSound made
      obtain ⟨last, isLast, -, lastDefinition, lastArguments, -⟩ := further.types reached
      rw [← lastArguments] at sameLength eachPair
      exact ⟨afterSound, further.trans extended, .made kept isLast
        (lastDefinition.trans nowCopy) sameLength
        (fun _ isPair => (eachPair isPair).grow further.toGrows) found⟩

end Foreach.Registration
