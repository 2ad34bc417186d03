import Foreach.Proofs.Types.Substitution

/-!
# Registering keeps a registry sound

An addition to a definition lets all its instances lag behind at once: what the definition had
before is owed to each of them. Propagation takes the instances that exist at that time one by one
and settles what is owed; instances that are made meanwhile are made with the addition. So nothing
is owed in the end, whatever the propagation itself instantiates.
-/
namespace Foreach

namespace Registry

/-- The same content is owed to each of some types. -/
def lagging (types : List TypeId) (content : Content) : Owed :=
  fun type => if type ∈ types then some content else none

/-- The first of the types is owed the content as well as the others. -/
theorem lagging_cons (type : TypeId) (types : List TypeId) (content : Content) :
    lagging (type :: types) content =
      Function.update (lagging types content) type (some content) := by
  funext other
  by_cases same : other = type
  · rw [same, Function.update_self, lagging, if_pos (List.mem_cons_self ..)]
  · have sameRest : other ∈ type :: types ↔ other ∈ types := by
      rw [List.mem_cons, or_iff_right same]
    rw [Function.update_of_ne same, lagging, lagging, ite_congr (propext sameRest)]
    · exact fun _ => rfl
    · exact fun _ => rfl

/-- A type that is not among some types is owed nothing with them. -/
theorem update_lagging {type : TypeId} {types : List TypeId} (content : Content)
    (absent : type ∉ types) :
    Function.update (lagging types content) type none = lagging types content := by
  rw [Function.update_eq_self_iff, lagging, if_neg absent]

/-- Nothing is owed. -/
def settled : Owed := fun _ => none

/-- No types are owed nothing. -/
theorem lagging_nil (content : Content) : lagging [] content = settled :=
  funext fun _ => if_neg List.not_mem_nil

/-- The instances of a definition are the registered types that say so. -/
theorem WellFormed.mem_instancesOf {registry : Registry} (formed : registry.WellFormed)
    {type definition : TypeId} :
    type ∈ registry.instancesOf definition ↔
      ∃ entry, registry.type? type = some entry ∧ entry.definition = some definition := by
  rw [formed.instances, List.mem_map]
  constructor
  · rintro ⟨made, isMade, rfl⟩
    obtain ⟨recorded, same⟩ := List.mem_filter.mp isMade
    obtain ⟨entry, known, isCopy, -⟩ := formed.recorded recorded
    exact ⟨entry, known, of_decide_eq_true same ▸ isCopy⟩
  · rintro ⟨entry, known, isCopy⟩
    obtain ⟨found, -⟩ := formed.copied known isCopy
    obtain ⟨made, first, rfl⟩ := Option.map_eq_some_iff.mp found
    have holds := List.find?_some first
    rw [Bool.and_eq_true, decide_eq_true_eq, decide_eq_true_eq] at holds
    exact ⟨made, List.mem_filter.mpr ⟨List.mem_of_find?_eq_some first,
      decide_eq_true holds.1⟩, rfl⟩

/-- Each instance of a definition is listed once. -/
theorem WellFormed.nodup_instancesOf {registry : Registry} (formed : registry.WellFormed)
    (definition : TypeId) : (registry.instancesOf definition).Nodup := by
  rw [formed.instances]
  exact formed.results.sublist (List.filter_sublist.map _)

/-- In an instance the definition's parameters are replaced by the arguments, in order. -/
theorem substitution_of_instance {registry : Registry} {type definition : TypeId}
    {entry whole : TypeEntry} (known : registry.type? type = some entry)
    (isCopy : entry.definition = some definition)
    (wholeKnown : registry.type? definition = some whole) :
    registry.substitution type = .ok (whole.parameters.zip entry.arguments) := by
  refine Work.checked_bind_eq_ok.mpr ⟨entry, Checked.ofOption_eq_ok.mpr known, ?_⟩
  rw [isCopy]
  exact Work.checked_bind_eq_ok.mpr ⟨whole, Checked.ofOption_eq_ok.mpr wholeKnown, rfl⟩

/-- When a definition is amended, its instances lag behind. -/
theorem Sound.lag {later earlier : Registry} {definition : TypeId} {entry changed : TypeEntry}
    {added : Option MemberEntry} (sound : earlier.Sound settled)
    (amends : later.Amends earlier definition entry changed added)
    (uncopied : entry.definition = none) :
    later.Sound (lagging (later.instancesOf definition) entry.content) where
  formed := amends.wellFormed sound.formed
  pending {type content} isOwed := by
    by_cases isInstance : type ∈ later.instancesOf definition
    · obtain ⟨found, known, -⟩ :=
        (amends.wellFormed sound.formed).mem_instancesOf.mp isInstance
      exact ⟨found, known⟩
    · rw [lagging, if_neg isInstance] at isOwed
      cases isOwed
  mirrors {type found origin source} reached isCopied originKnown := by
    have formed := amends.wellFormed sound.formed
    have differs : type ≠ definition := by
      rintro rfl
      cases amends.after.symm.trans reached
      cases isCopied.symm.trans (amends.definition.trans uncopied)
    have reachedLater := reached
    rw [amends.others differs] at reached
    obtain ⟨former, formerKnown, -, parameters⟩ :=
      sound.formed.definition_of_grows amends.grows reached isCopied originKnown
    have mirrored := (sound.mirrors reached isCopied formerKnown).grow amends.grows
    rw [parameters]
    by_cases same : origin = definition
    · have isInstance := formed.mem_instancesOf.mpr ⟨found, reachedLater, same ▸ isCopied⟩
      rw [same] at formerKnown
      cases formerKnown.symm.trans amends.before
      rw [lagging, if_pos isInstance]
      exact mirrored
    · have isOther : type ∉ later.instancesOf definition := by
        intro isInstance
        obtain ⟨found', known', isCopy⟩ := formed.mem_instancesOf.mp isInstance
        cases reachedLater.symm.trans known'
        exact same (Option.some.inj (isCopied.symm.trans isCopy))
      rw [amends.others same] at originKnown
      cases formerKnown.symm.trans originKnown
      rw [lagging, if_neg isOther]
      exact mirrored

end Registry

namespace Registration

open Registry

variable {before after : Registry} {depth : Nat}

section Instances

variable {definition : TypeId} {whole : TypeEntry} {old : Content}
  {action : (TypeId → Registration TypeId) → TypeId → Registration Unit}
  (settles : ∀ {replace substitution owed type before after}, Replaces replace substitution →
    before.Copying owed type definition whole substitution old →
    action replace type before = .ok ((), after) →
      after.Copying owed type definition whole substitution whole.content ∧ after.Extends before)
include settles

/-- What is done for the next instance settles what is owed to it. -/
theorem forInstance_sound {type : TypeId} {rest : List TypeId} {entry : TypeEntry}
    (lags : before.Sound (lagging (type :: rest) old)) (absent : type ∉ rest)
    (known : before.type? definition = some whole) (entryKnown : before.type? type = some entry)
    (isCopy : entry.definition = some definition)
    {substitution : Substitution} (answer : before.substitution type = .ok substitution)
    (acted : action (substitute depth substitution) type before = .ok ((), after)) :
    after.Sound (lagging rest old) ∧ after.Extends before := by
  cases answer.symm.trans (substitution_of_instance entryKnown isCopy known)
  rw [lagging_cons] at lags
  have copying : before.Copying (lagging rest old) type definition whole
      (whole.parameters.zip entry.arguments) old :=
    ⟨lags, known, entry, entryKnown, isCopy, rfl⟩
  obtain ⟨copied, extended⟩ := settles (substitute_replaces depth copying.proper) copying acted
  obtain ⟨last, lastKnown, lastCopy, -⟩ := copied.target
  have paid := copied.sound.settle lastKnown lastCopy copied.source
  rw [update_lagging old absent] at paid
  exact ⟨paid, extended⟩

/-- What is done for each instance settles all that is owed, by induction on those that remain. -/
theorem forInstances_sound (sound : before.Sound (lagging (before.instancesOf definition) old))
    (known : before.type? definition = some whole) (uncopied : whole.definition = none)
    (ran : forInstances depth definition action before = .ok ((), after)) :
    after.Sound settled := by
  have finished := forInstances_induct
    (fun remaining registry => registry.Sound (lagging remaining old) ∧
      registry.Extends before ∧ remaining.Nodup ∧
        ∀ type ∈ remaining, type ∈ before.instancesOf definition)
    (fun {type _ _ _ _} holds answer acted => by
      obtain ⟨lags, extended, unique, listed⟩ := holds
      obtain ⟨absent, uniqueRest⟩ := List.nodup_cons.mp unique
      obtain ⟨entry, entryKnown, isCopy⟩ :=
        sound.formed.mem_instancesOf.mp (listed type (List.mem_cons_self ..))
      obtain ⟨now, reached, -, definitionSame, -⟩ := extended.types entryKnown
      obtain ⟨paid, further⟩ := forInstance_sound settles lags absent
        (extended.definitions known uncopied) reached (definitionSame.trans isCopy) answer acted
      exact ⟨paid, further.trans extended, uniqueRest,
        fun other isLater => listed other (List.mem_cons_of_mem _ isLater)⟩)
    ⟨sound, .refl _, sound.formed.nodup_instancesOf definition, fun _ => id⟩ ran
  rw [lagging_nil] at finished
  exact finished.1

end Instances

/-- A base is set soundly. -/
theorem setBase_sound {type base : TypeId} {entry : TypeEntry} (sound : before.Sound settled)
    (known : before.type? type = some entry) (uncopied : entry.definition = none)
    (ran : setBase depth type base before = .ok ((), after)) : after.Sound settled := by
  obtain ⟨_, -, propagated⟩ := setBase_eq_ok.mp ran
  have amends := Amends.of_links known (fun entry => { entry with base := some base })
    fun _ => rfl
  refine forInstances_sound ?_ (sound.lag amends uncopied) amends.after uncopied propagated
  exact fun replaces copying copied => replaces.copyBase copying copied

/-- An interface is added soundly. -/
theorem addInterface_sound {type interface : TypeId} {entry : TypeEntry}
    (sound : before.Sound settled) (known : before.type? type = some entry)
    (uncopied : entry.definition = none)
    (ran : addInterface depth type interface before = .ok ((), after)) : after.Sound settled := by
  obtain ⟨-, _, -, propagated⟩ := addInterface_eq_ok.mp ran
  have amends := Amends.of_links known
    (fun entry => { entry with interfaces := entry.interfaces ++ [interface] }) fun _ => rfl
  refine forInstances_sound ?_ (sound.lag amends uncopied) amends.after uncopied propagated
  exact fun replaces copying copied => replaces.copyInterface copying copied

/-- A member is added soundly. -/
theorem addDeclaredMember_sound {type : TypeId} {declaration : MemberDeclaration}
    {member : MemberId} {entry : TypeEntry} (sound : before.Sound settled)
    (known : before.type? type = some entry) (uncopied : entry.definition = none)
    (ran : addDeclaredMember depth type declaration before = .ok (member, after)) :
    after.Sound settled := by
  obtain ⟨rfl, _, -, propagated⟩ := addDeclaredMember_eq_ok.mp ran
  have amends := Amends.of_member
    ⟨declaration.name, type, declaration.flags, declaration.kind, declaration.implements, none⟩
    known rfl (fun _ => rfl) (fun _ isOrigin => nomatch isOrigin)
  refine forInstances_sound ?_ (sound.lag amends uncopied) amends.after uncopied propagated
  exact fun replaces copying copied => replaces.copyMember copying copied

/-- An instance is made soundly. -/
theorem instantiate_sound {definition type : TypeId} {arguments : List TypeId}
    (sound : before.Sound settled)
    (ran : instantiate depth definition arguments before = .ok (type, after)) :
    after.Sound settled :=
  (instantiateWith_sound (substitute_replaces depth) sound ran).1

/-- A generic parameter is declared with its definition. -/
theorem addParameter_declares {earlier : Registry} {owner : TypeId} {position : Nat}
    {name : String} (isNew : earlier.type? owner = none) (declares : before.Declares earlier)
    (ran : addParameter owner position name before = .ok ((), after)) :
    after.Declares earlier := by
  obtain ⟨_, -, rfl⟩ := addParameter_eq_ok.mp ran
  refine ⟨fun {type entry} known => ?_, fun {type entry} known => ?_, declares.members,
    declares.instantiations, declares.instances⟩
  · have differs : type ≠ owner := by
      rintro rfl
      cases isNew.symm.trans known
    rw [type?_modifyType, if_neg differs]
    exact type?_pushType_of_some _ (declares.kept known)
  · have pushed : ∀ {found}, (before.pushType (parameterEntry owner position name)).1.type? type =
        some found → earlier.type? type = some found ∨
          found.definition = none ∧ found.members = [] := by
      intro found reached
      cases type?_pushType_cases reached with
      | inl isParameter =>
        rw [isParameter.2]
        exact .inr ⟨rfl, rfl⟩
      | inr wasThere => exact declares.fresh wasThere
    rw [type?_modifyType] at known
    by_cases isOwner : type = owner
    · rw [if_pos isOwner] at known
      obtain ⟨found, reached, rfl⟩ := Option.map_eq_some_iff.mp known
      cases pushed reached with
      | inl before =>
        rw [isOwner, isNew] at before
        cases before
      | inr fresh => exact .inr fresh
    · rw [if_neg isOwner] at known
      exact pushed known

/-- A declaration only adds types that are no instances and list no members. -/
theorem declare_declares {declaration : TypeDeclaration} {type : TypeId}
    (ran : declare declaration before = .ok (type, after)) : after.Declares before := by
  obtain ⟨rfl, parameters⟩ := declare_eq_ok.mp ran
  have isNew : before.type? ⟨before.size⟩ = none :=
    Array.getElem?_eq_none_iff.mpr (Nat.le_refl _)
  refine Work.forM_induct (fun _ registry => registry.Declares before)
    (fun _ _ _ _ declares step => addParameter_declares isNew declares step)
    ⟨type?_pushType_of_some _, fun {type entry} known => ?_, rfl, rfl, rfl⟩ parameters
  cases type?_pushType_cases known with
  | inl isDeclared =>
    rw [isDeclared.2]
    exact .inr ⟨rfl, rfl⟩
  | inr wasThere => exact .inl wasThere

/-- A type is declared soundly. -/
theorem declare_sound {declaration : TypeDeclaration} {type : TypeId}
    (sound : before.Sound settled)
    (ran : declare declaration before = .ok (type, after)) : after.Sound settled := by
  have declares := declare_declares ran
  refine ⟨declares.wellFormed sound.formed,
    fun isOwed => absurd isOwed.symm (Option.some_ne_none _), ?_⟩
  intro type entry definition whole known isCopy wholeKnown
  cases declares.fresh known with
  | inl knownBefore =>
    exact sound.mirrors_extend declares.extension knownBefore isCopy wholeKnown
  | inr isNew => cases isCopy.symm.trans isNew.1

end Registration

end Foreach
