import Foreach.Proofs.Types.Copies

/-!
# Additions

A base, an interface or a member is added to a type in two steps: it is entered on the type itself,
and then copied to each of its instances (`Addition.register_eq`). The instances are pending in
between, and supplied again in the end. So all instances are supplied in every registry that is
built (`Registry.Built.supplied`).
-/
namespace Foreach

open Registration

/-- What may be added to a type. -/
inductive Addition where
  /-- A base, in place of the one that the type has. -/
  | base (parent : TypeId)
  /-- One more interface. -/
  | interface (contract : TypeId)
  /-- One more member. -/
  | member (declaration : MemberDeclaration)

namespace Addition

/-- Add to a type and to its instances. -/
def register (depth : Nat) (type : TypeId) : Addition → Registration Unit
  | .base parent => setBase depth type parent
  | .interface contract => addInterface depth type contract
  | .member declaration => (fun _ => ()) <$> addDeclaredMember depth type declaration

/-- What is added refers to what is registered. -/
def Refers (registry : Registry) : Addition → Prop
  | .base parent => registry.Has parent
  | .interface contract => registry.IsContract contract
  | .member declaration => (∀ other ∈ declaration.kind.types, registry.Has other) ∧
    ∀ contract ∈ declaration.implements, registry.HasMember contract

/-- The types that what is added refers to. -/
def references (registry : Registry) : Addition → List TypeId
  | .base parent => [parent]
  | .interface contract => [contract]
  | .member declaration => declaration.kind.types ++
    ((declaration.implements.bind registry.member?).map MemberEntry.owner).toList

/-- The entry of a declared member. -/
def memberEntry (type : TypeId) (declaration : MemberDeclaration) : MemberEntry where
  name := declaration.name
  owner := type
  flags := declaration.flags
  kind := declaration.kind
  implements := declaration.implements
  definition := none

/-- The entry of a type with what is added. The next member has the next free position. -/
def extend (registry : Registry) (entry : TypeEntry) : Addition → TypeEntry
  | .base parent => { entry with base := some parent }
  | .interface contract => { entry with interfaces := entry.interfaces ++ [contract] }
  | .member _ => { entry with members := entry.members ++ [⟨registry.members.size⟩] }

/-- A registry with what is added entered on the type itself. -/
def enter (registry : Registry) (type : TypeId) (addition : Addition) : Registry :=
  match addition with
  | .base _ | .interface _ => registry.modifyType type fun entry => addition.extend registry entry
  | .member declaration => (registry.pushMember (memberEntry type declaration)).1.modifyType type
    fun entry => addition.extend registry entry

/-- Copy what is added to an instance. -/
def copy (registry : Registry) (addition : Addition) (replace : TypeId → Registration TypeId)
    (type : TypeId) : Registration Unit :=
  match addition with
  | .base parent => copyBase replace type parent
  | .interface contract => copyInterface replace type contract
  | .member _ => copyMember replace type ⟨registry.members.size⟩

variable {before : Registry} {type : TypeId} {entry : TypeEntry} {addition : Addition}

/-- How work ends decides how it ends with another answer. -/
theorem map_congr {α β : Type} {work other : Registration α} {answer : α → β}
    {first second : Registry} (same : work first = other second) :
    (answer <$> work) first = (answer <$> other) second := by
  simp only [Functor.map, StateT.map, same]

/-- Adding to a registered type enters what is added and copies it to each instance. -/
theorem register_eq (known : before.type? type = some entry) (refers : addition.Refers before)
    (depth : Nat) : addition.register depth type before =
      forInstances depth type (addition.copy before) (addition.enter before type) := by
  cases addition with
  | base parent =>
    have entered : changeType type (fun entry => { entry with base := some parent }) before =
        .ok ((), (Addition.base parent).enter before type) :=
      changeType_eq_ok.mpr ⟨entry, known, rfl⟩
    exact bind_of_ok entered
  | interface contract =>
    obtain ⟨found, contractKnown, isInterface⟩ := refers
    have asked : before.isInterface contract = .ok true := by
      rw [Registry.isInterface, Registry.entry, contractKnown, Checked.ofOption_some]
      exact congrArg Except.ok isInterface
    have entered : changeType type
        (fun entry => { entry with interfaces := entry.interfaces ++ [contract] }) before =
        .ok ((), (Addition.interface contract).enter before type) :=
      changeType_eq_ok.mpr ⟨entry, known, rfl⟩
    refine (bind_of_ok (ask_eq_ok.mpr ⟨asked, rfl⟩)).trans ?_
    refine (bind_of_ok (Work.lift_eq_ok.mpr ⟨rfl, rfl⟩)).trans ?_
    exact bind_of_ok entered
  | member declaration =>
    have added : addMember (memberEntry type declaration) before =
        .ok (⟨before.members.size⟩, (before.pushMember (memberEntry type declaration)).1) := rfl
    have knownPushed : (before.pushMember (memberEntry type declaration)).1.type? type =
        some entry := known
    have entered : changeType type
        (fun entry => { entry with members := entry.members ++ [⟨before.members.size⟩] })
        (before.pushMember (memberEntry type declaration)).1 =
        .ok ((), (Addition.member declaration).enter before type) :=
      changeType_eq_ok.mpr ⟨entry, knownPushed, rfl⟩
    have ran : addDeclaredMember depth type declaration before =
        (do forInstances depth type ((Addition.member declaration).copy before)
            return (⟨before.members.size⟩ : MemberId) : Registration MemberId)
          ((Addition.member declaration).enter before type) :=
      (bind_of_ok added).trans (bind_of_ok entered)
    have answered : (fun _ => ()) <$> (do
        forInstances depth type ((Addition.member declaration).copy before)
        return (⟨before.members.size⟩ : MemberId) : Registration MemberId) =
          forInstances depth type ((Addition.member declaration).copy before) := by
      simp only [map_bind, map_pure, bind_pure_unit]
    rw [register, ← answered]
    exact map_congr ran

open Registry

/-- What is added is entered on the type: the type's entry is continued, and a registry stays
complete. -/
theorem enter_spec (complete : before.Complete) (known : before.type? type = some entry)
    (refers : addition.Refers before) :
    ∃ added, (addition.enter before type).Amends before type entry
        (addition.extend before entry) added ∧
      (addition.extend before entry).Continues entry ∧ (addition.enter before type).Complete := by
  cases addition with
  | base parent =>
    have amends : ((Addition.base parent).enter before type).Amends before type entry
        ((Addition.base parent).extend before entry) none :=
      .of_links known (fun entry => { entry with base := some parent }) fun _ => rfl
    exact ⟨none, amends, .withBase entry parent, (complete.withBase refers amends).1⟩
  | interface contract =>
    have amends : ((Addition.interface contract).enter before type).Amends before type entry
        ((Addition.interface contract).extend before entry) none :=
      .of_links known
        (fun entry => { entry with interfaces := entry.interfaces ++ [contract] }) fun _ => rfl
    exact ⟨none, amends, .withInterface entry contract, (complete.withInterface refers amends).1⟩
  | member declaration =>
    have amends : ((Addition.member declaration).enter before type).Amends before type entry
        ((Addition.member declaration).extend before entry)
        (some (memberEntry type declaration)) :=
      .of_member (memberEntry type declaration) known rfl (fun _ => rfl)
        (fun _ isOrigin => nomatch isOrigin)
    exact ⟨_, amends, .withMember entry ⟨before.members.size⟩,
      (complete.withMember refers.1 refers.2 amends).1⟩

/-- The new member refers to what its declaration says. -/
theorem memberReferences_enter {declaration : MemberDeclaration}
    (refers : (Addition.member declaration).Refers before) :
    ((Addition.member declaration).enter before type).memberReferences ⟨before.members.size⟩ =
      (Addition.member declaration).references before := by
  have added : ((Addition.member declaration).enter before type).member?
      ⟨before.members.size⟩ = some (memberEntry type declaration) :=
    before.member?_pushMember_self (memberEntry type declaration)
  have sameContract :
      declaration.implements.bind ((Addition.member declaration).enter before type).member? =
        declaration.implements.bind before.member? := by
    cases implements : declaration.implements with
    | none => rfl
    | some contract =>
      have registered : before.HasMember contract := refers.2 contract implements
      exact before.member?_pushMember_of_lt (memberEntry type declaration) registered
  rw [memberReferences_of_known added]
  exact congrArg (fun found : Option MemberEntry =>
    declaration.kind.types ++ (found.map MemberEntry.owner).toList) sameContract

/-- What was entered is copied to instances. -/
theorem copies_copy (complete : before.Complete) (known : before.type? type = some entry)
    (refers : addition.Refers before) :
    Copies (addition.enter before type) (addition.references before)
      (addition.copy before) := by
  obtain ⟨added, amends, continued, entered⟩ := enter_spec complete known refers
  have kept := amends.keeps continued
  cases addition with
  | base parent => exact copies_base (kept.has refers)
  | interface contract => exact copies_interface (kept.isContract refers)
  | member declaration =>
    have registered : ((Addition.member declaration).enter before type).HasMember
        ⟨before.members.size⟩ :=
      hasMember_iff.mpr ⟨_, before.member?_pushMember_self (memberEntry type declaration)⟩
    have copies := copies_member entered.toClosed registered
    rw [memberReferences_enter refers] at copies
    exact copies

/-- The type refers to what is added. -/
theorem references_subset (refers : addition.Refers before) :
    addition.references before ⊆
      (addition.enter before type).references (addition.extend before entry) := by
  intro reference isReference
  cases addition with
  | base parent => exact List.mem_append_left _ isReference
  | interface contract =>
    have isListed : reference ∈ entry.interfaces ++ [contract] :=
      List.mem_append_right _ isReference
    exact List.mem_append_right _ (List.mem_append_left _ isListed)
  | member declaration =>
    rw [← @memberReferences_enter _ type _ refers] at isReference
    have isListed : (⟨before.members.size⟩ : MemberId) ∈
        entry.members ++ [⟨before.members.size⟩] :=
      List.mem_append_right _ (List.mem_singleton.mpr rfl)
    have isMentioned := List.mem_flatMap.mpr ⟨_, isListed, isReference⟩
    exact List.mem_append_right _ (List.mem_append_right _ isMentioned)

/-- The type refers to nothing but what is added and what it referred to. -/
theorem references_extend (complete : before.Complete) (known : before.type? type = some entry)
    (refers : addition.Refers before) :
    ∀ reference ∈ (addition.enter before type).references (addition.extend before entry),
      reference ∈ addition.references before ∨ reference ∈ before.references entry := by
  obtain ⟨added, amends, continued, -⟩ := enter_spec complete known refers
  have same := (amends.keeps continued).toGrows.references complete.toClosed known
  intro reference isReference
  rw [← same]
  cases addition with
  | base parent =>
    cases List.mem_append.mp isReference with
    | inl isBase => exact .inl isBase
    | inr isOther => exact .inr (List.mem_append_right _ isOther)
  | interface contract =>
    simp only [Registry.references, extend, List.mem_append] at isReference ⊢
    rcases isReference with isBase | (isListed | isNew) | isMentioned
    · exact .inr (.inl isBase)
    · exact .inr (.inr (.inl isListed))
    · exact .inl isNew
    · exact .inr (.inr (.inr isMentioned))
  | member declaration =>
    rw [← @memberReferences_enter _ type _ refers]
    simp only [Registry.references, extend, List.mem_append, List.flatMap_append,
      List.flatMap_singleton] at isReference ⊢
    rcases isReference with isBase | isListed | isMentioned | isNew
    · exact .inr (.inl isBase)
    · exact .inr (.inr (.inl isListed))
    · exact .inr (.inr (.inr isMentioned))
    · exact .inl isNew

end Addition

namespace Registration

open Registry

section Propagation

variable {middle after : Registry} {definition : TypeId} {whole : TypeEntry} {depth : Nat}
  {added : List TypeId} {copy : (TypeId → Registration TypeId) → TypeId → Registration Unit}
  (complete : middle.Complete) (known : middle.type? definition = some whole)
include complete known

/-- An instance can be copied to while something is copied to each instance: the definition's
parameters are replaced by its arguments. -/
theorem ready_instance {between : Registry} {type : TypeId}
    (isInstance : type ∈ middle.instancesOf definition) (isComplete : between.Complete)
    (proceeds : between.Proceeds middle) :
    ∃ entry, middle.type? type = some entry ∧ entry.definition = some definition ∧
      whole.definition = none ∧
      between.substitution type = .ok (whole.parameters.zip entry.arguments) ∧
      Ready middle (whole.parameters.zip entry.arguments) (fun _ => False) type between := by
  obtain ⟨entry, entryKnown, isCopy⟩ := complete.mem_instancesOf.mp isInstance
  obtain ⟨-, whole', wholeKnown, uncopied, -⟩ := complete.copied entryKnown isCopy
  cases known.symm.trans wholeKnown
  obtain ⟨now, reached, continued⟩ := proceeds.entries entryKnown
  have nowCopy : now.definition = some definition := continued.definition.trans isCopy
  have isCopyNow : between.IsCopy type definition := ⟨now, reached, nowCopy⟩
  have answer := substitution_of_instance reached nowCopy (proceeds.left known uncopied)
  have suits := suits_of_isCopy isComplete.toClosed isCopyNow answer
  rw [continued.arguments] at answer suits
  exact ⟨entry, entryKnown, isCopy, uncopied, answer, isComplete, proceeds, suits, definition,
    isCopyNow⟩

variable (copies : Copies middle added copy)
include copies

/-- What is copied to each instance of a definition supplies them all, by induction on those that
remain: they are pending, and an instance that was copied to has what it had and what was added. -/
theorem forInstances_supplies
    (supplied : middle.Supplied fun type => middle.IsCopy type definition)
    (former : ∀ {type entry}, middle.type? type = some entry →
      entry.definition = some definition → ∀ reference ∈ middle.references whole,
        reference ∈ added ∨
          ∃ result, middle.Becomes (whole.parameters.zip entry.arguments) reference result)
    (ran : forInstances depth definition copy middle = .ok ((), after)) :
    after.Complete ∧ after.Proceeds middle ∧ after.Supplied fun _ => False := by
  have start : middle.Supplied fun type => type ∈ middle.instancesOf definition :=
    supplied.weaken fun _ isCopy => complete.mem_instancesOf.mpr isCopy
  obtain ⟨afterComplete, proceeds, afterSupplied, -⟩ := forInstances_induct
    (fun rest registry => registry.Complete ∧ registry.Proceeds middle ∧
      registry.Supplied (fun type => type ∈ rest) ∧ rest ⊆ middle.instancesOf definition)
    (fun {type rest between next substitution} invariant answer copied => by
      obtain ⟨isComplete, proceeds, isSupplied, within⟩ := invariant
      obtain ⟨entry, entryKnown, isCopy, uncopied, answer', ready⟩ := ready_instance complete known
        (within (List.mem_cons_self ..)) isComplete proceeds
      cases answer.symm.trans answer'
      obtain ⟨nextComplete, further⟩ := copies.proceeds (substitute_supplies depth _) ready copied
      obtain ⟨nextSupplied, become⟩ :=
        copies.supplies (substitute_supplies depth _) ready isSupplied copied
      have toNext := further.trans proceeds
      obtain ⟨now, reached, continued⟩ := toNext.entries entryKnown
      have each : ∀ reference ∈ next.references whole, ∃ result,
          next.Becomes (whole.parameters.zip now.arguments) reference result := by
        intro reference isReference
        rw [toNext.toGrows.references complete.toClosed known] at isReference
        rw [continued.arguments]
        cases former entryKnown isCopy reference isReference with
        | inl isAdded => exact become reference isAdded
        | inr becameBefore =>
          obtain ⟨result, becomes⟩ := becameBefore
          exact ⟨result, becomes.grow toNext.toGrows⟩
      have settled : next.Supplied fun other => other ∈ rest :=
        (nextSupplied.weaken fun other isPending => (List.mem_cons.mp isPending).symm).settle
          reached
          (continued.definition.trans isCopy) (toNext.left known uncopied) each
      exact ⟨nextComplete, toNext, settled,
        fun other inRest => within (List.mem_cons_of_mem _ inRest)⟩)
    ⟨complete, .refl _, start, fun _ => id⟩ ran
  exact ⟨afterComplete, proceeds, afterSupplied.weaken fun _ isPending => nomatch isPending⟩

/-- Copying to each instance of a definition returns if replacing what is added does, for each
instance. -/
theorem returns_forInstances
    (answers : ∀ {type entry}, middle.type? type = some entry →
      entry.definition = some definition →
        Answers (fun depth => substitute depth (whole.parameters.zip entry.arguments)) added
          middle) :
    Returns (fun depth => forInstances depth definition copy) middle := by
  refine returns_get.bind fun got => ?_
  obtain ⟨rfl, rfl⟩ := Work.get_eq_ok.mp got
  refine returns_forM (fun between => between.Complete ∧ between.Proceeds middle)
    (fun type isInstance between holds => ?_)
    (fun {type} isInstance {depth between next} holds acted => ?_) ⟨complete, .refl _⟩
  · obtain ⟨entry, entryKnown, isCopy, -, answer, ready⟩ :=
      ready_instance complete known isInstance holds.1 holds.2
    refine (returns_ask answer).bind fun asked => ?_
    obtain ⟨answer', rfl⟩ := ask_eq_ok.mp asked
    cases answer.symm.trans answer'
    exact copies.returns (fun depth => substitute_supplies depth _) ready
      ((answers entryKnown isCopy).later holds.2)
  · obtain ⟨substitution, _, asked, copied⟩ := Work.bind_eq_ok.mp acted
    obtain ⟨answer, rfl⟩ := ask_eq_ok.mp asked
    obtain ⟨entry, -, -, -, answer', ready⟩ :=
      ready_instance complete known isInstance holds.1 holds.2
    cases answer.symm.trans answer'
    obtain ⟨nextComplete, further⟩ := copies.proceeds (substitute_supplies depth _) ready copied
    exact ⟨nextComplete, further.trans holds.2⟩

end Propagation

end Registration

namespace Registry

/-- A registry in which every instance has what its definition refers to. -/
abbrev AllSupplied (registry : Registry) : Prop := registry.Supplied fun _ => False

/-- What an instance lacks when something is entered on its definition is what is entered. -/
theorem AllSupplied.former {before middle : Registry} {type : TypeId} {entry changed : TypeEntry}
    {added : Option MemberEntry} (supplied : before.AllSupplied)
    (amends : middle.Amends before type entry changed added) (continued : changed.Continues entry)
    {made : TypeId} {found : TypeEntry} (known : middle.type? made = some found)
    (isCopy : found.definition = some type) {reference : TypeId}
    (isReference : reference ∈ before.references entry) :
    ∃ result, middle.Becomes (changed.parameters.zip found.arguments) reference result := by
  obtain ⟨former, formerKnown, continued'⟩ := amends.continues continued known
  obtain ⟨result, becomes⟩ := supplied formerKnown (continued'.definition ▸ isCopy) amends.before
    not_false reference isReference
  rw [continued.parameters, continued'.arguments]
  exact ⟨result, becomes.grow (amends.keeps continued).toGrows⟩

variable {mayEdit : TypeEntry → Prop} {before after : Registry}

/-- An addition that refers to what is registered keeps all instances supplied. -/
theorem AllSupplied.register (supplied : before.AllSupplied) (complete : before.Complete)
    {depth : Nat} {type : TypeId} {entry : TypeEntry} {addition : Addition}
    (known : before.type? type = some entry) (refers : addition.Refers before)
    (ran : addition.register depth type before = .ok ((), after)) : after.AllSupplied := by
  rw [Addition.register_eq known refers] at ran
  obtain ⟨added, amends, continued, entered⟩ := Addition.enter_spec complete known refers
  have copies := Addition.copies_copy complete known refers
  have pending := supplied.lag complete.toClosed amends continued
  refine (forInstances_supplies entered amends.after copies pending ?_ ran).2.2
  intro made found foundKnown isCopy reference isReference
  exact (Addition.references_extend complete known refers reference isReference).imp_right
    fun isFormer => supplied.former amends continued foundKnown isCopy isFormer

/-- A declaration keeps all instances supplied. -/
theorem AllSupplied.declare (supplied : before.AllSupplied) (complete : before.Complete)
    (introduces : after.Introduces before) : after.AllSupplied := by
  have proceeds : after.Proceeds before := ⟨introduces.keeps, fun known _ => introduces.kept known⟩
  refine supplied.keep complete.toClosed proceeds fun isCopy _ => ?_
  obtain ⟨entry, known, isDefinition⟩ := isCopy
  cases introduces.fresh known with
  | inl isFormer => exact ⟨entry, isFormer, isDefinition⟩
  | inr isNew => cases isDefinition.symm.trans isNew.1

/-- A registration of what is registered keeps all instances supplied. -/
theorem Edit.supplied (edit : Edit mayEdit before after) (complete : before.Complete)
    (supplied : before.AllSupplied) : after.AllSupplied := by
  cases edit with
  | declare outers ran =>
    exact supplied.declare complete (declare_introduces complete.keeps outers ran)
  | @setBase depth type base _ known _ registered ran =>
    have refers : (Addition.base base).Refers before := registered
    exact supplied.register complete known refers ran
  | @addInterface depth type interface _ known _ ran =>
    have refers : (Addition.interface interface).Refers before := (addInterface_eq_ok.mp ran).1
    exact supplied.register complete known refers ran
  | @addMember depth type declaration member _ known _ types contracts ran =>
    have refers : (Addition.member declaration).Refers before := ⟨types, contracts⟩
    exact supplied.register complete known refers (Work.map_eq_ok.mpr ⟨member, ran, rfl⟩)
  | instantiate registered ran =>
    exact (instantiateWith_supplies (substitute_supplies _) complete registered ran supplied).1

/-- In the first registry, the one instance has what its definition refers to. -/
theorem initial_supplied : initial.AllSupplied := by
  intro type definition entry whole known isCopy wholeKnown _ reference isReference
  obtain ⟨rfl, rfl⟩ := initial_definition known isCopy
  cases known
  cases wholeKnown
  rcases List.mem_cons.mp isReference with rfl | isReference
  · exact ⟨_, .whole rfl rfl rfl⟩
  rcases List.mem_cons.mp isReference with rfl | isReference
  · exact ⟨_, .whole rfl rfl rfl⟩
  -- What is left is the parameter, which the one member answers with.
  cases List.mem_singleton.mp isReference
  exact ⟨_, .argument rfl⟩

/-- In every registry that is built, whatever a definition refers to becomes a registered type in
each of its instances. -/
theorem Built.supplied {registry : Registry} (built : Built mayEdit registry) :
    registry.AllSupplied := by
  induction built with
  | initial => exact initial_supplied
  | edit built edit ih => exact edit.supplied built.complete ih

end Registry

end Foreach
