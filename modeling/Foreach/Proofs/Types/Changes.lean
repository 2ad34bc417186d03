import Mathlib.Logic.Relation
import Foreach.Proofs.Types.Built

/-!
# Registration, change by change

What a registration does to the entries of types it does in small changes: a bare instance is added
and recorded, or an entry is given a base, one more interface or one more member
(`Registry.Change`). An entry is given something because the registration edits it, or because it is
a new instance whose definition has something of the sort. What each change keeps, a registration
keeps (`Registry.Changes`).

All that is done to replace parameters is of the second kind (`substitute_advances`), whatever the
registry is like.
-/
namespace Foreach

/-- A part of an entry that registration adds to. -/
inductive EntryPart where
  /-- The base. -/
  | base
  /-- The declared interfaces. -/
  | interfaces
  /-- The declared members. -/
  | members

/-- An entry has something of a part. -/
def TypeEntry.Offers (entry : TypeEntry) : EntryPart → Prop
  | .base => entry.base ≠ none
  | .interfaces => entry.interfaces ≠ []
  | .members => entry.members ≠ []

/-- What an entry is given. -/
inductive Grant where
  /-- A base, in place of the one it had. -/
  | base (type : TypeId)
  /-- One more interface. -/
  | interface (type : TypeId)
  /-- One more member, which is registered with this. -/
  | member (source : MemberEntry)

namespace Grant

/-- The part that is added to. -/
def part : Grant → EntryPart
  | .base _ => .base
  | .interface _ => .interfaces
  | .member _ => .members

/-- The entry that has been given something, where the next member has a handle. -/
def extend (next : MemberId) (entry : TypeEntry) : Grant → TypeEntry
  | .base type => { entry with base := some type }
  | .interface type => { entry with interfaces := entry.interfaces ++ [type] }
  | .member _ => { entry with members := entry.members ++ [next] }

/-- The registry in which a type has been given something. -/
def enter (registry : Registry) (type : TypeId) (grant : Grant) : Registry :=
  let given := match grant with
    | .member source => (registry.pushMember source).1
    | _ => registry
  given.modifyType type fun entry => grant.extend ⟨registry.members.size⟩ entry

/-- A member is given to the type that it says declares it. -/
def Belongs (type : TypeId) : Grant → Prop
  | .member source => source.owner = type
  | _ => True

section Given

variable (grant : Grant)

/-- What has been given something continues what it was. -/
theorem extend_continues (next : MemberId) (entry : TypeEntry) :
    (grant.extend next entry).Continues entry := by
  cases grant with
  | base type => exact .withBase entry type
  | interface type => exact .withInterface entry type
  | member source => exact .withMember entry next

variable {registry : Registry} (type : TypeId)

/-- The type at a position, after a type has been given something. -/
theorem type?_enter (other : TypeId) :
    (grant.enter registry type).type? other =
      if other = type then
        (registry.type? other).map fun entry => grant.extend ⟨registry.members.size⟩ entry
      else registry.type? other := by
  cases grant <;> exact Registry.type?_modifyType _ _ _ _

/-- The type that has been given something. -/
theorem type?_enter_self {entry : TypeEntry} (known : registry.type? type = some entry) :
    (grant.enter registry type).type? type =
      some (grant.extend ⟨registry.members.size⟩ entry) := by
  rw [type?_enter, if_pos rfl, known]
  rfl

/-- A registered type stays, and continues what it was. -/
theorem type?_enter_of_some {other : TypeId} {entry : TypeEntry}
    (known : registry.type? other = some entry) :
    ∃ changed, (grant.enter registry type).type? other = some changed ∧
      changed.Continues entry := by
  rw [type?_enter]
  by_cases same : other = type
  · rw [if_pos same, known]
    exact ⟨_, rfl, grant.extend_continues _ entry⟩
  · rw [if_neg same]
    exact ⟨entry, known, .refl entry⟩

end Given

variable {registry : Registry} {type : TypeId} {grant : Grant}

/-- A type was there before, and perhaps it was given something. -/
theorem type?_enter_cases {other : TypeId} {found : TypeEntry}
    (known : (grant.enter registry type).type? other = some found) :
    (other = type ∧ ∃ entry, registry.type? type = some entry ∧
      found = grant.extend ⟨registry.members.size⟩ entry) ∨
    other ≠ type ∧ registry.type? other = some found := by
  rw [type?_enter] at known
  by_cases same : other = type
  · rw [if_pos same] at known
    obtain ⟨entry, former, rfl⟩ := Option.map_eq_some_iff.mp known
    exact .inl ⟨same, entry, same ▸ former, rfl⟩
  · rw [if_neg same] at known
    exact .inr ⟨same, known⟩

/-- The number of types stays. -/
@[simp] theorem size_enter : (grant.enter registry type).size = registry.size := by
  cases grant <;> simp [enter, Registry.size, Registry.modifyType, Registry.pushMember]

/-- The record of instantiations stays. -/
@[simp] theorem instantiations_enter :
    (grant.enter registry type).instantiations = registry.instantiations := by
  cases grant <;> rfl

/-- The lists of instances stay. -/
@[simp] theorem instancesOf_enter (definition : TypeId) :
    (grant.enter registry type).instancesOf definition = registry.instancesOf definition := by
  cases grant <;> rfl

/-- Registered members stay. -/
theorem member?_enter_of_some {member : MemberId} {source : MemberEntry}
    (known : registry.member? member = some source) :
    (grant.enter registry type).member? member = some source := by
  cases grant with
  | base type => exact known
  | interface type => exact known
  | member given =>
    exact (registry.member?_pushMember_of_lt given (Registry.index_lt_of_member? known)).trans
      known

/-- The members are as many as before, or one more if a member was given. -/
theorem members_enter :
    (grant.enter registry type).members.size =
      registry.members.size + match grant with | .member _ => 1 | _ => 0 := by
  cases grant <;> simp [enter, Registry.modifyType, Registry.pushMember]

end Grant

/-- What a registration may change: which parts of which types that were there, and all of the types
that are new. -/
structure EditScope where
  /-- The first new type. -/
  start : Nat
  /-- The parts of types that are edited. -/
  edits : EntryPart → TypeId → Prop

/-- The scope of what changes nothing that was there. -/
def EditScope.fresh (start : Nat) : EditScope := ⟨start, fun _ _ => False⟩

namespace Registry

/-- A type is an instance, with its definition's flags, of a definition that has something of a
part. -/
def MayGain (registry : Registry) (type : TypeId) (part : EntryPart) : Prop :=
  ∃ entry definition whole, registry.type? type = some entry ∧
    entry.definition = some definition ∧ registry.type? definition = some whole ∧
      entry.flags = whole.flags.forInstance ∧ whole.Offers part

/-- One change of a registry. -/
inductive Change (scope : EditScope) : Registry → Registry → Prop where
  /-- A bare instance of a registered type is added and recorded. -/
  | instantiate {registry : Registry} {definition : TypeId} {arguments : List TypeId}
    {entry : TypeEntry} (known : registry.type? definition = some entry) :
    Change scope registry (registry.withInstance definition arguments entry)
  /-- A type is given something: its part is edited, or the type is a new instance. -/
  | grant {registry : Registry} {type : TypeId} {entry : TypeEntry} {grant : Grant}
    (known : registry.type? type = some entry) (belongs : grant.Belongs type)
    (reason : scope.edits grant.part type ∨
      scope.start ≤ type.index ∧ registry.MayGain type grant.part) :
    Change scope registry (grant.enter registry type)

/-- Changes of a registry, one after the other. -/
abbrev Changes (scope : EditScope) : Registry → Registry → Prop :=
  Relation.ReflTransGen (Change scope)

variable {scope other : EditScope} {before after : Registry}

/-- There are no fewer types after a change. -/
theorem Change.size_le (change : Change scope before after) : before.size ≤ after.size := by
  cases change with
  | instantiate known => simp [size, withInstance, pushType]
  | grant known belongs reason => exact Nat.le_of_eq Grant.size_enter.symm

/-- There are no fewer types after changes. -/
theorem Changes.size_le (changes : Changes scope before after) : before.size ≤ after.size := by
  induction changes with
  | refl => exact Nat.le_refl _
  | tail _ change ih => exact Nat.le_trans ih change.size_le

/-- What a narrow scope allows, a wide one allows. -/
theorem Changes.widen (starts : other.start ≤ scope.start)
    (edits : ∀ {part type}, scope.edits part type → other.edits part type)
    (changes : Changes scope before after) : Changes other before after := by
  refine Relation.ReflTransGen.mono (fun earlier later change => ?_) _ _ changes
  cases change with
  | instantiate known => exact .instantiate known
  | grant known belongs reason =>
    exact .grant known belongs (reason.imp edits (.imp_left (Nat.le_trans starts)))

end Registry

namespace Registration

open Registry

variable {α β : Type} {replace : TypeId → Registration TypeId} {part : EntryPart}
  {type definition : TypeId} {whole : TypeEntry} {scope : EditScope} {before after : Registry}

/-- Work changes nothing that was there, whatever counts as new. -/
def Advances (work : Registration α) : Prop :=
  ∀ ⦃start before result after⦄, start ≤ before.size → work before = .ok (result, after) →
    Changes (.fresh start) before after

/-- What changes nothing that was there is composed of what changes nothing. -/
theorem composes_advances : Composes fun _ work => Advances work where
  pure value start before result after _ ended := by
    obtain ⟨-, rfl⟩ := Work.pure_eq_ok.mp ended
    exact .refl
  ask question start before result after _ ended := by
    obtain ⟨-, rfl⟩ := ask_eq_ok.mp ended
    exact .refl
  bind first second start before result after enough ended := by
    obtain ⟨value, middle, started, ended⟩ := Work.bind_eq_ok.mp ended
    have changes := first enough started
    exact changes.trans (second value (Nat.le_trans enough changes.size_le) ended)

/-- Work gives a type something of a part, after it has changed nothing that was there. -/
def Gives (part : EntryPart) (type : TypeId) (work : Registration Unit) : Prop :=
  ∀ ⦃before after⦄, work before = .ok ((), after) → ∃ middle entry, ∃ grant : Grant,
    (∀ start ≤ before.size, Changes (.fresh start) before middle) ∧
    (∀ {other entry}, before.type? other = some entry → middle.type? other = some entry) ∧
    middle.type? type = some entry ∧ grant.part = part ∧ grant.Belongs type ∧
      after = grant.enter middle type

section Copies

variable (advances : ∀ type, Advances (replace type)) (leaves : ∀ type, LeavesAll (replace type))
include advances leaves

/-- Copying a base gives it. -/
theorem gives_copyBase (base : TypeId) : Gives .base type (copyBase replace type base) := by
  intro before after copied
  obtain ⟨base', middle, entry, replaced, known, rfl⟩ := copyBase_eq_ok.mp copied
  exact ⟨middle, entry, .base base', fun start enough => advances base enough replaced,
    leaves base replaced trivial, known, rfl, trivial, rfl⟩

/-- Copying an interface gives one. -/
theorem gives_copyInterface (interface : TypeId) :
    Gives .interfaces type (copyInterface replace type interface) := by
  intro before after copied
  obtain ⟨interface', middle, entry, replaced, known, rfl⟩ := copyInterface_eq_ok.mp copied
  exact ⟨middle, entry, .interface interface',
    fun start enough => advances interface enough replaced, leaves interface replaced trivial,
    known, rfl, trivial, rfl⟩

/-- Copying a member gives one that the type declares. -/
theorem gives_copyMember (member : MemberId) :
    Gives .members type (copyMember replace type member) := by
  intro before after copied
  obtain ⟨source, kind, middle, implements, last, entry, -, kindCopied, counterparts, known, rfl⟩ :=
    copyMember_eq_ok.mp copied
  refine ⟨last, entry, .member ⟨source.name, type, source.flags, kind, implements,
    some (source.definition.getD member)⟩, fun start enough => ?_, fun {other entry} isKnown => ?_,
    known, rfl, rfl, rfl⟩
  · have first := composes_advances.copyKind advances _ enough kindCopied
    have second := composes_advances.counterparts advances _
      (Nat.le_trans enough first.size_le) counterparts
    exact first.trans second
  · have atMiddle := composes_leaves.copyKind leaves _ kindCopied trivial isKnown
    exact composes_leaves.counterparts leaves _ counterparts trivial atMiddle

end Copies

/-- A type is an instance of another, whose entry is known. -/
structure Filling (registry : Registry) (type definition : TypeId) (whole : TypeEntry) : Prop where
  /-- The type is an instance and has the definition's flags. -/
  copy : ∃ entry, registry.type? type = some entry ∧ entry.definition = some definition ∧
    entry.flags = whole.flags.forInstance
  /-- The definition is registered. -/
  known : registry.type? definition = some whole
  /-- The definition is another type. -/
  differs : definition ≠ type

/-- Work that gives a type something makes changes that its scope allows. -/
theorem Gives.changes {work : Registration Unit} (gives : Gives part type work)
    (enough : scope.start ≤ before.size)
    (reason : scope.edits part type ∨ scope.start ≤ type.index ∧ before.MayGain type part)
    (ran : work before = .ok ((), after)) : Changes scope before after := by
  obtain ⟨middle, entry, grant, advanced, left, known, rfl, belongs, rfl⟩ := gives ran
  have changes : Changes scope before middle := by
    refine (advanced scope.start enough).widen ?_ ?_
    · exact Nat.le_refl _
    · exact False.elim
  refine changes.tail (.grant known belongs (reason.imp_right (.imp_right ?_)))
  rintro ⟨entry', definition, whole, entryKnown, isCopy, wholeKnown, gains⟩
  exact ⟨entry', definition, whole, left entryKnown, isCopy, left wholeKnown, gains⟩

/-- An instance that is given something stays one, and its definition stays as it is. -/
theorem Gives.filling {work : Registration Unit} (gives : Gives part type work)
    (filling : Filling before type definition whole) (ran : work before = .ok ((), after)) :
    Filling after type definition whole := by
  obtain ⟨middle, entry, grant, -, left, -, -, -, rfl⟩ := gives ran
  obtain ⟨former, known, isDefinition, flags⟩ := filling.copy
  obtain ⟨changed, reached, continued⟩ := grant.type?_enter_of_some type (left known)
  refine ⟨⟨changed, reached, continued.definition.trans isDefinition,
    continued.flags.trans flags⟩, ?_, filling.differs⟩
  rw [Grant.type?_enter, if_neg filling.differs]
  exact left filling.known

/-- A new instance may be given what its definition has. -/
theorem Filling.mayGain (filling : Filling before type definition whole)
    (offers : whole.Offers part) : before.MayGain type part := by
  obtain ⟨entry, known, isDefinition, flags⟩ := filling.copy
  exact ⟨entry, definition, whole, known, isDefinition, filling.known, flags, offers⟩

/-- A new instance is given something for each part of a list, if its definition has something of
the sort wherever there is one. -/
theorem forM_fills {action : α → Registration Unit}
    (gives : ∀ given, Gives part type (action given))
    {parts : List α} (offers : parts ≠ [] → whole.Offers part) (enough : scope.start ≤ type.index)
    (filling : Filling before type definition whole)
    (ran : parts.forM action before = .ok ((), after)) :
    Changes scope before after ∧ Filling after type definition whole := by
  obtain ⟨changes, filled, -⟩ := Work.forM_induct
    (fun rest registry => Changes scope before registry ∧ Filling registry type definition whole ∧
      (rest ≠ [] → whole.Offers part))
    (fun next rest here there ⟨changes, filling, offers⟩ acted => by
      have offered := offers (List.cons_ne_nil _ _)
      obtain ⟨entry, known, -⟩ := filling.copy
      have enoughHere := Nat.le_trans enough (Nat.le_of_lt (index_lt_of_type? known))
      have step := (gives next).changes enoughHere (.inr ⟨enough, filling.mayGain offered⟩) acted
      exact ⟨changes.trans step, (gives next).filling filling acted, fun _ => offered⟩)
    ⟨.refl, filling, offers⟩ ran
  exact ⟨changes, filled⟩

/-- Using a definition at arguments changes nothing that was there. -/
theorem instantiateWith_advances {replace : Substitution → TypeId → Registration TypeId}
    (advances : ∀ substitution type, Advances (replace substitution type))
    (leaves : ∀ substitution type, LeavesAll (replace substitution type)) (definition : TypeId)
    (arguments : List TypeId) : Advances (instantiateWith replace definition arguments) := by
  intro start before result after enough made
  obtain ⟨whole, known, -, -, decided⟩ := instantiateWith_cases made
  rcases decided with ⟨-, -, rfl⟩ | ⟨-, ⟨-, rfl⟩ | isNew⟩
  · exact .refl
  · exact .refl
  · obtain ⟨-, rfl, first, second, base, interfaces, members⟩ := isNew
    have filling : Filling (before.withInstance definition arguments whole) ⟨before.size⟩ definition
        whole := by
      refine ⟨⟨_, before.type?_withInstance_self definition arguments whole, rfl, rfl⟩,
        before.type?_withInstance_of_some definition arguments whole known, ?_⟩
      rintro rfl
      exact Nat.lt_irrefl _ (index_lt_of_type? known)
    have based : Changes (.fresh start) (before.withInstance definition arguments whole) first ∧
        Filling first ⟨before.size⟩ definition whole := by
      cases given : whole.base with
      | none =>
        rw [given] at base
        obtain ⟨-, rfl⟩ := Work.pure_eq_ok.mp base
        exact ⟨.refl, filling⟩
      | some origin =>
        rw [given] at base
        have offers : whole.Offers .base := fun isNone => nomatch given.symm.trans isNone
        have copied : [origin].forM
            (copyBase (replace (whole.parameters.zip arguments)) ⟨before.size⟩)
            (before.withInstance definition arguments whole) = .ok ((), first) :=
          Work.bind_eq_ok.mpr ⟨(), first, base, rfl⟩
        exact forM_fills (gives_copyBase (advances _) (leaves _)) (fun _ => offers) enough filling
          copied
    have filled : Changes (.fresh start) first second ∧
        Filling second ⟨before.size⟩ definition whole :=
      forM_fills (gives_copyInterface (advances _) (leaves _)) id enough based.2 interfaces
    have done : Changes (.fresh start) second after ∧
        Filling after ⟨before.size⟩ definition whole :=
      forM_fills (gives_copyMember (advances _) (leaves _)) id enough filled.2 members
    exact .head (.instantiate known) (based.1.trans (filled.1.trans done.1))

/-- Replacing parameters changes nothing that was there, at every depth. -/
theorem substitute_advances (depth : Nat) :
    ∀ (substitution : Substitution) (type : TypeId),
      Advances (substitute depth substitution type) := by
  induction depth with
  | zero =>
    intro substitution type start before result after _ stopped
    cases stopped
  | succ depth ih =>
    intro substitution type start before result after enough replaced
    by_cases proper : substitution = []
    · rw [proper, substitute, if_pos List.isEmpty_nil] at replaced
      obtain ⟨rfl, rfl⟩ := Work.pure_eq_ok.mp replaced
      exact .refl
    obtain ⟨-, rfl⟩ | ⟨-, entry, -, decided⟩ := substitute_cases proper replaced
    · exact .refl
    obtain ⟨-, -, rfl⟩ | ⟨definition, arguments, middle, -, listed, made⟩ := decided
    · exact .refl
    have changes := composes_advances.mapM (ih substitution) _ enough listed
    rcases made with ⟨-, -, rfl⟩ | made
    · exact changes
    · exact changes.trans (instantiateWith_advances ih (substitute_leaves depth) definition
        arguments (Nat.le_trans enough changes.size_le) made)

section Registrations

variable {depth : Nat}

/-- Each instance of a definition is given something. -/
theorem forInstances_changes {action : (TypeId → Registration TypeId) → TypeId → Registration Unit}
    (gives : ∀ {replace}, (∀ type, Advances (replace type)) → (∀ type, LeavesAll (replace type)) →
      ∀ made, Gives part made (action replace made))
    (enough : scope.start ≤ before.size)
    (edits : ∀ made ∈ before.instancesOf definition, scope.edits part made)
    (ran : forInstances depth definition action before = .ok ((), after)) :
    Changes scope before after := by
  refine (forInstances_induct
    (fun rest registry => Changes scope before registry ∧ rest ⊆ before.instancesOf definition)
    (fun {made rest here there substitution} ⟨changes, within⟩ _ acted => ?_)
    ⟨.refl, fun _ => id⟩ ran).1
  have step := (gives (substitute_advances depth substitution)
    (substitute_leaves depth substitution) made).changes (Nat.le_trans enough changes.size_le)
    (.inl (edits made (within (List.mem_cons_self ..)))) acted
  exact ⟨changes.trans step, fun _ inRest => within (List.mem_cons_of_mem _ inRest)⟩

end Registrations

end Registration

namespace Registry

/-- What an addition to a type edits: one part of the type and of its instances. -/
def edits (registry : Registry) (part : EntryPart) (type : TypeId) (edited : EntryPart)
    (other : TypeId) : Prop :=
  edited = part ∧ (other = type ∨ registry.IsCopy other type)

/-- The scope of an addition to a type. -/
def editing (registry : Registry) (part : EntryPart) (type : TypeId) : EditScope :=
  ⟨registry.size, registry.edits part type⟩

end Registry

namespace Registration

open Registry

variable {depth : Nat} {type : TypeId} {before after : Registry} (formed : before.WellFormed)
include formed

/-- A type is given something, and after that each of its instances. -/
theorem addition_changes (grant : Grant) {entry : TypeEntry}
    (known : before.type? type = some entry)
    (belongs : grant.Belongs type)
    {action : (TypeId → Registration TypeId) → TypeId → Registration Unit}
    (gives : ∀ {replace}, (∀ type, Advances (replace type)) → (∀ type, LeavesAll (replace type)) →
      ∀ made, Gives grant.part made (action replace made))
    (ran : forInstances depth type action (grant.enter before type) = .ok ((), after)) :
    Changes (before.editing grant.part type) before after := by
  refine .head (.grant known belongs (.inl ⟨rfl, .inl rfl⟩)) (forInstances_changes gives ?_ ?_ ran)
  · exact Nat.le_of_eq Grant.size_enter.symm
  · intro made isInstance
    rw [Grant.instancesOf_enter] at isInstance
    exact ⟨rfl, .inr (formed.mem_instancesOf.mp isInstance)⟩

/-- Setting a base edits the bases of the type and of its instances. -/
theorem setBase_changes {base : TypeId} (ran : setBase depth type base before = .ok ((), after)) :
    Changes (before.editing .base type) before after := by
  obtain ⟨entry, known, propagated⟩ := setBase_eq_ok.mp ran
  refine addition_changes formed (.base base) known trivial ?_ propagated
  exact fun advances leaves made => gives_copyBase advances leaves base

/-- Adding an interface edits the interfaces of the type and of its instances. -/
theorem addInterface_changes {interface : TypeId}
    (ran : addInterface depth type interface before = .ok ((), after)) :
    Changes (before.editing .interfaces type) before after := by
  obtain ⟨-, entry, known, propagated⟩ := addInterface_eq_ok.mp ran
  refine addition_changes formed (.interface interface) known trivial ?_ propagated
  exact fun advances leaves made => gives_copyInterface advances leaves interface

/-- Adding a member edits the members of the type and of its instances. -/
theorem addDeclaredMember_changes {declaration : MemberDeclaration} {member : MemberId}
    (ran : addDeclaredMember depth type declaration before = .ok (member, after)) :
    Changes (before.editing .members type) before after := by
  obtain ⟨rfl, entry, known, propagated⟩ := addDeclaredMember_eq_ok.mp ran
  refine addition_changes formed (.member ⟨declaration.name, type, declaration.flags,
    declaration.kind, declaration.implements, none⟩) known rfl ?_ propagated
  exact fun advances leaves made => gives_copyMember advances leaves _

omit formed in
/-- Instantiating a definition edits nothing. -/
theorem instantiate_changes {definition result : TypeId} {arguments : List TypeId}
    (ran : instantiate depth definition arguments before = .ok (result, after)) :
    Changes (.fresh before.size) before after :=
  instantiateWith_advances (substitute_advances depth) (substitute_leaves depth) definition
    arguments (Nat.le_refl _) ran

end Registration

end Foreach
