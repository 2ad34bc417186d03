import Mathlib.Data.List.Nodup
import Foreach.Proofs.Types.Changes
import Foreach.Proofs.Types.Commuting

/-!
# Handles stay closed

Every handle that a registry stores names something registered, each member is listed once, by the
type that declares it and in the order of registration (`Registry.HandlesClosed`). A registration
takes nothing back: of what was there before, it only appends to lists, and it replaces no base but
those of a type whose base is set and of its instances (`Registry.Frames`).
-/
namespace Foreach

/-- The type that a parameter belongs to. -/
def TypeKind.owner? : TypeKind → Option TypeId
  | .parameter owner _ => some owner
  | _ => none

namespace Grant

variable (grant : Grant) (next : MemberId) (entry : TypeEntry)

/-- Only a base replaces the base. -/
theorem extend_base : (grant.extend next entry).base = entry.base ∨ grant.part = .base := by
  cases grant with
  | base type => exact .inr rfl
  | interface type => exact .inl rfl
  | member source => exact .inl rfl

/-- Only an interface is added to the interfaces. -/
theorem extend_interfaces :
    (grant.extend next entry).interfaces = entry.interfaces ∨ grant.part = .interfaces := by
  cases grant with
  | base type => exact .inl rfl
  | interface type => exact .inr rfl
  | member source => exact .inl rfl

/-- Only a member is added to the members. -/
theorem extend_members :
    (grant.extend next entry).members = entry.members ∨ grant.part = .members := by
  cases grant with
  | base type => exact .inl rfl
  | interface type => exact .inl rfl
  | member source => exact .inr rfl

end Grant

namespace Registry

/-- Of what one registry has, another has the members unchanged, and the types with longer lists of
interfaces and members at most and with their bases, except where parts are edited. Instances are
appended to the instances. -/
structure Frames (later earlier : Registry) (edits : EntryPart → TypeId → Prop) : Prop where
  /-- Types are continued, and only what is edited is different. -/
  types : ∀ {type entry}, earlier.type? type = some entry → ∃ changed,
    later.type? type = some changed ∧ changed.Continues entry ∧
      (changed.base = entry.base ∨ edits .base type) ∧
      (changed.interfaces = entry.interfaces ∨ edits .interfaces type) ∧
      (changed.members = entry.members ∨ edits .members type)
  /-- Members stay. -/
  members : ∀ {member source}, earlier.member? member = some source →
    later.member? member = some source
  /-- Instantiations are added to the record. -/
  instantiations : ∃ added, later.instantiations = earlier.instantiations ++ added
  /-- Instances are added to the lists of instances. -/
  instances : ∀ definition, ∃ added,
    later.instancesOf definition = earlier.instancesOf definition ++ added

/-- A registry frames itself. -/
theorem Frames.refl (registry : Registry) (edits : EntryPart → TypeId → Prop) :
    registry.Frames registry edits where
  types known := ⟨_, known, .refl _, .inl rfl, .inl rfl, .inl rfl⟩
  members := id
  instantiations := ⟨[], (List.append_nil _).symm⟩
  instances _ := ⟨[], (List.append_nil _).symm⟩

variable {scope : EditScope} {base before after : Registry}

/-- A change keeps a frame around what was there when its scope began. -/
theorem Change.frames (change : Change scope before after) (starts : scope.start = base.size)
    (frames : before.Frames base scope.edits) : after.Frames base scope.edits := by
  cases change with
  | @instantiate definition arguments whole wholeKnown =>
    constructor
    case types =>
      intro type entry known
      obtain ⟨changed, reached, same⟩ := frames.types known
      exact ⟨changed, before.type?_withInstance_of_some definition arguments whole reached, same⟩
    case members => exact frames.members
    case instantiations =>
      obtain ⟨added, same⟩ := frames.instantiations
      rw [withInstance, same, List.append_assoc]
      exact ⟨_, rfl⟩
    case instances =>
      intro other
      obtain ⟨added, same⟩ := frames.instances other
      rw [instancesOf_withInstance, same, List.append_assoc]
      exact ⟨_, rfl⟩
  | @grant owner former grant formerKnown belongs reason =>
    constructor
    case types =>
      intro type entry known
      obtain ⟨changed, reached, continued, bases, interfaces, members⟩ := frames.types known
      by_cases same : type = owner
      · subst same
        have edited {part : EntryPart} (isPart : grant.part = part) : scope.edits part type := by
          rcases reason with edited | ⟨isNew, -⟩
          · exact isPart ▸ edited
          · exact absurd (index_lt_of_type? known) (Nat.not_lt.mpr (starts ▸ isNew))
        refine ⟨_, grant.type?_enter_self type reached,
          (grant.extend_continues _ changed).trans continued, ?_, ?_, ?_⟩
        · rcases grant.extend_base ⟨before.members.size⟩ changed with stays | isPart
          · exact bases.imp_left stays.trans
          · exact .inr (edited isPart)
        · rcases grant.extend_interfaces ⟨before.members.size⟩ changed with stays | isPart
          · exact interfaces.imp_left stays.trans
          · exact .inr (edited isPart)
        · rcases grant.extend_members ⟨before.members.size⟩ changed with stays | isPart
          · exact members.imp_left stays.trans
          · exact .inr (edited isPart)
      · refine ⟨changed, ?_, continued, bases, interfaces, members⟩
        rw [Grant.type?_enter, if_neg same]
        exact reached
    case members => exact fun known => Grant.member?_enter_of_some (frames.members known)
    case instantiations =>
      rw [Grant.instantiations_enter]
      exact frames.instantiations
    case instances =>
      intro other
      rw [Grant.instancesOf_enter]
      exact frames.instances other

/-- Changes keep a frame around what was there when their scope began. -/
theorem Changes.frames (changes : Changes scope before after)
    (starts : scope.start = before.size) : after.Frames before scope.edits := by
  induction changes with
  | refl => exact .refl before scope.edits
  | tail _ change ih => exact change.frames starts ih

/-- What is declared is new, so everything that was there is framed. -/
theorem Declares.frames (declares : after.Declares before) :
    after.Frames before fun _ _ => False where
  types known := ⟨_, declares.kept known, .refl _, .inl rfl, .inl rfl, .inl rfl⟩
  members := declares.extension.members
  instantiations := declares.extension.instantiations
  instances definition := by
    refine ⟨[], ?_⟩
    rw [instancesOf, declares.instances, List.append_nil, instancesOf]

/-- Members are listed in the order of their registration, and parameters belong to registered
types. -/
structure Tidy (registry : Registry) : Prop where
  /-- The members of a type are listed in order. -/
  ascending : ∀ {type entry}, registry.type? type = some entry →
    entry.members.Pairwise (·.index < ·.index)
  /-- Listed members are registered. -/
  listed : ∀ {type entry member}, registry.type? type = some entry → member ∈ entry.members →
    registry.HasMember member
  /-- The type that a parameter belongs to is registered. -/
  owners : ∀ {type entry owner}, registry.type? type = some entry →
    entry.kind.owner? = some owner → registry.Has owner

/-- A change keeps a registry tidy: a member that is listed is the newest. -/
theorem Change.tidy (change : Change scope before after) (tidy : before.Tidy) : after.Tidy := by
  have has {type : TypeId} (known : before.Has type) : after.Has type :=
    Nat.lt_of_lt_of_le known change.size_le
  cases change with
  | @instantiate definition arguments whole wholeKnown =>
    constructor
    case ascending =>
      intro type entry known
      rcases type?_withInstance_cases _ _ _ _ known with ⟨rfl, rfl⟩ | former
      · exact .nil
      · exact tidy.ascending former
    case listed =>
      intro type entry member known isListed
      rcases type?_withInstance_cases _ _ _ _ known with ⟨rfl, rfl⟩ | former
      · cases isListed
      · exact tidy.listed former isListed
    case owners =>
      intro type entry owner known isParameter
      rcases type?_withInstance_cases _ _ _ _ known with ⟨rfl, rfl⟩ | former
      · exact has (tidy.owners wholeKnown isParameter)
      · exact has (tidy.owners former isParameter)
  | @grant owner former grant formerKnown belongs reason =>
    have hasMember {member : MemberId} (known : before.HasMember member) :
        (grant.enter before owner).HasMember member := by
      rw [HasMember, Grant.members_enter]
      exact Nat.lt_of_lt_of_le known (Nat.le_add_right _ _)
    constructor
    case ascending =>
      intro type entry known
      rcases Grant.type?_enter_cases known with ⟨rfl, entry', known', rfl⟩ | ⟨-, known'⟩
      · have ordered := tidy.ascending known'
        cases grant with
        | base type => exact ordered
        | interface type => exact ordered
        | member source =>
          refine List.pairwise_append.mpr ⟨ordered, List.pairwise_singleton _ _, ?_⟩
          intro member isListed other isNew
          rw [List.mem_singleton.mp isNew]
          exact tidy.listed known' isListed
      · exact tidy.ascending known'
    case listed =>
      intro type entry member known isListed
      rcases Grant.type?_enter_cases known with ⟨rfl, entry', known', rfl⟩ | ⟨-, known'⟩
      · cases grant with
        | base type => exact hasMember (tidy.listed known' isListed)
        | interface type => exact hasMember (tidy.listed known' isListed)
        | member source =>
          rcases List.mem_append.mp isListed with isListed | isNew
          · exact hasMember (tidy.listed known' isListed)
          · rw [List.mem_singleton.mp isNew, HasMember, Grant.members_enter]
            exact Nat.lt_succ_self _
      · exact hasMember (tidy.listed known' isListed)
    case owners =>
      intro type entry owner known isParameter
      rcases Grant.type?_enter_cases known with ⟨rfl, entry', known', rfl⟩ | ⟨-, known'⟩
      · rw [(grant.extend_continues _ entry').kind] at isParameter
        exact has (tidy.owners known' isParameter)
      · exact has (tidy.owners known' isParameter)

/-- Changes keep a registry tidy. -/
theorem Changes.tidy (changes : Changes scope before after) (tidy : before.Tidy) : after.Tidy := by
  induction changes with
  | refl => exact tidy
  | tail _ change ih => exact change.tidy ih

end Registry

/-- The entry of a declared type, without its parameters. -/
def TypeDeclaration.entry (declaration : TypeDeclaration) : TypeEntry where
  name := declaration.name
  space := declaration.space
  kind := declaration.sort.kind
  flags := declaration.flags
  base := declaration.sort.base
  outer := declaration.outer

namespace Registration

open Registry

/-- A declaration adds one type with its parameters, and nothing else. -/
theorem declare_entries {before after : Registry} {declaration : TypeDeclaration} {type : TypeId}
    (ran : declare declaration before = .ok (type, after)) :
    after.Has ⟨before.size⟩ ∧ after.members = before.members ∧
      ∀ {other entry}, after.type? other = some entry → before.type? other = some entry ∨
        (other = ⟨before.size⟩ ∧
          ∃ parameters, entry = { declaration.entry with parameters := parameters }) ∨
        other ≠ ⟨before.size⟩ ∧
          ∃ position name, entry = parameterEntry ⟨before.size⟩ position name := by
  obtain ⟨rfl, parameters⟩ := declare_eq_ok.mp ran
  refine Work.forM_induct
    (fun _ registry => registry.Has ⟨before.size⟩ ∧ registry.members = before.members ∧
      ∀ {other entry}, registry.type? other = some entry → before.type? other = some entry ∨
        (other = ⟨before.size⟩ ∧
          ∃ parameters, entry = { declaration.entry with parameters := parameters }) ∨
        other ≠ ⟨before.size⟩ ∧
          ∃ position name, entry = parameterEntry ⟨before.size⟩ position name)
    ?_ ⟨?_, rfl, fun {other entry} known => ?_⟩ parameters
  · rintro ⟨name, position⟩ rest here there ⟨has, members, entries⟩ ran
    obtain ⟨_, -, isThere⟩ := addParameter_eq_ok.mp ran
    obtain rfl : there =
      withParameter here ⟨before.size⟩ (parameterEntry ⟨before.size⟩ position name) := isThere
    refine ⟨?_, members, fun {other entry} known => ?_⟩
    · obtain ⟨entry, known⟩ := has_iff.mp has
      obtain ⟨changed, reached, -⟩ := type?_withParameter_of_some known
      exact has_iff.mpr ⟨changed, reached⟩
    · rcases type?_withParameter_cases has known with ⟨rfl, rfl⟩ | ⟨-, former⟩ | isOwner
      · refine .inr (.inr ⟨fun same => ?_, position, name, rfl⟩)
        exact Nat.ne_of_gt has (congrArg TypeId.index same)
      · exact entries former
      · obtain ⟨rfl, former, formerKnown, rfl⟩ := isOwner
        rcases entries formerKnown with known | ⟨-, parameters, rfl⟩ | ⟨differs, -⟩
        · exact absurd (index_lt_of_type? known) (Nat.lt_irrefl _)
        · exact .inr (.inl ⟨rfl, _, rfl⟩)
        · exact absurd rfl differs
  · exact has_iff.mpr ⟨_, before.type?_pushType_self declaration.entry⟩
  · rcases type?_pushType_cases known with ⟨isNew, rfl⟩ | former
    · exact .inr (.inl ⟨isNew, [], rfl⟩)
    · exact .inl former

/-- A declaration keeps a registry tidy. -/
theorem declare_tidy {before after : Registry} {declaration : TypeDeclaration} {type : TypeId}
    (tidy : before.Tidy) (kept : after.Keeps before)
    (ran : declare declaration before = .ok (type, after)) : after.Tidy := by
  obtain ⟨declared, members, entries⟩ := declare_entries ran
  constructor
  case ascending =>
    intro other entry known
    rcases entries known with former | ⟨-, parameters, rfl⟩ | ⟨-, position, name, rfl⟩
    · exact tidy.ascending former
    · exact .nil
    · exact .nil
  case listed =>
    intro other entry member known isListed
    rcases entries known with former | ⟨-, parameters, rfl⟩ | ⟨-, position, name, rfl⟩
    · exact kept.hasMember (tidy.listed former isListed)
    · cases isListed
    · cases isListed
  case owners =>
    intro other entry owner known isParameter
    rcases entries known with former | ⟨-, parameters, rfl⟩ | ⟨-, position, name, rfl⟩
    · exact kept.has (tidy.owners former isParameter)
    · cases sort : declaration.sort <;>
        simp [TypeDeclaration.entry, TypeSort.kind, TypeKind.owner?, sort] at isParameter
    · cases isParameter
      exact declared

end Registration

namespace Registry

variable {mayEdit : TypeEntry → Prop} {registry : Registry}

/-- The first registry is tidy. -/
theorem initial_tidy : initial.Tidy where
  ascending := initial_type? (fun _ entry => entry.members.Pairwise (·.index < ·.index))
    (by decide)
  listed {type entry member} known isListed := by
    have holds := initial_type? (fun _ entry => ∀ member ∈ entry.members, initial.HasMember member)
      (by decide) known
    exact holds member isListed
  owners {type entry owner} known isParameter := by
    have holds := initial_type? (fun _ entry => ∀ owner ∈ entry.kind.owner?, initial.Has owner)
      (by decide) known
    exact holds owner isParameter

/-- A registration of what is registered keeps a registry tidy. -/
theorem Edit.tidy {before after : Registry} (edit : Edit mayEdit before after)
    (complete : before.Complete) (tidy : before.Tidy) : after.Tidy := by
  have kept := (edit.complete complete).2
  have formed := complete.toWellFormed
  cases edit with
  | declare _ ran => exact Registration.declare_tidy tidy kept ran
  | setBase _ _ _ ran => exact (Registration.setBase_changes formed ran).tidy tidy
  | addInterface _ _ ran => exact (Registration.addInterface_changes formed ran).tidy tidy
  | addMember _ _ _ _ ran => exact (Registration.addDeclaredMember_changes formed ran).tidy tidy
  | instantiate _ ran => exact (Registration.instantiate_changes ran).tidy tidy

/-- Every registry that is built is tidy. -/
theorem Built.tidy (built : Built mayEdit registry) : registry.Tidy := by
  induction built with
  | initial => exact initial_tidy
  | edit built edit ih => exact edit.tidy built.complete ih

/-- The handles that an entry or a member stores are registered, and every member is listed once, by
the type that declares it. -/
structure HandlesClosed (registry : Registry) : Prop where
  /-- The types that an entry refers to are registered. -/
  types : ∀ {type entry}, registry.type? type = some entry →
    (∀ base ∈ entry.base, registry.Has base) ∧
    (∀ parameter ∈ entry.parameters, registry.Has parameter) ∧
    (∀ argument ∈ entry.arguments, registry.Has argument) ∧
    (∀ definition ∈ entry.definition, registry.Has definition) ∧
    (∀ outer ∈ entry.outer, registry.Has outer) ∧
    ∀ owner ∈ entry.kind.owner?, registry.Has owner
  /-- A listed interface is registered and flagged as one. -/
  interfaces : ∀ {type entry interface}, registry.type? type = some entry →
    interface ∈ entry.interfaces → registry.IsContract interface
  /-- What a member refers to is registered. -/
  members : ∀ {member source}, registry.member? member = some source →
    registry.Has source.owner ∧
    (∀ type ∈ source.kind.types, registry.Has type) ∧
    (∀ contract ∈ source.implements, registry.HasMember contract) ∧
    ∀ origin ∈ source.definition, registry.HasMember origin
  /-- What the record of instantiations refers to is registered. -/
  instantiations : ∀ made ∈ registry.instantiations, registry.Has made.definition ∧
    (∀ argument ∈ made.arguments, registry.Has argument) ∧ registry.Has made.result
  /-- A listed instance of a definition is registered. -/
  instances : ∀ {definition type}, type ∈ registry.instancesOf definition → registry.Has type
  /-- A listed member is registered. -/
  listed : ∀ {type entry member}, registry.type? type = some entry → member ∈ entry.members →
    registry.HasMember member
  /-- A member is listed once, by the type that declares it and by no other. -/
  once : ∀ {member source}, registry.member? member = some source →
    ∃ declares, registry.type? source.owner = some declares ∧ declares.members.count member = 1 ∧
      ∀ {type entry}, registry.type? type = some entry → member ∈ entry.members →
        type = source.owner
  /-- Members are listed in the order of their registration. -/
  ascending : ∀ {type entry}, registry.type? type = some entry →
    entry.members.Pairwise (·.index < ·.index)

/-- The handles of a tidy and closed registry are closed. -/
theorem Closed.handlesClosed (closed : registry.Closed) (tidy : registry.Tidy) :
    registry.HandlesClosed where
  types {type entry} known := by
    refine ⟨fun base => closed.bases known, fun parameter isListed => ?_,
      fun argument => closed.arguments known, fun definition isCopy => ?_, fun outer isOuter => ?_,
      fun owner => tidy.owners known⟩
    · obtain ⟨placed, placedKnown, -⟩ := closed.parameters known isListed
      exact has_iff.mpr ⟨placed, placedKnown⟩
    · obtain ⟨-, whole, wholeKnown, -⟩ := closed.copied known isCopy
      exact has_iff.mpr ⟨whole, wholeKnown⟩
    · exact Nat.lt_trans (closed.outers known isOuter) (index_lt_of_type? known)
  interfaces := closed.interfaces
  members {member source} known := by
    refine ⟨?_, fun type => closed.signatures known, fun contract => closed.implemented known,
      fun origin => closed.origins known⟩
    obtain ⟨declares, ownerKnown, -⟩ := closed.listed known
    exact has_iff.mpr ⟨declares, ownerKnown⟩
  instantiations made isMade := by
    obtain ⟨entry, known, isCopy, atArguments⟩ := closed.recorded isMade
    obtain ⟨-, whole, wholeKnown, -⟩ := closed.copied known isCopy
    exact ⟨has_iff.mpr ⟨whole, wholeKnown⟩,
      fun argument isArgument => closed.arguments known (atArguments ▸ isArgument),
      has_iff.mpr ⟨entry, known⟩⟩
  instances isListed := by
    obtain ⟨entry, known, -⟩ := closed.mem_instancesOf.mp isListed
    exact has_iff.mpr ⟨entry, known⟩
  listed := tidy.listed
  once {member source} known := by
    obtain ⟨declares, ownerKnown, isListed⟩ := closed.listed known
    refine ⟨declares, ownerKnown,
      List.count_eq_one_of_mem (closed.unique ownerKnown) isListed,
      fun {type entry} typeKnown isMember => ?_⟩
    obtain ⟨source', known', owner, -⟩ := closed.owned typeKnown isMember
    cases known.symm.trans known'
    exact owner.symm
  ascending := tidy.ascending

/-- In every registry that is built, whatever may be edited, handles are closed, and no registration
changes what is there, except that it appends to lists: declaring and instantiating leave every
entry; setting a base sets those of the type and of its instances; and adding an interface or a
member adds to the interfaces or the members of the type and of its instances. -/
theorem Built.handles_closed (built : Built mayEdit registry) :
    registry.HandlesClosed ∧
    (∀ {declaration type after}, (∀ outer ∈ declaration.outer, registry.Has outer) →
      Registration.declare declaration registry = .ok (type, after) →
        after.Frames registry fun _ _ => False) ∧
    (∀ {depth definition arguments type after},
      Registration.instantiate depth definition arguments registry = .ok (type, after) →
        after.Frames registry fun _ _ => False) ∧
    (∀ {depth type base after}, Registration.setBase depth type base registry = .ok ((), after) →
      after.Frames registry (registry.edits .base type)) ∧
    (∀ {depth type interface after},
      Registration.addInterface depth type interface registry = .ok ((), after) →
        after.Frames registry (registry.edits .interfaces type)) ∧
    ∀ {depth type declaration member after},
      Registration.addDeclaredMember depth type declaration registry = .ok (member, after) →
        after.Frames registry (registry.edits .members type) := by
  have complete := built.complete
  have formed := complete.toWellFormed
  exact ⟨complete.toClosed.handlesClosed built.tidy,
    fun outers ran => (Registration.declare_introduces complete.keeps outers ran).toDeclares.frames,
    fun ran => (Registration.instantiate_changes ran).frames rfl,
    fun ran => (Registration.setBase_changes formed ran).frames rfl,
    fun ran => (Registration.addInterface_changes formed ran).frames rfl,
    fun ran => (Registration.addDeclaredMember_changes formed ran).frames rfl⟩

/-- The class that was instantiated at integers gets one more property. The instance gets one as
well, in a list that was there, and nothing else of the class, of the instance or of any other type
changes. -/
theorem nodeTypes_handles_closed :
    nodeTypes.HandlesClosed ∧ ∃ after,
      Registration.addDeclaredMember 1 ⟨14⟩ (.property "Value" ⟨15⟩) nodeTypes =
        .ok (⟨10⟩, after) ∧
      after.Frames nodeTypes (nodeTypes.edits .members ⟨14⟩) ∧
      nodeTypes.edits .members ⟨14⟩ .members ⟨16⟩ := by
  obtain ⟨closed, -, -, -, -, adds⟩ := nodeTypes_built.handles_closed
  have ran : ∃ after, Registration.addDeclaredMember 1 ⟨14⟩ (.property "Value" ⟨15⟩) nodeTypes =
      .ok (⟨10⟩, after) := ⟨_, rfl⟩
  obtain ⟨after, added⟩ := ran
  obtain ⟨entry, known, isCopy⟩ : ∃ entry ∈ nodeTypes.type? ⟨16⟩, entry.definition = some ⟨14⟩ := by
    decide
  exact ⟨closed, after, added, adds added, rfl, .inr ⟨entry, known, isCopy⟩⟩

end Registry

end Foreach
