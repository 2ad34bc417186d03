import Foreach.Proofs.Types.Substitution

/-!
# What registration does not touch

Replacing parameters may make instances, and fills those that it makes. It touches no entry of a
type that was there before, whatever the registry is like (`substitute_leaves`): copying to an
instance changes that instance alone. So an instance that is being filled has, at any time, what was
copied to it so far and nothing else.
-/
namespace Foreach.Registration

variable {α β : Type} {spared : TypeId → Prop}

/-- A property of work that values and questions have and that sequencing keeps. -/
structure Composes (holds : ∀ ⦃α : Type⦄, Registration α → Prop) : Prop where
  /-- A value alone has it. -/
  pure : ∀ {α : Type} (value : α), holds (pure value : Registration α)
  /-- A question has it. -/
  ask : ∀ {α : Type} (question : Registry → Checked α), holds (ask question)
  /-- Work in sequence has it if its parts have it. -/
  bind : ∀ {α β : Type} {work : Registration α} {next : α → Registration β}, holds work →
    (∀ value, holds (next value)) → holds (work >>= next)

namespace Composes

variable {holds : ∀ ⦃α : Type⦄, Registration α → Prop} (composes : Composes holds)
include composes

/-- Work with another answer has what the work has. -/
theorem map {work : Registration α} (answer : α → β) (has : holds work) :
    holds (answer <$> work) := by
  rw [map_eq_pure_bind]
  exact composes.bind has fun _ => composes.pure _

/-- Work on part after part has what the work on each part has. -/
theorem mapM {action : α → Registration β} (each : ∀ part, holds (action part))
    (parts : List α) : holds (parts.mapM action) := by
  induction parts with
  | nil => exact composes.pure _
  | cons part rest ih =>
    rw [List.mapM_cons]
    exact composes.bind (each part) fun _ => composes.bind ih fun _ => composes.pure _

variable {replace : TypeId → Registration TypeId} (each : ∀ type, holds (replace type))
include each

/-- Replacing in a signature has what replacing has. -/
theorem copyKind (kind : MemberKind) : holds (copyKind replace kind) := by
  cases kind with
  | method parameters returns =>
    exact composes.bind (composes.mapM each parameters) fun _ =>
      composes.bind (each returns) fun _ => composes.pure _
  | property type => exact composes.bind (each type) fun _ => composes.pure _

/-- Looking for the member that stands for another has what replacing has. -/
theorem counterpart (member : MemberId) : holds (counterpart replace member) := by
  refine composes.bind (composes.ask _) fun entry =>
    composes.bind (each entry.owner) fun owner => ?_
  split
  case isTrue => exact composes.pure _
  case isFalse =>
    exact composes.bind (composes.ask _) fun _ =>
      composes.bind (composes.ask _) fun _ => composes.pure _

/-- Looking for the member that stands for another, if there is one, has what replacing has. -/
theorem counterparts (member : Option MemberId) :
    holds (member.mapM (Registration.counterpart replace)) := by
  cases member with
  | none => exact composes.pure _
  | some member => exact composes.map some (composes.counterpart each member)

end Composes

/-- Work leaves the entries of some types, wherever it begins. -/
def Leaves (spared : TypeId → Prop) (work : Registration α) : Prop :=
  ∀ ⦃before result after⦄, work before = .ok (result, after) →
    ∀ ⦃type entry⦄, spared type → before.type? type = some entry → after.type? type = some entry

/-- Work that leaves some types leaves fewer. -/
theorem Leaves.fewer {others : TypeId → Prop} {work : Registration α} (leaves : Leaves spared work)
    (fewer : ∀ type, others type → spared type) : Leaves others work :=
  fun _ _ _ ended type _ isOther known => leaves ended (fewer type isOther) known

/-- What leaves some types is composed of what leaves them. -/
theorem composes_leaves : Composes fun _ work => Leaves spared work where
  pure value before result after ended type entry _ known := by
    obtain ⟨-, rfl⟩ := Work.pure_eq_ok.mp ended
    exact known
  ask question before result after ended type entry _ known := by
    obtain ⟨-, rfl⟩ := ask_eq_ok.mp ended
    exact known
  bind first second before result after ended type entry isSpared known := by
    obtain ⟨value, middle, started, ended⟩ := Work.bind_eq_ok.mp ended
    exact second value ended isSpared (first started isSpared known)

/-- Work in sequence leaves what its parts leave. -/
theorem Leaves.bind {work : Registration α} {next : α → Registration β}
    (first : Leaves spared work) (second : ∀ value, Leaves spared (next value)) :
    Leaves spared (work >>= next) :=
  composes_leaves.bind first second

/-- Work on part after part leaves what the work on each part leaves. -/
theorem leaves_forM {action : α → Registration Unit} (each : ∀ part, Leaves spared (action part))
    (parts : List α) : Leaves spared (parts.forM action) := by
  intro before result after ended type entry isSpared known
  exact Work.forM_induct (fun _ registry => registry.type? type = some entry)
    (fun part _ _ _ kept step => each part step isSpared kept) known ended

/-- Work on a part, if there is one, leaves what the work on each part leaves. -/
theorem leaves_optionForM {action : α → Registration Unit}
    (each : ∀ part, Leaves spared (action part)) (part : Option α) :
    Leaves spared (part.forM action) := by
  cases part with
  | none => exact composes_leaves.pure _
  | some part => exact each part

/-- A member that no type lists yet leaves all types. -/
theorem leaves_addMember (entry : MemberEntry) : Leaves spared (addMember entry) := by
  intro before result after ended type former _ known
  obtain ⟨rfl, rfl⟩ := addMember_eq_ok.mp ended
  exact known

/-- A change of one type leaves the others. -/
theorem leaves_changeType (type : TypeId) (change : TypeEntry → TypeEntry) :
    Leaves (· ≠ type) (changeType type change) := by
  intro before result after ended other entry different known
  obtain ⟨-, -, rfl⟩ := changeType_eq_ok.mp ended
  rw [Registry.type?_modifyType, if_neg different]
  exact known

section Copies

variable {replace : TypeId → Registration TypeId} (leaves : ∀ type, Leaves spared (replace type))
include leaves

variable {type : TypeId} (others : ∀ other, spared other → other ≠ type)
include others

/-- Copying a base to an instance leaves what replacing leaves, except that instance. -/
theorem leaves_copyBase (base : TypeId) : Leaves spared (copyBase replace type base) :=
  .bind (leaves base) fun _ => (leaves_changeType type _).fewer others

/-- Copying an interface to an instance leaves what replacing leaves, except that instance. -/
theorem leaves_copyInterface (interface : TypeId) :
    Leaves spared (copyInterface replace type interface) :=
  .bind (leaves interface) fun _ => (leaves_changeType type _).fewer others

/-- Copying a member to an instance leaves what replacing leaves, except that instance. -/
theorem leaves_copyMember (member : MemberId) : Leaves spared (copyMember replace type member) :=
  .bind (composes_leaves.ask _) fun _ => .bind (composes_leaves.copyKind leaves _) fun _ =>
    .bind (composes_leaves.counterparts leaves _) fun _ => .bind (leaves_addMember _) fun _ =>
      (leaves_changeType type _).fewer others

end Copies

/-- Every registered type is left. -/
abbrev LeavesAll (work : Registration α) : Prop := Leaves (fun _ => True) work

section Filling

variable {replace : TypeId → Registration TypeId} (leaves : ∀ type, LeavesAll (replace type))
  {type : TypeId} {before after : Registry} {entry : TypeEntry}
include leaves

/-- Copying a base to an instance adds no member to it. -/
theorem copyBase_members {base : TypeId} (known : before.type? type = some entry)
    (copied : copyBase replace type base before = .ok ((), after)) :
    ∃ changed, after.type? type = some changed ∧ changed.members = entry.members := by
  obtain ⟨base', middle, _, replaced, -, rfl⟩ := copyBase_eq_ok.mp copied
  rw [Registry.type?_modifyType, if_pos rfl, leaves base replaced trivial known]
  exact ⟨_, rfl, rfl⟩

/-- Copying an interface to an instance adds no member to it. -/
theorem copyInterface_members {interface : TypeId} (known : before.type? type = some entry)
    (copied : copyInterface replace type interface before = .ok ((), after)) :
    ∃ changed, after.type? type = some changed ∧ changed.members = entry.members := by
  obtain ⟨interface', middle, _, replaced, -, rfl⟩ := copyInterface_eq_ok.mp copied
  rw [Registry.type?_modifyType, if_pos rfl, leaves interface replaced trivial known]
  exact ⟨_, rfl, rfl⟩

/-- An instance has no more members when its base and its interfaces have been copied to it. -/
theorem copyLinks_members {base : Option TypeId} {interfaces : List TypeId} {middle : Registry}
    (known : before.type? type = some entry)
    (baseCopied : base.forM (copyBase replace type) before = .ok ((), middle))
    (interfacesCopied : interfaces.forM (copyInterface replace type) middle = .ok ((), after)) :
    ∃ changed, after.type? type = some changed ∧ changed.members = entry.members := by
  have atMiddle : ∃ changed, middle.type? type = some changed ∧
      changed.members = entry.members := by
    cases base with
    | none =>
      obtain ⟨-, rfl⟩ := Work.pure_eq_ok.mp baseCopied
      exact ⟨entry, known, rfl⟩
    | some base => exact copyBase_members leaves known baseCopied
  exact Work.forM_induct
    (fun _ registry => ∃ changed, registry.type? type = some changed ∧
      changed.members = entry.members)
    (fun _ _ _ _ ⟨changed, here, same⟩ copied => by
      obtain ⟨changed', there, same'⟩ := copyInterface_members leaves here copied
      exact ⟨changed', there, same'.trans same⟩)
    atMiddle interfacesCopied

end Filling

/-- Using a definition at arguments leaves every type, since only a new instance is filled. -/
theorem leaves_instantiateWith {replace : Substitution → TypeId → Registration TypeId}
    (leaves : ∀ substitution type, LeavesAll (replace substitution type)) (definition : TypeId)
    (arguments : List TypeId) : LeavesAll (instantiateWith replace definition arguments) := by
  intro before result after made type entry _ known
  obtain ⟨whole, -, -, -, decided⟩ := instantiateWith_cases made
  rcases decided with ⟨-, -, rfl⟩ | ⟨-, ⟨-, rfl⟩ | isNew⟩
  · exact known
  · exact known
  · obtain ⟨-, rfl, first, second, base, interfaces, members⟩ := isNew
    have isOld : type ≠ ⟨before.size⟩ := by
      rintro rfl
      exact Nat.lt_irrefl _ (Registry.index_lt_of_type? known)
    have each : ∀ other, Leaves (· ≠ (⟨before.size⟩ : TypeId))
        (replace (whole.parameters.zip arguments) other) :=
      fun other => (leaves _ other).fewer fun _ _ => trivial
    have added := before.type?_withInstance_of_some definition arguments whole known
    have atFirst := leaves_optionForM (leaves_copyBase each fun _ => id) _ base isOld added
    have atSecond := leaves_forM (leaves_copyInterface each fun _ => id) _ interfaces isOld atFirst
    exact leaves_forM (leaves_copyMember each fun _ => id) _ members isOld atSecond

/-- Replacing parameters leaves every registered type, at every depth. -/
theorem substitute_leaves (depth : Nat) :
    ∀ (substitution : Substitution) (type : TypeId),
      LeavesAll (substitute depth substitution type) := by
  induction depth with
  | zero =>
    intro substitution type before result after stopped
    cases stopped
  | succ depth ih =>
    intro substitution type before result after replaced other entry _ known
    by_cases proper : substitution = []
    · rw [proper, substitute, if_pos List.isEmpty_nil] at replaced
      obtain ⟨rfl, rfl⟩ := Work.pure_eq_ok.mp replaced
      exact known
    rcases substitute_cases proper replaced with ⟨-, rfl⟩ | ⟨-, found, -, decided⟩
    · exact known
    rcases decided with ⟨-, -, rfl⟩ | ⟨definition, arguments, middle, -, listed, made⟩
    · exact known
    have atMiddle := composes_leaves.mapM (ih substitution) _ listed trivial known
    rcases made with ⟨-, -, rfl⟩ | made
    · exact atMiddle
    · exact leaves_instantiateWith ih definition arguments made trivial atMiddle

end Foreach.Registration
