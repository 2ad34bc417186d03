import Mathlib.Data.Fintype.Pigeonhole
import Foreach.Proofs.Types.Handles
import Foreach.Proofs.Types.Lookup

/-!
# Convertibility

A walk along bases takes as many steps as there are types, which is enough to visit every type
above: whatever is reached at all is reached before a type repeats (`Closed.mem_ancestors`). So a
type above a type above is above, also where bases run in circles.

Two results follow. A type whose values live on the stack alone serves as itself and as the types
above it that are neither contracts nor `object`, and as nothing else
(`Built.stackOnly_assignable`). And where contracts have no base and `object` has neither base nor
interface, convertibility is a preorder for all types but those and generic parameters
(`Rooted.assignable_preorder`).
-/
namespace Foreach

namespace Registry

/-- The type that is reached by a number of steps from a type to its base. -/
def climb (registry : Registry) : Nat → TypeId → Option TypeId
  | 0, type => some type
  | steps + 1, type =>
    (registry.type? type).bind fun entry => entry.base.bind (registry.climb steps)

/-- To climb further is to climb on. -/
theorem climb_add (registry : Registry) (first second : Nat) (type : TypeId) :
    registry.climb (first + second) type =
      (registry.climb first type).bind (registry.climb second) := by
  induction first generalizing type with
  | zero => rw [Nat.zero_add, climb, Option.bind_some]
  | succ first ih =>
    rw [Nat.succ_add, climb, climb]
    cases registry.type? type with
    | none => rfl
    | some entry =>
      cases given : entry.base with
      | none => simp [given]
      | some base => simpa [given] using ih base

section Climbing

variable {registry : Registry} (closed : registry.Closed) {type target : TypeId}
  (has : registry.Has type)
include closed has

/-- Only registered types are reached. -/
theorem Closed.climb_has {steps : Nat} (reached : registry.climb steps type = some target) :
    registry.Has target := by
  induction steps generalizing type with
  | zero => exact Option.some.inj reached ▸ has
  | succ steps ih =>
    obtain ⟨entry, known, above⟩ := Option.bind_eq_some_iff.mp reached
    obtain ⟨base, isBase, further⟩ := Option.bind_eq_some_iff.mp above
    exact ih (closed.bases known isBase) further

/-- A walk visits what is reached in fewer steps than it takes. -/
theorem Closed.mem_walkBases {steps : Nat} :
    target ∈ (registry.walkBases steps (some type)).visited ↔
      ∃ count < steps, registry.climb count type = some target := by
  induction steps generalizing type with
  | zero => simp [Registry.walkBases]
  | succ steps ih =>
    obtain ⟨entry, known⟩ := has_iff.mp has
    rw [Registry.walkBases, known, List.mem_cons]
    have above : target ∈ (registry.walkBases steps entry.base).visited ↔
        ∃ count < steps, registry.climb (count + 1) type = some target := by
      simp only [climb, known, Option.bind_some]
      cases given : entry.base with
      | none => cases steps <;> simp [Registry.walkBases]
      | some base => exact ih (closed.bases known given)
    rw [above]
    constructor
    · rintro (rfl | ⟨count, fewer, reached⟩)
      · exact ⟨0, Nat.succ_pos _, rfl⟩
      · exact ⟨count + 1, Nat.succ_lt_succ fewer, reached⟩
    · rintro ⟨count, fewer, reached⟩
      cases count with
      | zero => exact .inl (Option.some.inj reached).symm
      | succ count => exact .inr ⟨count, Nat.lt_of_succ_lt_succ fewer, reached⟩

/-- What is reached in as many steps as there are types or more is reached in fewer, since some type
is reached twice on the way. -/
theorem Closed.climb_shorter {steps : Nat} (many : registry.size ≤ steps)
    (reached : registry.climb steps type = some target) :
    ∃ fewer < steps, registry.climb fewer type = some target := by
  have each (count : Fin (registry.size + 1)) :
      ∃ between : Fin registry.size, registry.climb count type = some ⟨between⟩ := by
    have split : steps = count + (steps - count) := by omega
    rw [split, climb_add] at reached
    obtain ⟨between, isBetween, -⟩ := Option.bind_eq_some_iff.mp reached
    exact ⟨⟨between.index, closed.climb_has has isBetween⟩, isBetween⟩
  choose place isPlace using each
  obtain ⟨first, second, different, same⟩ :=
    Fintype.exists_ne_map_eq_of_card_lt place (by simp)
  have shortens {low high : Fin (registry.size + 1)} (less : low < high)
      (same : place low = place high) :
      ∃ fewer < steps, registry.climb fewer type = some target := by
    refine ⟨low + (steps - high), by omega, ?_⟩
    have split : steps = high + (steps - high) := by omega
    rw [split, climb_add, isPlace high] at reached
    rw [climb_add, isPlace low, same]
    exact reached
  rcases Nat.lt_or_gt_of_ne fun equal => different (Fin.ext equal) with less | greater
  · exact shortens less same
  · exact shortens greater same.symm

/-- What is reached at all is reached in fewer steps than there are types. -/
theorem Closed.climb_below {steps : Nat} (reached : registry.climb steps type = some target) :
    ∃ fewer < registry.size, registry.climb fewer type = some target := by
  induction steps using Nat.strong_induction_on with
  | h steps ih =>
    by_cases few : steps < registry.size
    · exact ⟨steps, few, reached⟩
    · obtain ⟨fewer, less, shorter⟩ := closed.climb_shorter has (Nat.le_of_not_lt few) reached
      exact ih fewer less shorter

/-- The types above a type are those that are reached from it. -/
theorem Closed.mem_ancestors :
    target ∈ registry.ancestors type ↔ ∃ steps, registry.climb steps type = some target := by
  rw [ancestors, baseWalk, closed.mem_walkBases has]
  constructor
  · rintro ⟨steps, -, reached⟩
    exact ⟨steps, reached⟩
  · rintro ⟨steps, reached⟩
    exact closed.climb_below has reached

/-- What is above a type above is above. -/
theorem Closed.ancestors_subset (isAbove : target ∈ registry.ancestors type) :
    registry.ancestors target ⊆ registry.ancestors type := by
  intro other isOther
  obtain ⟨steps, reached⟩ := (closed.mem_ancestors has).mp isAbove
  obtain ⟨more, further⟩ := (closed.mem_ancestors (closed.climb_has has reached)).mp isOther
  refine (closed.mem_ancestors has).mpr ⟨steps + more, ?_⟩
  rw [climb_add, reached]
  exact further

end Climbing

variable {registry : Registry} {type target : TypeId}

/-- A value of one type can serve as a value of another for one of four reasons. -/
theorem assignable_iff : registry.assignable type target = true ↔
    target = type ∨
    ((registry.flagsOf target).isInterface = true ∧ (registry.flagsOf type).byRefLike = false ∧
      target ∈ registry.contracts type) ∨
    ((registry.flagsOf target).isInterface = false ∧ target = .object ∧
      (registry.flagsOf type).byRefLike = false ∧
        (registry.flagsOf type).genericParameter = false) ∨
    (registry.flagsOf target).isInterface = false ∧ target ≠ .object ∧
      target ∈ registry.ancestors type := by
  rw [assignable, Bool.or_eq_true, decide_eq_true_eq, eq_comm]
  refine or_congr_right ?_
  cases isInterface : (registry.flagsOf target).isInterface with
  | true => simp
  | false =>
    by_cases isRoot : target = .object
    · simp [isRoot]
    · simp [isRoot]

/-- No value that lives on the stack alone can serve as a value of another type. -/
def NeverBoxes (registry : Registry) : Prop :=
  ∀ {type target}, registry.Has type → registry.Has target →
    (registry.flagsOf type).byRefLike = true →
      registry.isAssignableTo type target = .ok true → target = type

/-- In every registry that is built, whatever may be edited, it is known what a value that lives on
the stack alone can serve as: never as a contract and never as `object`, whatever interfaces its
type has, but as each other type that is reached from its type along bases. -/
theorem Built.stackOnly_assignable {mayEdit : TypeEntry → Prop} (built : Built mayEdit registry)
    (has : registry.Has type) (targetHas : registry.Has target)
    (stackOnly : (registry.flagsOf type).byRefLike = true) :
    (∃ answer, registry.isAssignableTo type target = .ok answer) ∧
    (registry.isAssignableTo type target = .ok true ↔
      target = type ∨ (registry.flagsOf target).isInterface = false ∧ target ≠ .object ∧
        ∃ steps, registry.climb steps type = some target) := by
  have closed := built.complete.toClosed
  have answered := closed.isAssignableTo_eq_ok has targetHas
  refine ⟨⟨_, answered⟩, ?_⟩
  rw [answered, Except.ok.injEq, assignable_iff, closed.mem_ancestors has, stackOnly]
  simp

/-- A type whose values live on the stack alone. -/
def stackType : Registry := initial.after (Registration.declare { name := "S", sort := .byRefLike })

/-- The type is declared without a stop. -/
theorem stackType_built : Built TypeEntry.IsOriginal stackType := Built.initial.declare _ rfl

/-- A value of the type can serve as a value of the root of all types that are copied, although it
is a reference there. -/
theorem stackType_not_neverBoxes :
    Built TypeEntry.IsOriginal stackType ∧ ¬ stackType.NeverBoxes := by
  refine ⟨stackType_built, fun never => ?_⟩
  have has : stackType.Has ⟨14⟩ := by decide
  have targetHas : stackType.Has .valueType := by decide
  have serves : stackType.isAssignableTo ⟨14⟩ .valueType = .ok true := by decide
  cases never has targetHas (by decide) serves

/-- The type serves as itself and as the root of all types that are copied, and not as `object`. -/
theorem stackType_assignable :
    stackType.isAssignableTo ⟨14⟩ ⟨14⟩ = .ok true ∧
      stackType.isAssignableTo ⟨14⟩ .valueType = .ok true ∧
      stackType.isAssignableTo ⟨14⟩ .object ≠ .ok true ∧
      stackType.isAssignableTo ⟨14⟩ .disposable ≠ .ok true := by
  have has : stackType.Has ⟨14⟩ := by decide
  have stackOnly : (stackType.flagsOf ⟨14⟩).byRefLike = true := by decide
  have serves (target : TypeId) (targetHas : stackType.Has target) :=
    (stackType_built.stackOnly_assignable has targetHas stackOnly).2
  refine ⟨(serves ⟨14⟩ has).mpr (.inl rfl),
    (serves .valueType (by decide)).mpr (.inr ⟨by decide, by decide, 1, rfl⟩), fun asObject => ?_,
    fun asContract => ?_⟩
  · rcases (serves .object (by decide)).mp asObject with same | ⟨-, differs, -⟩
    · cases same
    · exact differs rfl
  · rcases (serves .disposable (by decide)).mp asContract with same | ⟨isInterface, -⟩
    · cases same
    · cases isInterface

/-- Contracts have no base, and `object` has neither base nor interface. -/
structure Rooted (registry : Registry) : Prop where
  /-- What is flagged as a contract is of that kind, and has no base. -/
  contracts : ∀ {type entry}, registry.type? type = some entry →
    entry.flags.isInterface = true → entry.kind = .interfaceType ∧ entry.base = none
  /-- The root of the classes is no instance, and has nothing above it. -/
  root : ∃ entry, registry.type? .object = some entry ∧ entry.definition = none ∧
    entry.base = none ∧ entry.interfaces = []

/-- What is edited gives a base to no contract, and neither base nor interface to `object`. -/
structure Spares (scope : EditScope) (registry : Registry) : Prop where
  /-- A type whose base is edited is registered and no contract. -/
  bases : ∀ {type}, scope.edits .base type →
    ∃ entry, registry.type? type = some entry ∧ entry.flags.isInterface = false
  /-- The root of the classes gets no base. -/
  rootBase : ¬ scope.edits .base .object
  /-- The root of the classes gets no interface. -/
  rootInterfaces : ¬ scope.edits .interfaces .object

section Changes

variable {scope : EditScope} {before after : Registry}

/-- What is edited is still of the same sort after a change. -/
theorem Spares.change (spares : Spares scope before) (change : Change scope before after) :
    Spares scope after := by
  refine ⟨fun {type} edited => ?_, spares.rootBase, spares.rootInterfaces⟩
  obtain ⟨entry, known, noContract⟩ := spares.bases edited
  cases change with
  | instantiate _ => exact ⟨entry, type?_withInstance_of_some _ _ _ _ known, noContract⟩
  | @grant owner _ grant =>
    obtain ⟨changed, reached, continued⟩ := grant.type?_enter_of_some owner known
    exact ⟨changed, reached, continued.flags ▸ noContract⟩

/-- A change keeps a registry rooted: a contract is given no base, since neither it nor the
definition that it is an instance of has one. -/
theorem Rooted.change (rooted : before.Rooted) (spares : Spares scope before)
    (change : Change scope before after) : after.Rooted := by
  obtain ⟨root, rootKnown, uncopied, noBase, noInterfaces⟩ := rooted.root
  cases change with
  | @instantiate definition arguments whole wholeKnown =>
    refine ⟨fun {type entry} known flagged => ?_, root,
      type?_withInstance_of_some _ _ _ _ rootKnown, uncopied, noBase, noInterfaces⟩
    rcases type?_withInstance_cases _ _ _ _ known with ⟨-, rfl⟩ | former
    · exact ⟨(rooted.contracts wholeKnown flagged).1, rfl⟩
    · exact rooted.contracts former flagged
  | @grant owner given grant givenKnown belongs reason =>
    refine ⟨fun {type entry} known flagged => ?_, ?_⟩
    · rcases Grant.type?_enter_cases known with ⟨rfl, entry', known', rfl⟩ | ⟨-, former⟩
      · rw [(grant.extend_continues _ entry').flags] at flagged
        obtain ⟨kind, plain⟩ := rooted.contracts known' flagged
        refine ⟨(grant.extend_continues _ entry').kind.trans kind, ?_⟩
        rcases grant.extend_base ⟨before.members.size⟩ entry' with stays | isBase
        · exact stays.trans plain
        rw [isBase] at reason
        rcases reason with edited | ⟨-, copy, definition, whole, copyKnown, -, wholeKnown, flags,
          offers⟩
        · obtain ⟨found, foundKnown, noContract⟩ := spares.bases edited
          cases known'.symm.trans foundKnown
          cases flagged.symm.trans noContract
        · cases known'.symm.trans copyKnown
          rw [flags] at flagged
          exact absurd (rooted.contracts wholeKnown flagged).2 offers
      · exact rooted.contracts former flagged
    · by_cases isRoot : owner = .object
      · subst isRoot
        have onlyMembers : grant.part = .members := by
          rcases reason with edited | ⟨-, copy, definition, whole, copyKnown, isCopy, -⟩
          · cases part : grant.part with
            | base => exact absurd (part ▸ edited) spares.rootBase
            | interfaces => exact absurd (part ▸ edited) spares.rootInterfaces
            | members => rfl
          · cases rootKnown.symm.trans copyKnown
            cases isCopy.symm.trans uncopied
        cases grant with
        | member source =>
          exact ⟨_, Grant.type?_enter_self _ _ rootKnown, uncopied, noBase, noInterfaces⟩
        | base type => cases onlyMembers
        | interface type => cases onlyMembers
      · refine ⟨root, ?_, uncopied, noBase, noInterfaces⟩
        rw [Grant.type?_enter, if_neg (Ne.symm isRoot)]
        exact rootKnown

/-- Changes keep a registry rooted. -/
theorem Rooted.changes (rooted : before.Rooted) (spares : Spares scope before)
    (changes : Changes scope before after) : after.Rooted := by
  have both : after.Rooted ∧ Spares scope after := by
    induction changes with
    | refl => exact ⟨rooted, spares⟩
    | tail _ change ih => exact ⟨ih.1.change ih.2 change, ih.2.change change⟩
  exact both.1

end Changes

/-- One registration of what is registered, where bases are set on what is no contract, and `object`
is given neither base nor interface. -/
inductive RootedEdit : Registry → Registry → Prop where
  /-- A type is declared, in a registered one if any. -/
  | declare {before after : Registry} {declaration : TypeDeclaration} {type : TypeId}
    (outers : ∀ outer ∈ declaration.outer, before.Has outer)
    (ran : Registration.declare declaration before = .ok (type, after)) : RootedEdit before after
  /-- A registered base is set. -/
  | setBase {before after : Registry} {depth : Nat} {type base : TypeId} {entry : TypeEntry}
    (known : before.type? type = some entry) (noContract : entry.kind ≠ .interfaceType)
    (notRoot : type ≠ .object) (registered : before.Has base)
    (ran : Registration.setBase depth type base before = .ok ((), after)) : RootedEdit before after
  /-- A contract is added. -/
  | addInterface {before after : Registry} {depth : Nat} {type interface : TypeId}
    {entry : TypeEntry} (known : before.type? type = some entry) (notRoot : type ≠ .object)
    (ran : Registration.addInterface depth type interface before = .ok ((), after)) :
    RootedEdit before after
  /-- A method or a property is added. -/
  | addMember {before after : Registry} {depth : Nat} {type : TypeId}
    {declaration : MemberDeclaration} {member : MemberId} {entry : TypeEntry}
    (known : before.type? type = some entry)
    (types : ∀ other ∈ declaration.kind.types, before.Has other)
    (contracts : ∀ contract ∈ declaration.implements, before.HasMember contract)
    (ran : Registration.addDeclaredMember depth type declaration before = .ok (member, after)) :
    RootedEdit before after
  /-- A definition is instantiated at registered types. -/
  | instantiate {before after : Registry} {depth : Nat} {definition type : TypeId}
    {arguments : List TypeId} (registered : ∀ argument ∈ arguments, before.Has argument)
    (ran : Registration.instantiate depth definition arguments before = .ok (type, after)) :
    RootedEdit before after

/-- A registry that such registrations lead to. -/
inductive RootedBuilt : Registry → Prop where
  /-- The well-known types are there from the start. -/
  | initial : RootedBuilt .initial
  /-- One registration leads on. -/
  | edit {before after : Registry} (built : RootedBuilt before) (edit : RootedEdit before after) :
    RootedBuilt after

/-- Such a registration is one of those that may edit everything. -/
theorem RootedEdit.toEdit {before after : Registry} (edit : RootedEdit before after) :
    Edit (fun _ => True) before after := by
  cases edit with
  | declare outers ran => exact .declare outers ran
  | setBase known _ _ registered ran => exact .setBase known trivial registered ran
  | addInterface known _ ran => exact .addInterface known trivial ran
  | addMember known types contracts ran => exact .addMember known trivial types contracts ran
  | instantiate registered ran => exact .instantiate registered ran

/-- What such registrations lead to is built. -/
theorem RootedBuilt.toBuilt (built : RootedBuilt registry) : Built (fun _ => True) registry := by
  induction built with
  | initial => exact .initial
  | edit _ edit ih => exact .edit ih edit.toEdit

/-- The root of the classes is no instance. -/
theorem Rooted.not_isCopy_object (rooted : registry.Rooted) {definition : TypeId} :
    ¬ registry.IsCopy .object definition := by
  rintro ⟨entry, known, isCopy⟩
  obtain ⟨root, rootKnown, uncopied, -⟩ := rooted.root
  cases known.symm.trans rootKnown
  cases isCopy.symm.trans uncopied

/-- A declaration keeps a registry rooted. -/
theorem Rooted.declare {before after : Registry} {declaration : TypeDeclaration} {type : TypeId}
    (rooted : before.Rooted) (introduces : after.Introduces before)
    (ran : Registration.declare declaration before = .ok (type, after)) : after.Rooted := by
  obtain ⟨-, -, entries⟩ := Registration.declare_entries ran
  obtain ⟨root, rootKnown, above⟩ := rooted.root
  refine ⟨fun {other entry} known flagged => ?_, root, introduces.kept rootKnown, above⟩
  rcases entries known with former | ⟨-, parameters, rfl⟩ | ⟨-, position, name, rfl⟩
  · exact rooted.contracts former flagged
  · cases sort : declaration.sort <;>
      simp [TypeDeclaration.entry, TypeDeclaration.flags, TypeSort.flags, TypeSort.kind,
        TypeSort.base, sort] at flagged ⊢
  · cases flagged

/-- Such a registration keeps a registry rooted. -/
theorem RootedEdit.rooted {before after : Registry} (edit : RootedEdit before after)
    (complete : before.Complete) (rooted : before.Rooted) : after.Rooted := by
  have formed := complete.toWellFormed
  cases edit with
  | declare outers ran =>
    exact rooted.declare (Registration.declare_introduces complete.keeps outers ran) ran
  | @setBase _ _ _ entry known noContract notRoot registered ran =>
    have plain : entry.flags.isInterface = false := by
      cases flagged : entry.flags.isInterface with
      | false => rfl
      | true => exact absurd (rooted.contracts known flagged).1 noContract
    refine rooted.changes ?_ (Registration.setBase_changes formed ran)
    refine ⟨?_, ?_, fun edited => nomatch edited.1⟩
    · rintro other ⟨-, rfl | ⟨copy, copyKnown, isCopy⟩⟩
      · exact ⟨entry, known, plain⟩
      · refine ⟨copy, copyKnown, ?_⟩
        rw [complete.flags copyKnown isCopy known]
        exact plain
    · rintro ⟨-, same | isCopy⟩
      · exact notRoot same.symm
      · exact rooted.not_isCopy_object isCopy
  | addInterface known notRoot ran =>
    refine rooted.changes ?_ (Registration.addInterface_changes formed ran)
    refine ⟨fun edited => (nomatch edited.1), fun edited => (nomatch edited.1), ?_⟩
    rintro ⟨-, same | isCopy⟩
    · exact notRoot same.symm
    · exact rooted.not_isCopy_object isCopy
  | addMember known types contracts ran =>
    refine rooted.changes ?_ (Registration.addDeclaredMember_changes formed ran)
    exact ⟨fun edited => (nomatch edited.1), fun edited => (nomatch edited.1),
      fun edited => (nomatch edited.1)⟩
  | instantiate registered ran =>
    refine rooted.changes ?_ (Registration.instantiate_changes ran)
    exact ⟨False.elim, id, id⟩

/-- The first registry is rooted. -/
theorem initial_rooted : initial.Rooted where
  contracts := initial_type?
    (fun _ entry => entry.flags.isInterface = true →
      entry.kind = .interfaceType ∧ entry.base = none)
    (by decide)
  root := ⟨_, rfl, rfl, rfl, rfl⟩

/-- What such registrations lead to is rooted. -/
theorem RootedBuilt.rooted (built : RootedBuilt registry) : registry.Rooted := by
  induction built with
  | initial => exact initial_rooted
  | edit built edit ih => exact edit.rooted built.toBuilt.complete ih

section Preorder

variable (closed : registry.Closed) (has : registry.Has type)

/-- Nothing is above a type without a base but the type itself. -/
theorem ancestors_of_base {entry : TypeEntry} (known : registry.type? type = some entry)
    (noBase : entry.base = none) : registry.ancestors type = [type] := by
  obtain ⟨steps, isSize⟩ := Nat.exists_eq_add_one_of_ne_zero
    (Nat.ne_of_gt (Nat.zero_lt_of_lt (index_lt_of_type? known)))
  rw [ancestors, baseWalk, isSize, Registry.walkBases, known]
  simp only [noBase]
  cases steps <;> rfl

include has in
/-- Nothing is above a contract but the contract itself. -/
theorem Rooted.ancestors_contract (rooted : registry.Rooted)
    (isInterface : (registry.flagsOf type).isInterface = true) :
    registry.ancestors type = [type] := by
  obtain ⟨entry, -, known, flags⟩ := exists_entry has
  exact ancestors_of_base known (rooted.contracts known (flags ▸ isInterface)).2

/-- Nothing is above the root of the classes but the root itself. -/
theorem Rooted.ancestors_object (rooted : registry.Rooted) :
    registry.ancestors .object = [.object] := by
  obtain ⟨root, known, -, noBase, -⟩ := rooted.root
  exact ancestors_of_base known noBase

/-- The root of the classes has no interfaces. -/
theorem Rooted.contracts_object (rooted : registry.Rooted) : registry.contracts .object = [] := by
  have holders : registry.interfaceHolders .object = [.object] := by
    rw [interfaceHolders, rooted.ancestors_object, ite_self]
  obtain ⟨root, known, -, -, noInterfaces⟩ := rooted.root
  rw [Registry.contracts, holders, List.flatMap_singleton, interfacesOf, known]
  simp only [noInterfaces]
  cases registry.size <;> rfl

include closed has

/-- A type that is no contract has the interfaces of the types above it. -/
theorem Closed.contracts_subset (noContract : (registry.flagsOf type).isInterface = false)
    (targetNoContract : (registry.flagsOf target).isInterface = false)
    (isAbove : target ∈ registry.ancestors type) :
    registry.contracts target ⊆ registry.contracts type := by
  refine closeInterfaces_induct (· ∈ registry.contracts type)
    (fun _ isMember _ isListed => closed.mem_contracts_of_listed isMember isListed)
    (fun other isThere => ?_)
  obtain ⟨holder, isHolder, isListed⟩ := List.mem_flatMap.mp (mem_firsts.mp isThere)
  rw [interfaceHolders, targetNoContract] at isHolder
  have holderAbove := closed.ancestors_subset has isAbove isHolder
  refine closed.mem_contracts_of_holder ?_ isListed
  rw [interfaceHolders, noContract]
  exact holderAbove

/-- What a type can serve as, it can serve as when it serves as another type. -/
theorem Rooted.assignable_trans (rooted : registry.Rooted) {middle : TypeId}
    (middleHas : registry.Has middle) (moves : (registry.flagsOf type).byRefLike = false)
    (concrete : (registry.flagsOf type).genericParameter = false)
    (first : registry.assignable type middle = true)
    (second : registry.assignable middle target = true) :
    registry.assignable type target = true := by
  -- What serves as `object` has nothing to show but that it is an object itself.
  have root (noContract : (registry.flagsOf target).isInterface = false)
      (isRoot : target = .object) : registry.assignable type target = true :=
    assignable_iff.mpr (.inr (.inr (.inl ⟨noContract, isRoot, moves, concrete⟩)))
  have contract (isInterface : (registry.flagsOf target).isInterface = true)
      (isContract : target ∈ registry.contracts type) : registry.assignable type target = true :=
    assignable_iff.mpr (.inr (.inl ⟨isInterface, moves, isContract⟩))
  rcases assignable_iff.mp second with rfl | ⟨isInterface, -, isContract⟩ |
    ⟨noContract, isRoot, -⟩ | ⟨noContract, notRoot, isAbove⟩
  case inl => exact first
  case inr.inr.inl => exact root noContract isRoot
  case inr.inl =>
    rcases assignable_iff.mp first with rfl | ⟨-, -, middleContract⟩ | ⟨-, rfl, -⟩ |
      ⟨middlePlain, -, middleAbove⟩
    · exact second
    · exact contract isInterface (closed.contracts_closed middleContract isContract)
    · rw [rooted.contracts_object] at isContract
      cases isContract
    · cases typeFlag : (registry.flagsOf type).isInterface with
      | true =>
        rw [rooted.ancestors_contract has typeFlag, List.mem_singleton] at middleAbove
        exact contract isInterface (middleAbove ▸ isContract)
      | false =>
        exact contract isInterface
          (closed.contracts_subset has typeFlag middlePlain middleAbove isContract)
  case inr.inr.inr =>
    rcases assignable_iff.mp first with rfl | ⟨middleFlag, -⟩ | ⟨-, rfl, -⟩ | ⟨-, -, middleAbove⟩
    · exact second
    · rw [rooted.ancestors_contract middleHas middleFlag, List.mem_singleton] at isAbove
      exact isAbove ▸ first
    · rw [rooted.ancestors_object, List.mem_singleton] at isAbove
      exact absurd isAbove notRoot
    · have isHigher := closed.ancestors_subset has middleAbove isAbove
      exact assignable_iff.mpr (.inr (.inr (.inr ⟨noContract, notRoot, isHigher⟩)))

end Preorder

/-- In every registry where bases are set on what is no contract, and where `object` is given
neither base nor interface, convertibility is a preorder: every type serves as itself, and what a
type can serve as, types that can serve as it can serve as, apart from those whose values live on
the stack alone and from generic parameters. -/
theorem RootedBuilt.assignable_preorder (built : RootedBuilt registry) :
    (∀ type, registry.isAssignableTo type type = .ok true) ∧
    ∀ {first second third}, registry.Has first → registry.Has second → registry.Has third →
      (registry.flagsOf first).byRefLike = false →
      (registry.flagsOf first).genericParameter = false →
        registry.isAssignableTo first second = .ok true →
          registry.isAssignableTo second third = .ok true →
            registry.isAssignableTo first third = .ok true := by
  have closed := built.toBuilt.complete.toClosed
  refine ⟨fun type => if_pos rfl, ?_⟩
  intro first second third firstHas secondHas thirdHas moves concrete serves servesOn
  rw [closed.isAssignableTo_eq_ok firstHas secondHas, Except.ok.injEq] at serves
  rw [closed.isAssignableTo_eq_ok secondHas thirdHas, Except.ok.injEq] at servesOn
  rw [closed.isAssignableTo_eq_ok firstHas thirdHas, Except.ok.injEq]
  exact built.rooted.assignable_trans closed firstHas secondHas moves concrete serves servesOn

/-- What work leads to is built with the root kept if work that does not stop is such an edit. -/
theorem RootedBuilt.after {α : Type} {before : Registry} {work : Registration α}
    (built : RootedBuilt before)
    (edit : ∀ {result later}, work before = .ok (result, later) → RootedEdit before later) :
    RootedBuilt (before.after work) := by
  unfold Registry.after
  cases ran : work before with
  | error stop => exact built
  | ok ended => exact built.edit (edit ran)

/-- Two classes and two interfaces. -/
def pairedTypes : Registry :=
  initial
    |>.after (Registration.declare { name := "A", sort := .classType })
    |>.after (Registration.declare { name := "B", sort := .classType })
    |>.after (Registration.declare { name := "I", sort := .interfaceType })
    |>.after (Registration.declare { name := "J", sort := .interfaceType })

/-- The classes extend one another. -/
def circularBases : Registry :=
  pairedTypes
    |>.after (Registration.setBase 0 ⟨14⟩ ⟨15⟩)
    |>.after (Registration.setBase 0 ⟨15⟩ ⟨14⟩)

/-- The interfaces extend one another as well, and the second class has the first of them. -/
def circularTypes : Registry :=
  circularBases
    |>.after (Registration.addInterface 0 ⟨16⟩ ⟨17⟩)
    |>.after (Registration.addInterface 0 ⟨17⟩ ⟨16⟩)
    |>.after (Registration.addInterface 0 ⟨15⟩ ⟨16⟩)

/-- The circles are registered without a stop. -/
theorem circularTypes_built : RootedBuilt circularTypes := by
  have paired : RootedBuilt pairedTypes := by
    refine (((RootedBuilt.initial.after ?_).after ?_).after ?_).after ?_ <;>
      exact .declare fun _ isOuter => nomatch isOuter
  have based : RootedBuilt circularBases := by
    obtain ⟨first, firstKnown, isClass⟩ : ∃ entry ∈ pairedTypes.type? ⟨14⟩,
        entry.kind ≠ .interfaceType := by
      decide
    obtain ⟨second, secondKnown, isClass'⟩ :
        ∃ entry ∈ (pairedTypes.after (Registration.setBase 0 ⟨14⟩ ⟨15⟩)).type? ⟨15⟩,
          entry.kind ≠ .interfaceType := by
      decide
    exact (paired.after (.setBase firstKnown isClass (by decide) (by decide))).after
      (.setBase secondKnown isClass' (by decide) (by decide))
  obtain ⟨first, firstKnown⟩ : ∃ entry, circularBases.type? ⟨16⟩ = some entry := ⟨_, rfl⟩
  obtain ⟨second, secondKnown⟩ : ∃ entry,
      (circularBases.after (Registration.addInterface 0 ⟨16⟩ ⟨17⟩)).type? ⟨17⟩ = some entry :=
    ⟨_, rfl⟩
  obtain ⟨third, thirdKnown⟩ : ∃ entry,
      ((circularBases.after (Registration.addInterface 0 ⟨16⟩ ⟨17⟩)).after
        (Registration.addInterface 0 ⟨17⟩ ⟨16⟩)).type? ⟨15⟩ = some entry :=
    ⟨_, rfl⟩
  exact ((based.after (.addInterface firstKnown (by decide))).after
    (.addInterface secondKnown (by decide))).after (.addInterface thirdKnown (by decide))

/-- The first class serves as the second, which serves as the second interface, through the first
one. So the first class serves as the second interface. -/
theorem circularTypes_assignable :
    circularTypes.isAssignableTo ⟨14⟩ ⟨15⟩ = .ok true ∧
      circularTypes.isAssignableTo ⟨15⟩ ⟨17⟩ = .ok true ∧
      circularTypes.isAssignableTo ⟨14⟩ ⟨17⟩ = .ok true := by
  have first : circularTypes.isAssignableTo ⟨14⟩ ⟨15⟩ = .ok true := by decide
  have second : circularTypes.isAssignableTo ⟨15⟩ ⟨17⟩ = .ok true := by decide
  obtain ⟨-, transitive⟩ := circularTypes_built.assignable_preorder
  exact ⟨first, second, transitive (by decide) (by decide) (by decide) (by decide) (by decide) first
    second⟩

end Registry

end Foreach
