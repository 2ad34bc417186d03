import Foreach.Proofs.Types.Lookup
import Foreach.Proofs.Types.Sorts

/-!
# Which member runs

A member of a contract that is called on a value of a class or struct runs the first member that is
recorded for it on the nearest base that has one, whether that member can be called by its name or
not. Only where nothing is recorded, the nearest public member of the same name and signature runs
(`Registry.Built.dispatches`). A public member that overrides one that is recorded for a contract is
therefore passed over (`Registry.overriddenTypes_not_honoursOverrides`).
-/
namespace Foreach

/-- A public instance member that is called like another one: a method of the same name and
parameter types, or a property of the same name that can be read. -/
structure MemberEntry.IsNamesake (source target : MemberEntry) : Prop where
  /-- The name. -/
  name : source.name = target.name
  /-- It is public. -/
  isPublic : source.flags.isPublic = true
  /-- It belongs to the values. -/
  notStatic : source.flags.isStatic = false
  /-- It is no explicit implementation. -/
  notExplicit : source.flags.isExplicit = false
  /-- It is called in the same way. -/
  signature : match target.kind with
    | .method parameters _ => ∃ returns, source.kind = .method parameters returns
    | .property _ => (∃ type, source.kind = .property type) ∧ source.flags.hasGetter = true

/-- A member is an explicit implementation of a member of a contract. -/
structure MemberEntry.IsExplicitFor (source : MemberEntry) (member : MemberId) : Prop where
  /-- It is recorded for the member. -/
  implements : source.implements = some member
  /-- It serves nothing else. -/
  isExplicit : source.flags.isExplicit = true

namespace Registry

/-- A member is the first of a type that something holds of. -/
def ListsFirst (registry : Registry) (type : TypeId) (holds : MemberEntry → Prop)
    (member : MemberId) : Prop :=
  ∃ entry source earlier later, registry.type? type = some entry ∧
    entry.members = earlier ++ member :: later ∧ registry.member? member = some source ∧
      holds source ∧ ∀ other ∈ earlier, ∀ between, registry.member? other = some between →
        ¬ holds between

/-- A member is the first that something holds of, of the first of some types that lists one. -/
def Nearest (registry : Registry) (types : List TypeId) (holds : MemberEntry → Prop)
    (member : MemberId) : Prop :=
  ∃ below type above, types = below ++ type :: above ∧
    (∀ lower ∈ below, ¬ registry.Lists lower holds) ∧ registry.ListsFirst type holds member

/-- The public members that are called like another one are found by this test. -/
def namesakeTest (target : MemberEntry) : MemberEntry → Bool :=
  match target.kind with
  | .method parameters _ => isMethodOf target.name parameters
  | .property _ => isReadableOf target.name

/-- A public member passes the test exactly if it is called like the other one. -/
theorem isNamesake_iff {source target : MemberEntry} :
    source.flags.isPublicInstance = true ∧ namesakeTest target source = true ↔
      source.IsNamesake target := by
  obtain ⟨sourceName, owner, flags, kind, implements, definition⟩ := source
  simp only [MemberFlags.isPublicInstance, Bool.and_eq_true, Bool.not_eq_true']
  cases targetKind : target.kind with
  | method parameters result =>
    simp only [namesakeTest, targetKind, isMethodOf, Bool.and_eq_true, decide_eq_true_eq]
    constructor
    · rintro ⟨⟨⟨isPublic, notStatic⟩, notExplicit⟩, ⟨sameName, isMethod⟩, sameParameters⟩
      refine ⟨sameName, isPublic, notStatic, notExplicit, ?_⟩
      rw [targetKind]
      cases kind with
      | property type => cases isMethod
      | method others returns =>
        exact ⟨returns, congrArg (MemberKind.method · returns) sameParameters⟩
    · rintro ⟨sameName, isPublic, notStatic, notExplicit, signature⟩
      rw [targetKind] at signature
      obtain ⟨returns, rfl⟩ := signature
      exact ⟨⟨⟨isPublic, notStatic⟩, notExplicit⟩, ⟨sameName, rfl⟩, rfl⟩
  | property type =>
    simp only [namesakeTest, targetKind, isReadableOf, MemberEntry.isProperty, Bool.and_eq_true,
      decide_eq_true_eq]
    constructor
    · rintro ⟨⟨⟨isPublic, notStatic⟩, notExplicit⟩, ⟨sameName, isProperty⟩, hasGetter⟩
      refine ⟨sameName, isPublic, notStatic, notExplicit, ?_⟩
      rw [targetKind]
      cases kind with
      | method parameters returns => cases isProperty
      | property other => exact ⟨⟨other, rfl⟩, hasGetter⟩
    · rintro ⟨sameName, isPublic, notStatic, notExplicit, signature⟩
      rw [targetKind] at signature
      obtain ⟨⟨other, rfl⟩, hasGetter⟩ := signature
      exact ⟨⟨⟨isPublic, notStatic⟩, notExplicit⟩, ⟨sameName, rfl⟩, hasGetter⟩

/-- What is called like a member that is called like another one is called like the other one. -/
theorem namesakeTest_congr {source target : MemberEntry} (isNamesake : source.IsNamesake target) :
    namesakeTest source = namesakeTest target := by
  have signature := isNamesake.signature
  unfold namesakeTest
  cases targetKind : target.kind with
  | method parameters result =>
    rw [targetKind] at signature
    obtain ⟨returns, sourceKind⟩ := signature
    rw [sourceKind, isNamesake.name]
  | property type =>
    rw [targetKind] at signature
    obtain ⟨⟨other, sourceKind⟩, -⟩ := signature
    rw [sourceKind, isNamesake.name]

section Searches

variable {registry : Registry} {test : MemberEntry → Bool} {type : TypeId} {member : MemberId}

/-- The member that is found in a type is the first that passes the test. -/
theorem findMember?_listsFirst (found : registry.findMember? type test = some member) :
    registry.ListsFirst type (test · = true) member := by
  obtain ⟨entry, source, known, -, sourceKnown, passes⟩ := findMember?_eq_some found
  rw [findMember?, membersOf, known] at found
  obtain ⟨-, earlier, later, split, fails⟩ := List.find?_eq_some_iff_append.mp found
  refine ⟨entry, source, earlier, later, known, split, sourceKnown, passes, ?_⟩
  intro other isEarlier between betweenKnown passesToo
  have failed := fails other isEarlier
  simp [betweenKnown, passesToo] at failed

/-- What is found type by type is nearest. -/
theorem nearest_of_findSome? {types : List TypeId}
    (found : types.findSome? (registry.findMember? · test) = some member) :
    registry.Nearest types (test · = true) member := by
  obtain ⟨below, type, above, split, foundThere, absent⟩ := List.findSome?_eq_some_iff.mp found
  exact ⟨below, type, above, split,
    fun lower isBelow => findMember?_eq_none.mp (absent lower isBelow),
    findMember?_listsFirst foundThere⟩

/-- Nothing is found type by type exactly if no type lists anything that passes the test. -/
theorem findSome?_findMember?_eq_none {types : List TypeId} :
    types.findSome? (registry.findMember? · test) = none ↔
      ∀ type ∈ types, ¬ registry.Lists type (test · = true) := by
  rw [List.findSome?_eq_none_iff]
  exact forall₂_congr fun _ _ => findMember?_eq_none

variable {holds other : MemberEntry → Prop}

/-- A type lists what something holds of exactly if it lists what the same holds of. -/
theorem lists_congr (same : ∀ source, holds source ↔ other source) :
    registry.Lists type holds ↔ registry.Lists type other := by
  rw [funext fun source => propext (same source)]

/-- What is nearest of what something holds of is nearest of what the same holds of. -/
theorem Nearest.congr {types : List TypeId} (same : ∀ source, holds source ↔ other source)
    (nearest : registry.Nearest types holds member) : registry.Nearest types other member := by
  rwa [← funext fun source => propext (same source)]

/-- What a search for what something holds of does not find is not listed. -/
theorem not_lists_of_findSome? {types : List TypeId}
    (absent : types.findSome? (registry.findMember? · test) = none)
    (passes : ∀ source, holds source → test source = true) :
    ∀ type ∈ types, ¬ registry.Lists type holds := by
  rintro type isType ⟨entry, member, source, known, isListed, sourceKnown, isHeld⟩
  exact findSome?_findMember?_eq_none.mp absent type isType
    ⟨entry, member, source, known, isListed, sourceKnown, passes source isHeld⟩

/-- What is nearest is a member of the first type if that lists one. -/
theorem Nearest.mem_head {rest : List TypeId} {entry : TypeEntry}
    (nearest : registry.Nearest (type :: rest) holds member)
    (known : registry.type? type = some entry) (lists : registry.Lists type holds) :
    member ∈ entry.members := by
  obtain ⟨below, scope, above, split, absent, entry', source, earlier, later, known', members, -⟩ :=
    nearest
  cases below with
  | nil =>
    obtain ⟨rfl, -⟩ := List.cons.inj split
    cases known.symm.trans known'
    rw [members]
    exact List.mem_append_right _ (List.mem_cons_self ..)
  | cons lower below =>
    obtain ⟨rfl, -⟩ := List.cons.inj split
    exact absurd lists (absent _ (List.mem_cons_self ..))

end Searches

section Calls

variable {registry : Registry} (closed : registry.Closed) {type : TypeId} (has : registry.Has type)
  {member : MemberId} {target : MemberEntry}

/-- The members on a type and its bases that are recorded for a member of a contract. -/
def recorded? (registry : Registry) (type : TypeId) (member : MemberId) : Option MemberId :=
  (registry.ancestors type).findSome? (registry.findMember? · (·.implements = some member))

/-- The public member that is called like another one. -/
def namesake? (registry : Registry) (type : TypeId) (target : MemberEntry) : Option MemberId :=
  registry.publicMember? type (namesakeTest target)

/-- The type that declares a member is registered. -/
theorem WellFormed.owner_has (formed : registry.WellFormed)
    (known : registry.member? member = some target) : registry.Has target.owner := by
  obtain ⟨entry, ownerKnown, -⟩ := formed.listed known
  exact has_iff.mpr ⟨entry, ownerKnown⟩

include closed has

/-- The public member that is called like another one is found. -/
theorem Closed.findNamesake?_eq_ok :
    registry.findNamesake? type target = .ok (registry.namesake? type target) := by
  unfold findNamesake? namesake? namesakeTest
  cases target.kind with
  | method parameters returns => exact closed.findPublic?_eq_ok has _
  | property result => exact closed.findPublic?_eq_ok has _

/-- The member that runs is known: what is recorded comes first, for members of contracts. -/
theorem Closed.findImplementation?_eq_ok (known : registry.member? member = some target)
    (ownerHas : registry.Has target.owner) :
    registry.findImplementation? type member =
      .ok (((if (registry.flagsOf target.owner).isInterface then registry.recorded? type member
        else none)).or (registry.namesake? type target)) := by
  unfold findImplementation?
  refine Work.checked_bind_eq_ok.mpr ⟨target, Checked.ofOption_eq_ok.mpr known, ?_⟩
  rw [isInterface_eq_ok ownerHas]
  refine Work.checked_bind_eq_ok.mpr ⟨_, rfl, ?_⟩
  rw [closed.findNamesake?_eq_ok has]
  cases (registry.flagsOf target.owner).isInterface with
  | true =>
    rw [if_pos rfl, if_pos rfl]
    refine Work.checked_bind_eq_ok.mpr
      ⟨registry.recorded? type member, closed.search_eq_ok has _, ?_⟩
    cases registry.recorded? type member <;> rfl
  | false => rfl

end Calls

/-- A member of a contract is called on a value of a class or struct. -/
structure ContractCall (registry : Registry) (type : TypeId) (member : MemberId)
    (target : MemberEntry) : Prop where
  /-- The value is that of a class or struct. -/
  receiver : ∃ entry, registry.type? type = some entry ∧
    (entry.kind = .classType ∨ entry.kind = .structType)
  /-- The member is registered. -/
  known : registry.member? member = some target
  /-- It is declared by a contract. -/
  contract : registry.isInterface target.owner = .ok true

/-- A member is what runs for a member of a contract, on a type with given bases, by what counts as
an implementation of that member and by which public members run themselves when they are called. -/
structure Dispatches (registry : Registry) (type : TypeId) (target : MemberEntry)
    (counts direct : MemberEntry → Prop) (chain : List TypeId) (answer : Option MemberId) :
    Prop where
  /-- The nearest implementation comes first. -/
  implemented : (∃ scope ∈ chain, registry.Lists scope counts) →
    ∃ found, answer = some found ∧ registry.Nearest chain counts found
  /-- Without an implementation, the nearest public member that is called like the member runs. -/
  called : (∀ scope ∈ chain, ¬ registry.Lists scope counts) → ∀ found, answer = some found →
    registry.Nearest chain (·.IsNamesake target) found
  /-- Nothing runs only if there is no such member either. -/
  absent : (∀ scope ∈ chain, ¬ registry.Lists scope counts) →
    (answer = none ↔ ∀ scope ∈ chain, ¬ registry.Lists scope (·.IsNamesake target))
  /-- A direct call of the public member that runs comes to the same. -/
  agrees : (∀ scope ∈ chain, ¬ registry.Lists scope counts) → ∀ found source,
    answer = some found → registry.member? found = some source → direct source →
      registry.findImplementation? type found = .ok (some found)

section Dispatch

variable {mayEdit : TypeEntry → Prop} {registry : Registry} {type : TypeId} {member : MemberId}
  {target : MemberEntry}

/-- The public members that are found along bases are nearest of those that are called like another
one. -/
theorem nearest_of_namesake? (plain : (registry.flagsOf type).isInterface = false)
    (found : registry.namesake? type target = some member) :
    registry.Nearest (registry.ancestors type) (·.IsNamesake target) member := by
  rw [namesake?, publicMember?, scopes, plain] at found
  refine Nearest.congr (fun source => ?_) (nearest_of_findSome? found)
  rw [Bool.and_eq_true]
  exact isNamesake_iff

/-- None is found along bases exactly if none is listed. -/
theorem namesake?_eq_none (plain : (registry.flagsOf type).isInterface = false) :
    registry.namesake? type target = none ↔
      ∀ scope ∈ registry.ancestors type, ¬ registry.Lists scope (·.IsNamesake target) := by
  rw [namesake?, publicMember?_eq_none, scopes, plain]
  simp only [Bool.false_eq_true, if_false]
  exact forall₂_congr fun scope _ => not_congr (lists_congr fun source => isNamesake_iff)

/-- A public member that is called like another one runs itself when it is called, if no contract
declares it. -/
theorem Closed.findImplementation?_of_namesake (closed : registry.Closed) (has : registry.Has type)
    {source : MemberEntry} (found : registry.namesake? type target = some member)
    (known : registry.member? member = some source)
    (ownerPlain : registry.isInterface source.owner = .ok false) :
    registry.findImplementation? type member = .ok (some member) := by
  obtain ⟨_, knownToo, -, passes⟩ := publicMember?_eq_some closed.toWellFormed found
  cases known.symm.trans knownToo
  have ownerHas : registry.Has source.owner := closed.toWellFormed.owner_has known
  have noContract : (registry.flagsOf source.owner).isInterface = false :=
    Except.ok.inj ((isInterface_eq_ok ownerHas).symm.trans ownerPlain)
  rw [closed.findImplementation?_eq_ok has known ownerHas, noContract, namesake?,
    namesakeTest_congr (isNamesake_iff.mp passes)]
  exact congrArg Except.ok found

/-- A class or struct is no contract. -/
theorem Built.plain_of_kind (built : Built mayEdit registry) {entry : TypeEntry}
    (known : registry.type? type = some entry)
    (isClassOrStruct : entry.kind = .classType ∨ entry.kind = .structType) :
    (registry.flagsOf type).isInterface = false := by
  rw [flagsOf, known]
  refine Bool.eq_false_iff.mpr fun flagged => ?_
  have isContract := (built.sorted _ _ known).contract.mp flagged
  obtain isClass | isStruct := isClassOrStruct
  · cases isClass.symm.trans isContract
  · cases isStruct.symm.trans isContract

/-- In every registry that is built, whatever may be edited, a member of a contract that is called
on a value of a class or struct runs the first member that is recorded for it, explicitly or by
declaration, on the nearest base that lists one. If none does, the nearest public member that is
called alike runs, and nothing only if there is none; a direct call of that member runs it too,
unless it is declared by a contract that serves as a base. -/
theorem Built.dispatches (built : Built mayEdit registry)
    (call : registry.ContractCall type member target) :
    ∃ chain answer, registry.baseChain type = .ok chain ∧
      registry.findImplementation? type member = .ok answer ∧
        registry.Dispatches type target (·.implements = some member)
          (fun source => registry.isInterface source.owner = .ok false) chain answer := by
  have closed := built.complete.toClosed
  obtain ⟨entry, known, isClassOrStruct⟩ := call.receiver
  have has : registry.Has type := has_iff.mpr ⟨entry, known⟩
  have plain := built.plain_of_kind known isClassOrStruct
  have ownerHas : registry.Has target.owner := closed.toWellFormed.owner_has call.known
  have isContract : (registry.flagsOf target.owner).isInterface = true :=
    Except.ok.inj ((isInterface_eq_ok ownerHas).symm.trans call.contract)
  have answered := closed.findImplementation?_eq_ok has call.known ownerHas
  rw [if_pos isContract] at answered
  have unrecorded : registry.recorded? type member = none ↔
      ∀ scope ∈ registry.ancestors type, ¬ registry.Lists scope (·.implements = some member) := by
    rw [recorded?, findSome?_findMember?_eq_none]
    simp only [decide_eq_true_eq]
  refine ⟨_, _, closed.baseChain_eq_ok has, answered, ?_⟩
  cases found : registry.recorded? type member with
  | some first =>
    have nearest : registry.Nearest (registry.ancestors type) (·.implements = some member) first :=
      (nearest_of_findSome? found).congr fun source => decide_eq_true_iff
    have listed : ¬ ∀ scope ∈ registry.ancestors type,
        ¬ registry.Lists scope (·.implements = some member) := by
      rw [← unrecorded, found]
      exact Option.some_ne_none first
    exact ⟨fun _ => ⟨first, rfl, nearest⟩, fun none => absurd none listed,
      fun none => absurd none listed, fun none => absurd none listed⟩
  | none =>
    have nowhere := unrecorded.mp found
    rw [Option.none_or]
    constructor
    case implemented =>
      rintro ⟨scope, isScope, lists⟩
      exact absurd lists (nowhere scope isScope)
    case called => exact fun _ other isOther => nearest_of_namesake? plain isOther
    case absent => exact fun _ => namesake?_eq_none plain
    case agrees =>
      exact fun _ _ _ isOther sourceKnown ownerPlain =>
        closed.findImplementation?_of_namesake has isOther sourceKnown ownerPlain

end Dispatch

/-- A disposable class whose method is declared to implement the contract's, and a class that
extends it by a public method of the same name. -/
def overriddenTypes : Registry :=
  initial
    |>.after (Registration.declare { name := "B", sort := .classType })
    |>.after (Registration.addInterface 1 ⟨14⟩ .disposable)
    |>.after (Registration.addDeclaredMember 1 ⟨14⟩
      ((MemberDeclaration.method contractNames.dispose .void).implementing ⟨0⟩))
    |>.after (Registration.declare { name := "D", sort := .classType })
    |>.after (Registration.setBase 1 ⟨15⟩ ⟨14⟩)
    |>.after (Registration.addDeclaredMember 1 ⟨15⟩ (.method contractNames.dispose .void))

/-- A contract with a method that is called like that of disposal, and a class that implements it
explicitly and has the contract for a base. -/
def contractBase : Registry :=
  initial
    |>.after (Registration.declare { name := "J", sort := .interfaceType })
    |>.after (Registration.addDeclaredMember 1 ⟨14⟩ (.method contractNames.dispose .void))
    |>.after (Registration.declare { name := "E", sort := .classType })
    |>.after (Registration.addDeclaredMember 1 ⟨15⟩
      ((MemberDeclaration.method contractNames.dispose .void).explicit ⟨8⟩))
    |>.after (Registration.setBase 1 ⟨15⟩ ⟨14⟩)

/-- The two classes are registered without a stop. -/
theorem overriddenTypes_built : Built TypeEntry.IsOriginal overriddenTypes := by
  have start : Built TypeEntry.IsOriginal .initial := .initial
  have base := start.declare { name := "B", sort := .classType } rfl
  have disposable := base.addInterface ⟨14⟩ .disposable (by decide)
  have implemented := disposable.addMember ⟨14⟩
    ((MemberDeclaration.method contractNames.dispose .void).implementing ⟨0⟩)
    (by decide) (by decide) (by decide)
  have declared := implemented.declare { name := "D", sort := .classType } rfl
  have extended := declared.setBase ⟨15⟩ ⟨14⟩ (by decide) (by decide)
  exact extended.addMember ⟨15⟩ _ (by decide) (by decide) (by decide)

/-- The method of disposal is called on a value of the second class. -/
theorem overriddenTypes_call : ∃ target, overriddenTypes.ContractCall ⟨15⟩ ⟨0⟩ target := by
  obtain ⟨target, known, contract⟩ : ∃ target ∈ overriddenTypes.member? ⟨0⟩,
      overriddenTypes.isInterface target.owner = .ok true := by
    decide
  obtain ⟨entry, typeKnown, isClass⟩ : ∃ entry ∈ overriddenTypes.type? ⟨15⟩,
      entry.kind = .classType := by
    decide
  exact ⟨target, ⟨entry, typeKnown, .inl isClass⟩, known, contract⟩

/-- The method of the first class runs, which is recorded for that of the contract. -/
theorem overriddenTypes_dispatches : ∃ target, overriddenTypes.ContractCall ⟨15⟩ ⟨0⟩ target ∧
    overriddenTypes.findImplementation? ⟨15⟩ ⟨0⟩ = .ok (some ⟨8⟩) ∧
      overriddenTypes.Dispatches ⟨15⟩ target (·.implements = some ⟨0⟩)
        (fun source => overriddenTypes.isInterface source.owner = .ok false)
        [⟨15⟩, ⟨14⟩, .object] (some ⟨8⟩) := by
  obtain ⟨target, call⟩ := overriddenTypes_call
  obtain ⟨chain, answer, isChain, answered, dispatches⟩ := overriddenTypes_built.dispatches call
  have bases : overriddenTypes.baseChain ⟨15⟩ = .ok [⟨15⟩, ⟨14⟩, .object] := by decide
  have runs : overriddenTypes.findImplementation? ⟨15⟩ ⟨0⟩ = .ok (some ⟨8⟩) := by decide
  cases isChain.symm.trans bases
  cases answered.symm.trans runs
  exact ⟨target, call, runs, dispatches⟩

/-- The contract and the class are registered without a stop. -/
theorem contractBase_built : Built TypeEntry.IsOriginal contractBase := by
  have start : Built TypeEntry.IsOriginal .initial := .initial
  have contract := start.declare { name := "J", sort := .interfaceType } rfl
  have method := contract.addMember ⟨14⟩ (.method contractNames.dispose .void)
    (by decide) (by decide) (by decide)
  have declared := method.declare { name := "E", sort := .classType } rfl
  have implemented := declared.addMember ⟨15⟩
    ((MemberDeclaration.method contractNames.dispose .void).explicit ⟨8⟩)
    (by decide) (by decide) (by decide)
  exact implemented.setBase ⟨15⟩ ⟨14⟩ (by decide) (by decide)

/-- Members of contracts run their nearest explicit implementation, and if there is none, what a
direct call of the nearest public member that is called alike runs. -/
def HonoursOverrides (registry : Registry) : Prop :=
  ∀ {type member target}, registry.ContractCall type member target →
    ∃ chain answer, registry.baseChain type = .ok chain ∧
      registry.findImplementation? type member = .ok answer ∧
        registry.Dispatches type target (·.IsExplicitFor member) (fun _ => True) chain answer

/-- The public method of the second class is passed over, although nothing implements the contract's
explicitly. And where a contract serves as a base, its method runs for that of disposal, while a
direct call of it runs its explicit implementation. -/
theorem overriddenTypes_not_honoursOverrides :
    (Built TypeEntry.IsOriginal overriddenTypes ∧ ¬ overriddenTypes.HonoursOverrides) ∧
      Built TypeEntry.IsOriginal contractBase ∧ ¬ contractBase.HonoursOverrides := by
  have isTested (source : MemberEntry) (isExplicit : source.IsExplicitFor ⟨0⟩) :
      (decide (source.implements = some ⟨0⟩) && source.flags.isExplicit) = true := by
    rw [isExplicit.implements, isExplicit.isExplicit]
    rfl
  refine ⟨⟨overriddenTypes_built, fun honours => ?_⟩, contractBase_built, fun honours => ?_⟩
  · obtain ⟨target, call⟩ := overriddenTypes_call
    obtain ⟨entry, typeKnown, others⟩ : ∃ entry ∈ overriddenTypes.type? ⟨15⟩,
        entry.members = [⟨9⟩] := by
      decide
    obtain ⟨chain, answer, isChain, answered, dispatches⟩ := honours call
    have bases : overriddenTypes.baseChain ⟨15⟩ = .ok [⟨15⟩, ⟨14⟩, .object] := by decide
    have runs : overriddenTypes.findImplementation? ⟨15⟩ ⟨0⟩ = .ok (some ⟨8⟩) := by decide
    cases isChain.symm.trans bases
    cases answered.symm.trans runs
    have nearest := dispatches.called (not_lists_of_findSome? (by decide) isTested) _ rfl
    have lists : overriddenTypes.Lists ⟨15⟩ (·.IsNamesake target) := by
      obtain ⟨source, sourceKnown, passes⟩ : ∃ source ∈ overriddenTypes.member? ⟨9⟩,
          ∀ target ∈ overriddenTypes.member? ⟨0⟩,
            source.flags.isPublicInstance = true ∧ namesakeTest target source = true := by
        decide
      exact ⟨entry, ⟨9⟩, source, typeKnown, others ▸ List.mem_cons_self .., sourceKnown,
        isNamesake_iff.mp (passes target call.known)⟩
    have isOwn := nearest.mem_head typeKnown lists
    rw [others] at isOwn
    exact absurd isOwn (by decide)
  · obtain ⟨target, known, contract⟩ : ∃ target ∈ contractBase.member? ⟨0⟩,
        contractBase.isInterface target.owner = .ok true := by
      decide
    obtain ⟨entry, typeKnown, isClass⟩ : ∃ entry ∈ contractBase.type? ⟨15⟩,
        entry.kind = .classType := by
      decide
    obtain ⟨source, sourceKnown⟩ := Option.isSome_iff_exists.mp
      (show (contractBase.member? ⟨8⟩).isSome = true by decide)
    obtain ⟨chain, answer, isChain, answered, dispatches⟩ :=
      honours ⟨⟨entry, typeKnown, .inl isClass⟩, known, contract⟩
    have bases : contractBase.baseChain ⟨15⟩ = .ok [⟨15⟩, ⟨14⟩] := by decide
    have runs : contractBase.findImplementation? ⟨15⟩ ⟨0⟩ = .ok (some ⟨8⟩) := by decide
    cases isChain.symm.trans bases
    cases answered.symm.trans runs
    have agrees := dispatches.agrees (not_lists_of_findSome? (by decide) isTested) _ source rfl
      sourceKnown trivial
    have differs : contractBase.findImplementation? ⟨15⟩ ⟨8⟩ = .ok (some ⟨9⟩) := by decide
    cases differs.symm.trans agrees

end Registry

end Foreach
