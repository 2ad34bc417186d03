import Foreach.Proofs.Types.Ancestry
import Foreach.Proofs.Types.Furnished
import Foreach.Types.MemberLookup

/-!
# Finding members in a closed registry

In a closed registry the scopes of a registered type are known, and so is the first public instance
member that passes a test (`Registry.publicMember?`). It is found exactly if some scope lists such a
member.
-/
namespace Foreach.Registry

/-- Whether a value of one type can serve as a value of another. -/
def assignable (registry : Registry) (type target : TypeId) : Bool :=
  type = target ||
    if (registry.flagsOf target).isInterface then
      !(registry.flagsOf type).byRefLike && (registry.contracts type).contains target
    else if target = .object then
      !(registry.flagsOf type).byRefLike && !(registry.flagsOf type).genericParameter
    else (registry.ancestors type).contains target

/-- The types in which members of a type are looked for. -/
def scopes (registry : Registry) (type : TypeId) : List TypeId :=
  if (registry.flagsOf type).isInterface then type :: registry.contracts type
  else registry.ancestors type

/-- The first public instance member of a scope that passes a test. -/
def publicIn? (registry : Registry) (test : MemberEntry → Bool) (scope : TypeId) :
    Option MemberId :=
  registry.findMember? scope fun entry => entry.flags.isPublicInstance && test entry

/-- The first public instance member that passes a test, scope by scope. -/
def publicMember? (registry : Registry) (type : TypeId) (test : MemberEntry → Bool) :
    Option MemberId :=
  (registry.scopes type).findSome? (registry.publicIn? test)

/-- The type itself and its interfaces, as far as they are a definition or instances of it. -/
def instancesIn (registry : Registry) (type definition : TypeId) : List TypeId :=
  (type :: registry.contracts type).filter (registry.standsFor definition)

section Members

variable {registry : Registry} {test : MemberEntry → Bool} {type : TypeId} {member : MemberId}

/-- A member that is found in a type is listed there and passes the test. -/
theorem findMember?_eq_some (found : registry.findMember? type test = some member) :
    ∃ entry source, registry.type? type = some entry ∧ member ∈ entry.members ∧
      registry.member? member = some source ∧ test source = true := by
  have isListed := List.mem_of_find?_eq_some found
  have passes := List.find?_some found
  unfold membersOf at isListed
  cases known : registry.type? type with
  | none =>
    rw [known] at isListed
    cases isListed
  | some entry =>
    rw [known] at isListed
    cases sourceKnown : registry.member? member with
    | none =>
      simp only [sourceKnown] at passes
      cases passes
    | some source =>
      simp only [sourceKnown] at passes
      exact ⟨entry, source, rfl, isListed, rfl, passes⟩

/-- No member is found in a type exactly if it lists none that passes the test. -/
theorem findMember?_eq_none :
    registry.findMember? type test = none ↔ ¬ registry.Lists type (test · = true) := by
  constructor
  · rintro absent ⟨entry, member, source, known, isListed, sourceKnown, passes⟩
    have fails := List.find?_eq_none.mp absent member (by rw [membersOf, known]; exact isListed)
    simp only [sourceKnown] at fails
    exact fails passes
  · intro unlisted
    cases found : registry.findMember? type test with
    | none => rfl
    | some member =>
      obtain ⟨entry, source, known, isListed, sourceKnown, passes⟩ := findMember?_eq_some found
      exact absurd ⟨entry, member, source, known, isListed, sourceKnown, passes⟩ unlisted

/-- A public member that is found in a scope is declared there and passes the test. -/
theorem publicIn?_eq_some (formed : registry.WellFormed) {scope : TypeId}
    (found : registry.publicIn? test scope = some member) :
    ∃ source, registry.member? member = some source ∧ source.owner = scope ∧
      source.flags.isPublicInstance = true ∧ test source = true := by
  obtain ⟨entry, source, known, isListed, sourceKnown, passes⟩ := findMember?_eq_some found
  obtain ⟨source', sourceKnown', owner, -⟩ := formed.owned known isListed
  cases sourceKnown.symm.trans sourceKnown'
  exact ⟨source, sourceKnown, owner, Bool.and_eq_true_iff.mp passes⟩

/-- No public member is found in a scope exactly if it lists none that passes the test. -/
theorem publicIn?_eq_none {scope : TypeId} : registry.publicIn? test scope = none ↔
    ¬ registry.Lists scope fun source =>
      source.flags.isPublicInstance = true ∧ test source = true := by
  rw [publicIn?, findMember?_eq_none]
  simp only [Bool.and_eq_true]

/-- A public member that is found is declared by one of the scopes and passes the test. -/
theorem publicMember?_eq_some (formed : registry.WellFormed)
    (found : registry.publicMember? type test = some member) :
    ∃ source, registry.member? member = some source ∧ source.owner ∈ registry.scopes type ∧
      source.flags.isPublicInstance = true ∧ test source = true := by
  obtain ⟨scope, isScope, foundThere⟩ := List.exists_of_findSome?_eq_some found
  obtain ⟨source, sourceKnown, rfl, passes⟩ := publicIn?_eq_some formed foundThere
  exact ⟨source, sourceKnown, isScope, passes⟩

/-- No public member is found exactly if no scope lists one that passes the test. -/
theorem publicMember?_eq_none :
    registry.publicMember? type test = none ↔ ∀ scope ∈ registry.scopes type,
      ¬ registry.Lists scope fun source =>
        source.flags.isPublicInstance = true ∧ test source = true := by
  rw [publicMember?, List.findSome?_eq_none_iff]
  exact forall₂_congr fun _ _ => publicIn?_eq_none

end Members

section Answers

variable {registry : Registry} (closed : registry.Closed) {type : TypeId} (has : registry.Has type)

/-- Searching for a type finds it exactly if it is there. -/
theorem isSome_findSome?_eq_contains (target : TypeId) (types : List TypeId) :
    (types.findSome? fun base => if base = target then some base else none).isSome =
      types.contains target := by
  induction types with
  | nil => rfl
  | cons type rest ih =>
    rw [List.findSome?_cons, List.contains_cons]
    by_cases same : type = target
    · rw [if_pos same, same, beq_self_eq_true, Bool.true_or]
      rfl
    · rw [if_neg same, beq_false_of_ne (Ne.symm same), Bool.false_or]
      exact ih

/-- A question that is always answered selects what it is answered truthfully for. -/
theorem filterM_eq_ok {types : List TypeId} {question : TypeId → Checked Bool}
    {answer : TypeId → Bool} (answered : ∀ type ∈ types, question type = .ok (answer type)) :
    types.filterM question = .ok (types.filter answer) := by
  have auxiliary (selected : List TypeId) :
      List.filterAuxM question types selected =
        .ok ((types.filter answer).reverse ++ selected) := by
    induction types generalizing selected with
    | nil => rfl
    | cons type rest ih =>
      have tail := ih fun other inRest => answered other (List.mem_cons_of_mem _ inRest)
      refine Work.checked_bind_eq_ok.mpr ⟨_, answered type (List.mem_cons_self ..), ?_⟩
      rw [tail, List.filter_cons]
      cases answer type <;> simp
  refine Work.checked_bind_eq_ok.mpr ⟨_, auxiliary [], ?_⟩
  rw [List.append_nil, List.reverse_reverse]
  rfl

include has in
/-- Members of a type are looked for in the type itself first. -/
theorem scopes_eq_cons : ∃ others, registry.scopes type = type :: others := by
  obtain ⟨above, isAncestors⟩ := ancestors_eq_cons has
  rw [scopes, isAncestors]
  cases (registry.flagsOf type).isInterface <;> exact ⟨_, rfl⟩

include has in
/-- A type is among its own scopes. -/
theorem mem_scopes : type ∈ registry.scopes type := by
  obtain ⟨others, isScopes⟩ := scopes_eq_cons has
  rw [isScopes]
  exact List.mem_cons_self ..

include has in
/-- A public member that is found in the type itself is found before any other. -/
theorem publicMember?_of_own {test : MemberEntry → Bool} {member : MemberId}
    (own : registry.publicIn? test type = some member) :
    registry.publicMember? type test = some member := by
  obtain ⟨others, isScopes⟩ := scopes_eq_cons has
  rw [publicMember?, isScopes, List.findSome?_cons, own]

include has in
/-- What stands for the first member of a type, and passes a test, is found first. -/
theorem BeginsWith.publicMember? {test : MemberEntry → Bool} {member : MemberId}
    {others : List MemberId} (begins : registry.BeginsWith type (member :: others))
    (passes : ∀ source made, registry.member? member = some source → made.Alike source →
      made.flags.isPublicInstance = true ∧ test made = true) :
    ∃ copy, registry.publicMember? type test = some copy ∧ registry.StandsIn member copy := by
  obtain ⟨entry, copies, more, known, listed, stand⟩ := begins
  obtain ⟨copy, rest, standsIn, -, rfl⟩ := List.forall₂_cons_left_iff.mp stand
  obtain ⟨source, made, sourceKnown, madeKnown, alike, -⟩ := id standsIn
  have found : registry.publicIn? test type = some copy := by
    rw [publicIn?, findMember?, membersOf, known]
    show List.find? _ entry.members = some copy
    rw [listed, List.cons_append, List.find?_cons, madeKnown]
    show (match made.flags.isPublicInstance && test made with
      | true => some copy
      | false => _) = some copy
    rw [Bool.and_eq_true_iff.mpr (passes source made sourceKnown alike)]
  exact ⟨copy, publicMember?_of_own has found, standsIn⟩

include closed

/-- The interfaces of a type are registered. -/
theorem Closed.contracts_has : ∀ contract ∈ registry.contracts type, registry.Has contract :=
  fun _ isContract => (closed.isContract_of_mem_contracts isContract).has

include has

/-- The scopes of a registered type are known. -/
theorem Closed.lookupScopes_eq_ok : registry.lookupScopes type = .ok (registry.scopes type) := by
  rw [lookupScopes, isInterface_eq_ok has, scopes]
  cases (registry.flagsOf type).isInterface with
  | true =>
    rw [closed.allInterfaces_eq_ok has]
    rfl
  | false => exact closed.baseChain_eq_ok has

/-- The first public member of a registered type that passes a test is found. -/
theorem Closed.findPublic?_eq_ok (test : MemberEntry → Bool) :
    registry.findPublic? type test = .ok (registry.publicMember? type test) := by
  rw [findPublic?, closed.lookupScopes_eq_ok has]
  rfl

/-- The type and its interfaces that are a definition or instances of it are found. -/
theorem Closed.instantiationsOf_eq_ok (definition : TypeId) :
    registry.instantiationsOf type definition = .ok (registry.instancesIn type definition) := by
  have each : (registry.contracts type).filterM (registry.isInstanceOf · definition) =
      .ok ((registry.contracts type).filter (registry.standsFor definition)) :=
    filterM_eq_ok fun contract isContract =>
      isInstanceOf_eq_ok (closed.contracts_has contract isContract) definition
  rw [instantiationsOf, isInstanceOf_eq_ok has, closed.allInterfaces_eq_ok has, instancesIn,
    List.filter_cons]
  refine Work.checked_bind_eq_ok.mpr ⟨_, rfl, ?_⟩
  refine Work.checked_bind_eq_ok.mpr ⟨_, rfl, ?_⟩
  exact Work.checked_bind_eq_ok.mpr ⟨_, each, rfl⟩

/-- Whether a value of one registered type can serve as one of another is known. -/
theorem Closed.isAssignableTo_eq_ok {target : TypeId} (targetHas : registry.Has target) :
    registry.isAssignableTo type target = .ok (registry.assignable type target) := by
  unfold isAssignableTo assignable
  by_cases same : type = target
  · rw [if_pos same, decide_eq_true same, Bool.true_or]
    rfl
  rw [if_neg same, decide_eq_false same, Bool.false_or, isInterface_eq_ok targetHas]
  refine Work.checked_bind_eq_ok.mpr ⟨_, rfl, ?_⟩
  cases (registry.flagsOf target).isInterface with
  | true =>
    rw [if_pos rfl, if_pos rfl, isByRefLike_eq_ok has, closed.implements_eq_ok has]
    cases (registry.flagsOf type).byRefLike <;> rfl
  | false =>
    rw [if_neg Bool.false_ne_true, if_neg Bool.false_ne_true]
    by_cases isObject : target = .object
    · obtain ⟨entry, found, -, flags⟩ := exists_entry has
      rw [if_pos isObject, if_pos isObject, found, ← flags]
      rfl
    · rw [if_neg isObject, if_neg isObject, closed.search_eq_ok has]
      refine Work.checked_bind_eq_ok.mpr ⟨_, rfl, congrArg Except.ok ?_⟩
      exact isSome_findSome?_eq_contains target _

end Answers

end Foreach.Registry
