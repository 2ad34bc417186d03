import Foreach.Proofs.Lowering.Unhindered

/-!
# The accesses that lowering adds

A call and a read property access a member of their receiver, and a conversion takes its operand as
a value of another type. They are well typed if the receiver can serve as a value of the type that
declares the member, and the operand as one of the node's type (`Registry.WellTyped`).

Whatever disposes of a value is well typed: values on the stack are told apart where their disposal
is chosen. The members of enumeration are looked for without that: a contract is used through
whichever type has it, and a member of a base through the base. So an access is well typed unless
the type that declares the member is one that the receiver has, but cannot serve as
(`Registry.Misfit`): a contract or `object` above a value on the stack, `object` above a generic
parameter, or a contract that was set as a base.
-/
namespace Foreach

namespace Arena

variable {later earlier : Arena} (grown : later.Extends earlier) {id : NodeId}
include grown

/-- There are no fewer nodes. -/
theorem Extends.size_le : earlier.size ≤ later.size := by
  obtain ⟨added, nodes⟩ := grown.nodes
  rw [size, size, nodes, Array.size_append]
  exact Nat.le_add_right _ _

/-- A node that was there is still there. -/
theorem Extends.node?_of_lt (inside : id.index < earlier.size) :
    later.node? id = earlier.node? id := by
  obtain ⟨added, nodes⟩ := grown.nodes
  rw [node?, nodes, Array.getElem?_append_left inside]
  rfl

end Arena

namespace Registry

/-- A value of a type can serve as a value of the type that declares a member. -/
def Receives (registry : Registry) (type : TypeId) (member : MemberId) : Prop :=
  ∃ source, registry.member? member = some source ∧
    registry.isAssignableTo type source.owner = .ok true

/-- A node accesses nothing that its receiver cannot serve for, and converts its operand to nothing
that the operand cannot serve as. -/
def WellTyped (registry : Registry) (arena : Arena) (node : Node) : Prop :=
  match node.kind with
  | .call receiver member _ | .property receiver member =>
    ∃ type, arena.typeOf receiver = .ok type ∧ registry.Receives type member
  | .convert operand =>
    ∃ type, arena.typeOf operand = .ok type ∧ registry.isAssignableTo type node.type = .ok true
  | _ => True

/-- The nodes that were added to an arena are well typed. -/
def AddsTyped (registry : Registry) (later earlier : Arena) : Prop :=
  ∀ id node, earlier.size ≤ id.index → later.node? id = some node → registry.WellTyped later node

section Adding

variable {registry : Registry} {later earlier : Arena}

/-- A node that is well typed is so in every later arena. -/
theorem WellTyped.extend {node : Node} (typed : registry.WellTyped earlier node)
    (grown : later.Extends earlier) : registry.WellTyped later node := by
  obtain ⟨kind, type⟩ := node
  cases kind with
  | call | property | convert =>
    obtain ⟨type, receiverTyped, receives⟩ := typed
    exact ⟨type, grown.typeOf receiverTyped, receives⟩
  | _ => exact typed

/-- Where no node was added, all that were added are well typed. -/
theorem AddsTyped.of_nodes (same : later.nodes = earlier.nodes) :
    registry.AddsTyped later earlier := by
  intro id node isAdded known
  have inside := (Array.getElem?_eq_some_iff.mp known).1
  rw [same] at inside
  exact absurd inside (Nat.not_lt.mpr isAdded)

/-- No node was added. -/
theorem AddsTyped.refl (arena : Arena) : registry.AddsTyped arena arena := .of_nodes rfl

/-- What was added in two steps is well typed if what was added in each of them is. -/
theorem AddsTyped.trans {middle : Arena} (further : registry.AddsTyped later middle)
    (adds : registry.AddsTyped middle earlier) (grown : later.Extends middle) :
    registry.AddsTyped later earlier := by
  intro id node isAdded known
  by_cases inside : id.index < middle.size
  · have knownBefore : middle.node? id = some node := (grown.node?_of_lt inside).symm.trans known
    exact (adds id node isAdded knownBefore).extend grown
  · exact further id node (Nat.not_lt.mp inside) known

end Adding

end Registry

namespace Construction

open Registry

variable {registry : Registry} {before after : Arena} {id : NodeId}

/-- A pushed node that is well typed is all that is added. -/
theorem push_typed {kind : NodeKind} {type : TypeId}
    (pushed : push kind type before = .ok (id, after))
    (typed : registry.WellTyped after ⟨kind, type⟩) : registry.AddsTyped after before := by
  intro other node isAdded known
  obtain ⟨-, rfl⟩ := push_eq_ok.mp pushed
  have inside := (Array.getElem?_eq_some_iff.mp known).1
  have count : (before.push ⟨kind, type⟩).1.nodes.size = before.nodes.size + 1 := by
    simp [Arena.push]
  have position : other.index = before.nodes.size := by
    have atLeast : before.nodes.size ≤ other.index := isAdded
    omega
  have isNew : node = ⟨kind, type⟩ := by
    rw [Arena.node?, Arena.push, position, Array.getElem?_push_size] at known
    exact (Option.some.inj known).symm
  exact isNew ▸ typed

/-- An assignment accesses nothing. -/
theorem assign_typed {target value : NodeId}
    (built : assign target value before = .ok (id, after)) :
    registry.AddsTyped after before := by
  obtain ⟨-, _, -, pushed⟩ := assignment_eq_ok.mp built
  exact push_typed pushed trivial

/-- A cleanup accesses nothing. -/
theorem tryFinally_typed {body cleanup : NodeId}
    (built : tryFinally body cleanup before = .ok (id, after)) :
    registry.AddsTyped after before := by
  obtain ⟨_, -, pushed⟩ := tryFinally_eq_ok.mp built
  exact push_typed pushed trivial

/-- A block accesses nothing. -/
theorem block_typed {locals statements : List NodeId}
    (built : block locals statements before = .ok (id, after)) :
    registry.AddsTyped after before := by
  obtain ⟨-, _, _, _, middle, last, -, storedLocals, storedStatements, pushed⟩ :=
    block_eq_ok.mp built
  have lists : registry.AddsTyped last before :=
    .of_nodes ((list_nodes storedStatements).trans (list_nodes storedLocals))
  exact (push_typed pushed trivial).trans lists (push_adds pushed).1

/-- A loop accesses nothing. -/
theorem whileLoop_typed {condition body : NodeId}
    (built : whileLoop condition body before = .ok (id, after)) :
    registry.AddsTyped after before := by
  obtain ⟨-, exit, step, _, _, pushedExit, pushedStep, pushedLoop⟩ := whileLoop_eq_ok.mp built
  have labelAdds : registry.AddsTyped before.freshLabel.1 before := .of_nodes rfl
  have exitAdds := (push_typed pushedExit trivial).trans labelAdds (push_adds pushedExit).1
  have stepAdds := (push_typed pushedStep trivial).trans exitAdds (push_adds pushedStep).1
  exact (push_typed pushedLoop trivial).trans stepAdds (push_adds pushedLoop).1

section Access

variable {receiver : NodeId} {member : MemberId} {type : TypeId}
  (receiverTyped : before.typeOf receiver = .ok type)
include receiverTyped

/-- A call is well typed if its receiver can serve for the method. -/
theorem call_typed {arguments : List NodeId} (receives : registry.Receives type member)
    (built : call registry receiver member arguments before = .ok (id, after)) :
    registry.AddsTyped after before := by
  obtain ⟨_, range, middle, -, -, -, stored, pushed⟩ := call_eq_ok.mp built
  have grown := (push_adds pushed).1
  have typed := (grown.trans (list_adds stored).1).typeOf receiverTyped
  exact (push_typed pushed ⟨type, typed, receives⟩).trans (.of_nodes (list_nodes stored)) grown

/-- A call that is well typed among others has a receiver that can serve for the method. -/
theorem call_receives {arguments : List NodeId} {later earlier : Arena}
    (built : call registry receiver member arguments before = .ok (id, after))
    (grown : later.Extends after) (started : earlier.size ≤ before.size)
    (adds : registry.AddsTyped later earlier) : registry.Receives type member := by
  have added := call_adds built
  obtain ⟨_, range, middle, -, -, -, stored, pushed⟩ := call_eq_ok.mp built
  have isAdded : earlier.size ≤ id.index := by
    rw [(push_eq_ok.mp pushed).1]
    show earlier.size ≤ middle.nodes.size
    rw [list_nodes stored]
    exact started
  obtain ⟨node, known, kind⟩ := Arena.kind_eq_ok.mp (grown.kind (push_adds pushed).2)
  have typed := adds id node isAdded known
  rw [WellTyped, kind] at typed
  obtain ⟨type', receiverTyped', receives⟩ := typed
  have sameType := (grown.trans added.1).typeOf receiverTyped
  cases sameType.symm.trans receiverTyped'
  exact receives

/-- A read property is well typed exactly if its receiver can serve for the property. -/
theorem property_typed_iff (built : property registry receiver member before = .ok (id, after)) :
    registry.AddsTyped after before ↔ registry.Receives type member := by
  obtain ⟨_, -, -, pushed⟩ := property_eq_ok.mp built
  obtain ⟨grown, propertyKnown⟩ := push_adds pushed
  have sameType := grown.typeOf receiverTyped
  constructor
  · intro adds
    obtain ⟨node, known, kind⟩ := Arena.kind_eq_ok.mp propertyKnown
    have isAdded : before.size ≤ id.index := Nat.le_of_eq ((push_eq_ok.mp pushed).1 ▸ rfl)
    have typed := adds id node isAdded known
    rw [WellTyped, kind] at typed
    obtain ⟨type', receiverTyped', receives⟩ := typed
    cases sameType.symm.trans receiverTyped'
    exact receives
  · intro receives
    exact push_typed pushed ⟨type, sameType, receives⟩

end Access

section Disposal

variable (complete : registry.Complete) {resource : NodeId} {type : TypeId}
  (receiverTyped : before.typeOf resource = .ok type)
include complete receiverTyped

/-- A disposal through the contract is well typed if the resource can serve as a value of it. -/
theorem disposeThroughContract_typed
    (assignable : registry.isAssignableTo type .disposable = .ok true)
    (built : disposeThroughContract registry resource before = .ok (id, after)) :
    registry.AddsTyped after before := by
  obtain ⟨method, converted, middle, isMethod, pushed, called⟩ :=
    disposeThroughContract_eq_ok.mp built
  cases isMethod.symm.trans complete.disposeMethod_eq_ok
  have conversion := push_typed pushed
    ⟨type, (push_adds pushed).1.typeOf receiverTyped, assignable⟩
  have ofContract : registry.Receives .disposable ⟨0⟩ := by
    refine ⟨_, complete.keeps.members rfl, ?_⟩
    exact if_pos rfl
  exact (call_typed (push_typeOf pushed) ofContract called).trans conversion (call_adds called).1

/-- Whatever disposes of a resource is well typed. -/
theorem disposeBy_typed {strategy : DisposalStrategy} (has : registry.Has type)
    (classified : registry.classifyDisposal type = .ok (some strategy))
    (built : disposeBy registry resource strategy before = .ok (id, after)) :
    registry.AddsTyped after before := by
  have closed := complete.toClosed
  rw [complete.classifyDisposal_eq_ok has, Except.ok.injEq] at classified
  by_cases byRefLike : (registry.flagsOf type).byRefLike = true
  · rw [if_pos byRefLike] at classified
    obtain ⟨own, found, same⟩ := Option.map_eq_some_iff.mp classified
    subst same
    obtain ⟨entry, source, known, isListed, sourceKnown, -⟩ := findMember?_eq_some found
    obtain ⟨source', sourceKnown', owner, -⟩ := closed.owned known isListed
    cases sourceKnown.symm.trans sourceKnown'
    have receives : registry.Receives type own := by
      refine ⟨source, sourceKnown, ?_⟩
      rw [owner]
      exact if_pos rfl
    exact call_typed receiverTyped receives built
  · rw [if_neg byRefLike] at classified
    have disposableHas : registry.Has .disposable := complete.keeps.has (by decide)
    have assignable : registry.isAssignableTo type .disposable = .ok true := by
      obtain ⟨contract, isUsed, -⟩ := Option.map_eq_some_iff.mp classified
      rw [closed.isAssignableTo_eq_ok has disposableHas,
        complete.assignable_disposable (Bool.eq_false_iff.mpr byRefLike), isUsed]
      rfl
    cases strategy with
    | valueType => exact disposeThroughContract_typed complete receiverTyped assignable built
    | byRefLike method =>
      obtain ⟨_, -, same⟩ := Option.map_eq_some_iff.mp classified
      split at same <;> cases same
    | referenceType =>
      obtain ⟨_, missing, _, present, tested, call, called, -, pushedNull, pushedTest, disposed,
        pushed⟩ := disposeReference_eq_ok.mp built
      have testGrown := (push_adds pushedTest).1
      have toTest := testGrown.trans (push_adds pushedNull).1
      have tests : registry.AddsTyped tested before :=
        (push_typed pushedTest trivial).trans (push_typed pushedNull trivial) testGrown
      have calls := (disposeThroughContract_typed complete (toTest.typeOf receiverTyped) assignable
        disposed).trans tests (disposeThroughContract_adds disposed).1
      exact (push_typed pushed trivial).trans calls (push_adds pushed).1

end Disposal

variable {members : LoopMembers} {enumerable : NodeId} {type : TypeId}

/-- What comes before the body of a loop is well typed exactly if the enumerable can serve for what
gives the enumerator. -/
theorem startLoop_typed_iff {opened : OpenLoop}
    (receiverTyped : before.typeOf enumerable = .ok type)
    (built : startLoop registry enumerable members before = .ok (opened, after)) :
    registry.AddsTyped after before ↔ registry.Receives type members.getEnumerator := by
  obtain ⟨rfl, -, -, declared, acquired, called, pushed, callBuilt, assignBuilt⟩ :=
    startLoop_eq_ok.mp built
  have declaredGrown := (push_adds pushed).1
  have assignGrown := (assign_adds assignBuilt).1
  have stillTyped := declaredGrown.typeOf receiverTyped
  constructor
  · exact call_receives stillTyped callBuilt assignGrown declaredGrown.size_le
  · intro receives
    have calls : registry.AddsTyped called before :=
      (call_typed stillTyped receives callBuilt).trans (push_typed pushed trivial)
        (call_adds callBuilt).1
    exact (assign_typed assignBuilt).trans calls assignGrown

/-- What comes after the body of a loop is well typed exactly if the enumerator can serve for what
goes on to the next item. -/
theorem closeLoop_typed_iff (complete : registry.Complete) {opened : OpenLoop} {plan : LoopPlan}
    {step : NodeId} (has : registry.Has type)
    (enumeratorTyped : before.typeOf opened.binding.enumerator = .ok type)
    (classified : registry.classifyDisposal type = .ok opened.members.disposal)
    (built : closeLoop registry opened plan step before = .ok (.ok id, after)) :
    registry.AddsTyped after before ↔ registry.Receives type opened.members.moveNext := by
  obtain ⟨hasNext, asked, looped, repeated, strategy, disposal, disposed, guarded, last, called,
    whileBuilt, isStrategy, disposeBuilt, guardBuilt, blockBuilt⟩ := closeLoop_eq_ok.mp built
  rw [isStrategy] at classified
  have whileGrown := (whileLoop_adds whileBuilt).1
  have disposeGrown := (disposeBy_adds disposeBuilt).1
  have guardGrown := (tryFinally_adds guardBuilt).1
  have blockGrown := (block_adds blockBuilt).1
  have toEnd := blockGrown.trans (guardGrown.trans (disposeGrown.trans whileGrown))
  constructor
  · exact call_receives enumeratorTyped called toEnd (Nat.le_refl _)
  · intro receives
    have toLoop := whileGrown.trans (call_adds called).1
    have loops : registry.AddsTyped repeated before :=
      (whileLoop_typed whileBuilt).trans (call_typed enumeratorTyped receives called) whileGrown
    have disposes : registry.AddsTyped disposed before :=
      (disposeBy_typed complete (toLoop.typeOf enumeratorTyped) has classified disposeBuilt).trans
        loops disposeGrown
    have guards : registry.AddsTyped last before :=
      (tryFinally_typed guardBuilt).trans disposes guardGrown
    exact (block_typed blockBuilt).trans guards blockGrown

/-- Whatever the use of a resource adds is well typed. -/
theorem useResource_typed (complete : registry.Complete) {resource body : NodeId}
    {result : Except LoweringError NodeId} (has : registry.Has type)
    (typed : before.typeOf resource = .ok type)
    (built : useResource registry resource body before = .ok (result, after)) :
    registry.AddsTyped after before := by
  cases result with
  | error error =>
    obtain ⟨-, _, _, -, -, -, -, rfl⟩ := useResource_eq_error.mp built
    exact .refl _
  | ok id =>
    obtain ⟨-, _, _, _, _, isType, classifies, disposed, guarded⟩ := useResource_eq_ok.mp built
    cases typed.symm.trans isType
    exact (tryFinally_typed guarded).trans
      (disposeBy_typed complete typed has classifies disposed) (tryFinally_adds guarded).1

end Construction

namespace Registry

open Construction

/-- A type above another is one that values of the other cannot serve as: a contract or `object`
above a type whose values live on the stack alone, `object` above a generic parameter, or a contract
that the other does not have, which was set as a base. -/
def Misfit (registry : Registry) (type owner : TypeId) : Prop :=
  owner ≠ type ∧
    ((registry.flagsOf owner).isInterface = true ∧
        ((registry.flagsOf type).byRefLike = true ∨ owner ∉ registry.contracts type) ∨
      owner = .object ∧
        ((registry.flagsOf type).byRefLike = true ∨
          (registry.flagsOf type).genericParameter = true))

section Members

variable {registry : Registry} (complete : registry.Complete) {type : TypeId}
  (has : registry.Has type)
include complete

/-- The root of the classes is no contract. -/
theorem Furnished.object_not_interface : (registry.flagsOf .object).isInterface = false := by
  obtain ⟨entry, known, continued⟩ :=
    complete.keeps.entries (show initial.type? .object = some _ from rfl)
  rw [flagsOf, known]
  exact congrArg TypeFlags.isInterface continued.flags

include has

/-- Members are looked for in the type itself, its bases and its contracts, also if they are looked
for in a contract that the type has. -/
theorem Furnished.scopes_subset {scope : TypeId}
    (isUsed : scope ∈ type :: registry.contracts type) :
    registry.scopes scope ⊆ registry.ancestors type ++ registry.contracts type := by
  obtain ⟨others, isAncestors⟩ := ancestors_eq_cons has
  have ofContracts : scope :: registry.contracts scope ⊆ type :: registry.contracts type := by
    rcases List.mem_cons.mp isUsed with rfl | isContract
    · exact List.Subset.refl _
    · have within := complete.contracts_closed isContract
      exact List.cons_subset.mpr ⟨isUsed, fun _ isThere => List.mem_cons_of_mem _ (within isThere)⟩
  have ofType : type :: registry.contracts type ⊆
      registry.ancestors type ++ registry.contracts type := by
    rw [isAncestors, List.cons_append]
    exact List.cons_subset_cons _ (List.subset_append_right _ _)
  unfold scopes
  by_cases isInterface : (registry.flagsOf scope).isInterface = true
  · rw [if_pos isInterface]
    exact List.Subset.trans ofContracts ofType
  · rw [if_neg isInterface]
    rcases List.mem_cons.mp isUsed with rfl | isContract
    · exact List.subset_append_left _ _
    · obtain ⟨entry, known, flagged⟩ := complete.isContract_of_mem_contracts isContract
      rw [flagsOf, known] at isInterface
      exact absurd flagged isInterface

/-- A value of a type can serve as one of the type itself, of a base or of a contract exactly if
that is none that it cannot serve as. -/
theorem Furnished.isAssignableTo_iff {owner : TypeId} (ownerHas : registry.Has owner)
    (above : owner ∈ registry.ancestors type ++ registry.contracts type) :
    registry.isAssignableTo type owner = .ok true ↔ ¬ registry.Misfit type owner := by
  rw [complete.toClosed.isAssignableTo_eq_ok has ownerHas, Except.ok.injEq, assignable,
    Bool.or_eq_true, decide_eq_true_eq]
  by_cases same : type = owner
  · exact iff_of_true (.inl same) fun misfit => misfit.1 same.symm
  have differs : owner ≠ type := fun equal => same equal.symm
  rw [or_iff_right same]
  by_cases isInterface : (registry.flagsOf owner).isInterface = true
  · have notObject : owner ≠ .object := by
      rintro rfl
      exact Bool.false_ne_true (complete.object_not_interface.symm.trans isInterface)
    simp [Misfit, isInterface, notObject, differs]
  · rw [if_neg isInterface]
    by_cases isObject : owner = .object
    · simp [Misfit, isObject, isObject ▸ differs, complete.object_not_interface]
    · rw [if_neg isObject, List.contains_iff_mem]
      have notContract : owner ∉ registry.contracts type := by
        intro isContract
        obtain ⟨entry, known, flagged⟩ := complete.isContract_of_mem_contracts isContract
        rw [flagsOf, known] at isInterface
        exact isInterface flagged
      have isBase := (List.mem_append.mp above).resolve_right notContract
      simp [Misfit, isInterface, isObject, isBase]

/-- A value of a type can serve for a member that was found, in the type or in a contract that it
has, exactly if it can serve as a value of the member's type. -/
theorem Furnished.receives_iff {scope : TypeId} {test : MemberEntry → Bool} {member : MemberId}
    (isUsed : scope ∈ type :: registry.contracts type)
    (found : registry.publicMember? scope test = some member) :
    ∃ source, registry.member? member = some source ∧
      (registry.Receives type member ↔ ¬ registry.Misfit type source.owner) := by
  obtain ⟨source, known, isScope, -⟩ := publicMember?_eq_some complete.toWellFormed found
  obtain ⟨entry, ownerKnown, -⟩ := complete.listed known
  have above := complete.scopes_subset has isUsed isScope
  refine ⟨source, known, ?_⟩
  rw [← complete.isAssignableTo_iff has (has_iff.mpr ⟨entry, ownerKnown⟩) above]
  constructor
  · rintro ⟨source', known', serves⟩
    cases known.symm.trans known'
    exact serves
  · exact fun serves => ⟨source, known, serves⟩

/-- A value of a type can serve for a member that was looked for in the type itself, and then in a
contract that it has, exactly if it can serve as a value of the member's type. -/
theorem Furnished.receives_of_search {test : MemberEntry → Bool} {own : Option MemberId}
    {contract : Option TypeId} {member : MemberId}
    (isOwn : ∀ found ∈ own, registry.publicMember? type test = some found)
    (isUsed : ∀ scope ∈ contract, scope ∈ type :: registry.contracts type)
    (found : own.or (contract.bind fun scope => registry.publicMember? scope test) =
      some member) :
    ∃ source, registry.member? member = some source ∧
      (registry.Receives type member ↔ ¬ registry.Misfit type source.owner) := by
  rcases Option.or_eq_some_iff.mp found with foundHere | ⟨-, throughContract⟩
  · exact complete.receives_iff has (List.mem_cons_self ..) (isOwn member foundHere)
  · obtain ⟨scope, isContract, foundThere⟩ := Option.bind_eq_some_iff.mp throughContract
    exact complete.receives_iff has (isUsed scope isContract) foundThere

/-- The members of a loop are those that are looked for in the type and in that of its
enumerator. -/
theorem Furnished.resolveLoop_found {policy : Policy} {members : LoopMembers}
    (resolved : registry.resolveLoop policy type = .ok (.ok members)) :
    registry.getEnumerator? policy type = some members.getEnumerator ∧
      registry.Has members.enumeratorType ∧
      registry.current? policy members.enumeratorType = some members.current ∧
      registry.moveNext? members.enumeratorType = some members.moveNext := by
  obtain ⟨shape, _, found, isGetEnumerator, isEnumerator, isCurrent, isMoveNext, -⟩ :=
    resolveLoop_eq_ok resolved
  cases found.symm.trans (complete.enumerableShape_eq_ok has policy)
  cases gives : registry.getEnumerator? policy type with
  | none =>
    rw [enumerableOf, gives] at isGetEnumerator
    cases isGetEnumerator
  | some getEnumerator =>
    obtain ⟨source, known, -⟩ := complete.toWellFormed.getEnumerator?_eq_some gives
    rw [enumerableOf_eq gives known] at isGetEnumerator isEnumerator isCurrent isMoveNext
    have sameEnumerator : source.valueType = members.enumeratorType := Option.some.inj isEnumerator
    exact ⟨isGetEnumerator, sameEnumerator ▸ complete.valueType_has known,
      sameEnumerator ▸ isCurrent, sameEnumerator ▸ isMoveNext⟩

end Members

/-- What is added by the parts of a loop: before its body, for each item that the body reads, and
after its body. -/
structure LoopAccesses (registry : Registry) (policy : Policy) (node : NodeId) (type : TypeId)
    (arena : Arena) (members : LoopMembers) : Prop where
  /-- What comes before the body is well typed exactly if values of the enumerable's type can serve
  as values of the type that declares what gives the enumerator. -/
  start : ∃ source, registry.member? members.getEnumerator = some source ∧
    ∀ opened started, openLoop registry policy node arena = .ok (.ok opened, started) →
      (registry.AddsTyped started arena ↔ ¬ registry.Misfit type source.owner)
  /-- A read of the current item is well typed exactly if values of the enumerator's type can serve
  as values of the type that declares what reads it. -/
  item : ∃ source, registry.member? members.current = some source ∧
    ∀ opened started later item after,
      openLoop registry policy node arena = .ok (.ok opened, started) → later.Extends started →
      currentItem registry opened.binding later = .ok (item, after) →
        (registry.AddsTyped after later ↔ ¬ registry.Misfit members.enumeratorType source.owner)
  /-- What comes after the body is well typed exactly if values of the enumerator's type can serve
  as values of the type that declares what goes on to the next item. -/
  close : ∃ source, registry.member? members.moveNext = some source ∧
    ∀ opened started plan step filled block after,
      openLoop registry policy node arena = .ok (.ok opened, started) → filled.Extends started →
      closeLoop registry opened plan step filled = .ok (.ok block, after) →
        (registry.AddsTyped after filled ↔ ¬ registry.Misfit members.enumeratorType source.owner)

/-- Whatever the lowering of a loop adds before and after its body is well typed. -/
def LowersTyped (registry : Registry) : Prop :=
  ∀ {policy node type arena plan body block after opened started step filled},
    arena.typeOf node = .ok type → registry.Has type → (∀ binding, OnlyAdds (body binding)) →
    foreachLoop registry policy node plan body arena = .ok (.ok block, after) →
    openLoop registry policy node arena = .ok (.ok opened, started) →
    body opened.binding started = .ok (step, filled) →
      registry.AddsTyped started arena ∧ registry.AddsTyped after filled

/-- In every registry that is built, whatever may be edited: which of the accesses that lowering
adds to a tree are well typed. For a loop these are the accesses to members that are declared by a
type that their receiver can serve as; what disposes of the enumerator, and all that the use of a
resource adds, is well typed always. -/
theorem Built.accesses {mayEdit : TypeEntry → Prop} {registry : Registry}
    (built : Built mayEdit registry) {arena : Arena} {node : NodeId} {type : TypeId}
    (typed : arena.typeOf node = .ok type) (has : registry.Has type) (policy : Policy) :
    (∀ members, registry.resolveLoop policy type = .ok (.ok members) →
      registry.LoopAccesses policy node type arena members) ∧
    ∀ body result after, useResource registry node body arena = .ok (result, after) →
      registry.AddsTyped after arena := by
  have complete := built.complete
  refine ⟨fun members resolved => ?_, fun body result after =>
    useResource_typed complete has typed⟩
  obtain ⟨gives, enumeratorHas, reads, goesOn⟩ := complete.resolveLoop_found has resolved
  have opensWith {opened : OpenLoop} {started : Arena}
      (opens : openLoop registry policy node arena = .ok (.ok opened, started)) :
      startLoop registry node members arena = .ok (opened, started) := by
    obtain ⟨_, _, typed', resolved', start⟩ := openLoop_eq_ok.mp opens
    cases typed.symm.trans typed'
    cases resolved.symm.trans resolved'
    exact start
  have holds {opened : OpenLoop} {started later : Arena}
      (opens : openLoop registry policy node arena = .ok (.ok opened, started))
      (grown : later.Extends started) :
      later.typeOf opened.binding.enumerator = .ok members.enumeratorType :=
    grown.typeOf (startLoop_typeOf (opensWith opens))
  constructor
  case start =>
    obtain ⟨source, known, receives⟩ := complete.receives_of_search has (fun _ => id)
      (fun _ isUsed => (enumerableContract?_eq_some isUsed).1) gives
    refine ⟨source, known, fun opened started opens => ?_⟩
    rw [startLoop_typed_iff typed (opensWith opens), receives]
  case item =>
    obtain ⟨source, known, receives⟩ := complete.receives_of_search enumeratorHas (fun _ => id)
      (fun _ isUsed => (enumeratorContract?_eq_some isUsed).1) reads
    refine ⟨source, known, fun opened started later item after opens grown read => ?_⟩
    have isCurrent := (startLoop_binding (opensWith opens)).1
    rw [property_typed_iff (holds opens grown) read, isCurrent, receives]
  case close =>
    obtain ⟨source, known, receives⟩ := complete.receives_of_search enumeratorHas
      (fun _ isOwn => (Option.filter_eq_some_iff.mp isOwn).1)
      (fun _ isUsed => (plainContract?_eq_some.mp isUsed).2) goesOn
    refine ⟨source, known, fun opened started plan step filled block after opens grown closed => ?_⟩
    obtain ⟨-, sameMembers, -⟩ := startLoop_adds (opensWith opens)
    obtain ⟨strategy, isStrategy, classified⟩ := resolveLoop_classifies resolved
    rw [← isStrategy, ← sameMembers] at classified
    rw [closeLoop_typed_iff complete (sameMembers ▸ enumeratorHas)
      (sameMembers ▸ holds opens grown) classified closed, sameMembers, receives]

/-- An enumerator whose values live on the stack alone. It has a disposal of its own, but nothing
else that a loop uses: that it has of the enumerator contract. -/
def cursorType : Registry :=
  initial
    |>.after (Registration.declare { name := "Cursor", sort := .byRefLike })
    |>.after (Registration.addDeclaredMember 1 ⟨14⟩ (.method "Dispose" .void))
    |>.after (Registration.addInterface 1 ⟨14⟩ .enumerator)

/-- A class that gives such an enumerator. -/
def cursorTypes : Registry :=
  cursorType
    |>.after (Registration.declare { name := "Items", sort := .classType })
    |>.after (Registration.addDeclaredMember 1 ⟨15⟩ (.method "GetEnumerator" ⟨14⟩))

/-- The enumerator and the class are registered without a stop. -/
theorem cursorTypes_built : Built TypeEntry.IsOriginal cursorTypes := by
  have start : Built TypeEntry.IsOriginal .initial := .initial
  have declared := start.declare { name := "Cursor", sort := .byRefLike } rfl
  have disposable := declared.addMember ⟨14⟩ (.method "Dispose" .void)
    (by decide) (by decide) (by decide)
  have enumerator : Built TypeEntry.IsOriginal cursorType :=
    disposable.addInterface ⟨14⟩ .enumerator (by decide)
  have items := enumerator.declare { name := "Items", sort := .classType } rfl
  exact items.addMember ⟨15⟩ (.method "GetEnumerator" ⟨14⟩) (by decide) (by decide) (by decide)

/-- A tree of a parameter that holds items. -/
def itemsArena : Arena := ⟨#[⟨.parameter "items", ⟨15⟩⟩], #[], 0⟩

/-- What a loop over the items uses: the enumerator goes on to the next item through its
contract. -/
def cursorMembers : LoopMembers :=
  { getEnumerator := ⟨9⟩, enumeratorType := ⟨14⟩, current := ⟨1⟩, moveNext := ⟨2⟩,
    disposal := some (.byRefLike ⟨8⟩) }

/-- A loop over the items is possible. -/
theorem cursorTypes_resolveLoop : cursorTypes.resolveLoop {} ⟨15⟩ = .ok (.ok cursorMembers) := by
  decide +kernel

/-- The enumerator has the enumerator contract, but cannot serve as a value of it, since it lives on
the stack alone. -/
theorem cursorTypes_misfit : cursorTypes.Misfit ⟨14⟩ .enumerator := by
  refine ⟨by decide, .inl ⟨by decide, .inl (by decide)⟩⟩

/-- A loop over the items is lowered, although it calls a member of a contract on an enumerator that
lives on the stack alone. -/
theorem cursorTypes_not_lowersTyped :
    Built TypeEntry.IsOriginal cursorTypes ∧ ¬ cursorTypes.LowersTyped := by
  refine ⟨cursorTypes_built, fun lowers => ?_⟩
  have complete := cursorTypes_built.complete
  have typed : itemsArena.typeOf ⟨0⟩ = .ok ⟨15⟩ := rfl
  have has : cursorTypes.Has ⟨15⟩ := by decide
  have enumeratorHas : cursorTypes.Has ⟨14⟩ := by decide
  have usable := complete.usable_of_resolveLoop has {} cursorTypes_resolveLoop
  have fits : LoopPlan.Fits {} itemsArena :=
    ⟨fun _ isLocal => (nomatch isLocal), fun _ isResult => (nomatch isResult), by decide, by decide⟩
  have builds : BuildsBody cursorTypes {} ⟨0⟩ itemsArena (fun _ => return ⟨0⟩) :=
    fun _ started _ => ⟨⟨0⟩, started, rfl, .refl started⟩
  have adds : ∀ binding : LoopBinding, OnlyAdds (return (⟨0⟩ : NodeId)) := by
    intro _ before result after ended
    obtain ⟨-, rfl⟩ := Work.pure_eq_ok.mp ended
    exact .refl _
  obtain ⟨block, after, lowered⟩ :=
    foreachLoop_completes typed cursorTypes_resolveLoop usable fits builds
  obtain ⟨opened, started, step, filled, opens, stepBuilt, closed⟩ := foreachLoop_eq_ok.mp lowered
  obtain ⟨_, _, typed', resolved, start⟩ := openLoop_eq_ok.mp opens
  cases typed.symm.trans typed'
  cases resolved.symm.trans cursorTypes_resolveLoop
  obtain ⟨-, stays⟩ := Work.pure_eq_ok.mp (id stepBuilt)
  have sameMembers := (startLoop_adds start).2.1
  have enumeratorTyped := startLoop_typeOf start
  rw [stays] at enumeratorTyped
  have classified : cursorTypes.classifyDisposal ⟨14⟩ = .ok opened.members.disposal := by
    rw [sameMembers]
    decide +kernel
  obtain ⟨source, known, serves⟩ :=
    (closeLoop_typed_iff complete enumeratorHas enumeratorTyped classified closed).mp
      (lowers typed has adds lowered opens stepBuilt).2
  rw [sameMembers] at known
  obtain ⟨owned, ownerKnown⟩ : ∃ owned ∈ cursorTypes.member? ⟨2⟩, owned.owner = .enumerator := by
    decide
  cases known.symm.trans ownerKnown.1
  rw [ownerKnown.2] at serves
  have refused : cursorTypes.isAssignableTo ⟨14⟩ .enumerator = .ok false := by decide +kernel
  cases serves.symm.trans refused

/-- In a loop over the items the call of `GetEnumerator` is well typed, and that of `MoveNext` is
not. A use of the items would be refused, and adds nothing that is not well typed. -/
theorem cursorTypes_accesses :
    (∀ opened started, openLoop cursorTypes {} ⟨0⟩ itemsArena = .ok (.ok opened, started) →
      cursorTypes.AddsTyped started itemsArena ∧
        ∀ plan step filled block after, filled.Extends started →
          closeLoop cursorTypes opened plan step filled = .ok (.ok block, after) →
            ¬ cursorTypes.AddsTyped after filled) ∧
    ∀ body result after, useResource cursorTypes ⟨0⟩ body itemsArena = .ok (result, after) →
      cursorTypes.AddsTyped after itemsArena := by
  have typed : itemsArena.typeOf ⟨0⟩ = .ok ⟨15⟩ := rfl
  obtain ⟨loops, uses⟩ := cursorTypes_built.accesses typed (by decide) {}
  obtain ⟨⟨gives, givesKnown, starts⟩, -, goesOn, goesOnKnown, closes⟩ :=
    loops _ cursorTypes_resolveLoop
  obtain ⟨gives', givesKnown', givesOwner⟩ : ∃ source ∈ cursorTypes.member? ⟨9⟩,
      source.owner = ⟨15⟩ := by
    decide
  obtain ⟨goesOn', goesOnKnown', goesOnOwner⟩ : ∃ source ∈ cursorTypes.member? ⟨2⟩,
      source.owner = .enumerator := by
    decide
  cases givesKnown.symm.trans givesKnown'
  cases goesOnKnown.symm.trans goesOnKnown'
  refine ⟨fun opened started opens =>
    ⟨?_, fun plan step filled block after grown closed adds => ?_⟩,
    uses⟩
  · rw [starts opened started opens, givesOwner]
    exact fun misfit => misfit.1 rfl
  · refine (closes opened started plan step filled block after opens grown closed).mp adds ?_
    rw [goesOnOwner]
    exact cursorTypes_misfit

end Registry

end Foreach
