import Foreach.Proofs.Lowering.Refusal
import Foreach.Proofs.Tree.Drafts

/-!
# What lowering assembles

Loops, disposals, and loops over items are put together with the constructors of nodes. Whatever is
lowered over a registry fills the arena node by node, each node made by a constructor from nodes
that are there and from types that are registered (`Arena.Fills`). A loop over items fills the arena
before its body and behind it, and the body may add nodes itself in between. So an assembled arena
is still assembled when any of them has been added or refused (`whileLoop_assembled`,
`useResource_assembled`, `foreachLoop_assembled`).
-/
namespace Foreach

open Construction

/-- The nodes that a plan mentions. -/
def LoopPlan.nodes (plan : LoopPlan) : List NodeId :=
  plan.locals ++ plan.preamble ++ plan.result.toList

/-- The type that a draft mentions. -/
def Draft.type? : Draft → Option TypeId
  | parameter _ type | var _ type | null type | convert _ type => some type
  | _ => none

namespace Arena

/-- Constructors over a registry and new labels lead from one arena to another, each constructor
used on nodes that are there and, if the arena is formed, on a type that is registered. -/
inductive Fills (registry : Registry) (first : Arena) : Arena → Prop where
  /-- Nothing is added. -/
  | none : Fills registry first first
  /-- A node is added. -/
  | node {before after : Arena} {id : NodeId} {draft : Draft}
    (earlier : Fills registry first before) (parts : ∀ part ∈ draft.parts, before.Has part)
    (typed : registry.Complete → before.Formed registry →
      ∀ type ∈ draft.type?, registry.Has type)
    (built : draft.build registry before = .ok (id, after)) : Fills registry first after
  /-- A label is made. -/
  | label {before : Arena} (earlier : Fills registry first before) :
    Fills registry first before.freshLabel.1

section Filling

variable {registry : Registry} {first before middle after last : Arena} {id : NodeId}
  {draft : Draft}

/-- What is filled further is filled. -/
theorem Fills.trans (earlier : Fills registry first middle) (later : Fills registry middle last) :
    Fills registry first last := by
  induction later with
  | none => exact earlier
  | node _ parts typed built ih => exact .node ih parts typed built
  | label _ ih => exact .label ih

/-- What was there stays. -/
theorem Fills.grown (fills : Fills registry first last) : last.Extends first := by
  induction fills with
  | none => exact .refl first
  | node _ _ _ built ih => exact (Draft.build_adds built).grown.trans ih
  | label _ ih => exact (freshLabel_extends _).trans ih

/-- A node that was added is there. -/
theorem Adds.has (adds : before.Adds after id draft) : after.Has id := by
  rw [Has, adds.place, adds.alone]
  exact Nat.lt_succ_self before.size

/-- A constructor that mentions a type fills an arena further, and its node is there. -/
theorem fills_of_typed (registry : Registry) (draft : Draft) {type : TypeId}
    (isType : draft.type? = some type)
    (typeHas : registry.Complete → before.Formed registry → registry.Has type)
    (parts : ∀ part ∈ draft.parts, before.Has part)
    (built : draft.build registry before = .ok (id, after)) :
    Fills registry before after ∧ after.Has id := by
  refine ⟨.node .none parts (fun complete formed other isOther => ?_) built,
    (Draft.build_adds built).has⟩
  cases isType.symm.trans isOther
  exact typeHas complete formed

/-- A constructor that mentions no type fills an arena further, and its node is there. -/
theorem fills_of_untyped (registry : Registry) (draft : Draft) (untyped : draft.type? = .none)
    (parts : ∀ part ∈ draft.parts, before.Has part)
    (built : draft.build registry before = .ok (id, after)) :
    Fills registry before after ∧ after.Has id := by
  refine ⟨.node .none parts (fun _ _ type isType => ?_) built, (Draft.build_adds built).has⟩
  cases untyped.symm.trans isType

end Filling

end Arena

open Arena

/-- A constructor is used on what an arena and a registry have if its draft mentions nothing
else. -/
theorem Draft.step {registry : Registry} {arena : Arena} {draft : Draft}
    (parts : ∀ part ∈ draft.parts, arena.Has part)
    (typed : ∀ type ∈ draft.type?, registry.Has type) :
    Construction.Step registry arena (draft.build registry) := by
  cases draft with
  | parameter name type => exact .parameter name (typed type rfl)
  | var name type => exact .var name (typed type rfl)
  | int value => exact .int value
  | bool value => exact .bool value
  | null type => exact .null (typed type rfl)
  | assign target value => exact .assign (parts value (by simp [Draft.parts]))
  | addAssign target value => exact .addAssign (parts value (by simp [Draft.parts]))
  | call receiver method arguments =>
    exact .call (parts receiver (by simp [Draft.parts])) fun argument isListed =>
      parts argument (List.mem_cons_of_mem receiver isListed)
  | property receiver member => exact .property (parts receiver (by simp [Draft.parts]))
  | convert operand type =>
    exact .convert (parts operand (by simp [Draft.parts])) (typed type rfl)
  | notEqual left right =>
    exact .notEqual (parts left (by simp [Draft.parts])) (parts right (by simp [Draft.parts]))
  | block locals statements =>
    exact .block fun statement isListed => parts statement (List.mem_append_right locals isListed)
  | ifThen condition consequence =>
    exact .ifThen (parts condition (by simp [Draft.parts]))
      (parts consequence (by simp [Draft.parts]))
  | ifThenElse condition consequence alternative =>
    exact .ifThenElse (parts condition (by simp [Draft.parts]))
      (parts consequence (by simp [Draft.parts])) (parts alternative (by simp [Draft.parts]))
  | loop body exit => exact .loop exit (parts body (by simp [Draft.parts]))
  | breakTo label => exact .breakTo label
  | tryFinally body cleanup => exact .tryFinally (parts cleanup (by simp [Draft.parts]))
  | lambda parameters body => exact .lambda

/-- An assembled arena that is filled further is assembled. -/
theorem Arena.Fills.assembled {registry : Registry} {first last : Arena}
    (complete : registry.Complete) (fills : Fills registry first last)
    (assembled : first.Assembled registry) : last.Assembled registry := by
  induction fills with
  | none => exact assembled
  | node _ parts typed built ih =>
    exact .node ih (Draft.step parts (typed complete (ih.formed complete))) built
  | label _ ih => exact .label ih

namespace Construction

variable {registry : Registry} {before after : Arena} {id : NodeId}

/-- A loop under a condition fills an arena. -/
theorem whileLoop_fills (registry : Registry) {condition body : NodeId}
    (conditionHas : before.Has condition) (bodyHas : before.Has body)
    (ran : whileLoop condition body before = .ok (id, after)) :
    Fills registry before after ∧ after.Has id := by
  obtain ⟨-, exit, branch, _, _, pushedExit, pushedBranch, pushedLoop⟩ := whileLoop_eq_ok.mp ran
  have labels : Fills registry before before.freshLabel.1 := .label .none
  obtain ⟨leaving, exitHas⟩ :=
    fills_of_untyped registry (.breakTo _) rfl nofun pushedExit
  have started := labels.trans leaving
  obtain ⟨branching, branchHas⟩ :=
    fills_of_untyped registry (.ifThenElse condition body exit) rfl
      (by simp [Draft.parts, started.grown.has conditionHas, started.grown.has bodyHas, exitHas])
      pushedBranch
  obtain ⟨looping, loopHas⟩ :=
    fills_of_untyped registry (.loop branch _) rfl (by simp [Draft.parts, branchHas]) pushedLoop
  exact ⟨(started.trans branching).trans looping, loopHas⟩

/-- A call without arguments fills an arena. -/
theorem call_fills {receiver : NodeId} {method : MemberId} (receiverHas : before.Has receiver)
    (ran : call registry receiver method [] before = .ok (id, after)) :
    Fills registry before after ∧ after.Has id :=
  fills_of_untyped registry (.call receiver method []) rfl (by simp [Draft.parts, receiverHas]) ran

section Disposal

variable {resource : NodeId} (resourceHas : before.Has resource)
include resourceHas

/-- A disposal through the contract fills an arena. -/
theorem disposeThroughContract_fills
    (ran : disposeThroughContract registry resource before = .ok (id, after)) :
    Fills registry before after ∧ after.Has id := by
  obtain ⟨method, receiver, _, -, converted, called⟩ := disposeThroughContract_eq_ok.mp ran
  obtain ⟨converting, receiverHas⟩ := fills_of_typed registry (.convert resource .disposable) rfl
    (fun complete _ => complete.keeps.has (by decide)) (by simp [Draft.parts, resourceHas])
    converted
  obtain ⟨calling, callHas⟩ := call_fills receiverHas called
  exact ⟨converting.trans calling, callHas⟩

/-- A disposal fills an arena. -/
theorem disposeBy_fills {strategy : DisposalStrategy}
    (ran : disposeBy registry resource strategy before = .ok (id, after)) :
    Fills registry before after ∧ after.Has id := by
  cases strategy with
  | valueType => exact disposeThroughContract_fills resourceHas ran
  | byRefLike method => exact call_fills resourceHas ran
  | referenceType =>
    obtain ⟨type, missing, _, present, _, call, _, typed, pushedNull, pushedTest, called, pushed⟩ :=
      disposeReference_eq_ok.mp ran
    obtain ⟨lacking, missingHas⟩ := fills_of_typed registry (.null type) rfl
      (fun _ formed => Formed.typeOf_has formed typed) nofun pushedNull
    obtain ⟨testing, presentHas⟩ := fills_of_untyped registry (.notEqual resource missing) rfl
      (by simp [Draft.parts, lacking.grown.has resourceHas, missingHas]) pushedTest
    have tested := lacking.trans testing
    obtain ⟨calling, callHas⟩ :=
      disposeThroughContract_fills (tested.grown.has resourceHas) called
    obtain ⟨guarding, guardHas⟩ := fills_of_untyped registry (.ifThen present call) rfl
      (by simp [Draft.parts, calling.grown.has presentHas, callHas]) pushed
    exact ⟨(tested.trans calling).trans guarding, guardHas⟩

/-- Whether a resource is used or refused, that fills an arena. -/
theorem useResource_fills {body : NodeId} {result : Except LoweringError NodeId}
    (bodyHas : before.Has body)
    (ran : useResource registry resource body before = .ok (result, after)) :
    Fills registry before after := by
  cases result with
  | error error =>
    obtain ⟨-, _, _, -, -, -, -, rfl⟩ := useResource_eq_error.mp ran
    exact .none
  | ok id =>
    obtain ⟨-, _, _, disposal, _, -, -, disposed, guarded⟩ := useResource_eq_ok.mp ran
    obtain ⟨disposing, disposalHas⟩ := disposeBy_fills resourceHas disposed
    exact disposing.trans (fills_of_untyped registry (.tryFinally body disposal) rfl
      (by simp [Draft.parts, disposing.grown.has bodyHas, disposalHas]) guarded).1

end Disposal

section Items

variable {opened : OpenLoop}

/-- What comes before the body of a loop over items fills an arena. -/
theorem startLoop_fills {enumerable : NodeId} {members : LoopMembers}
    (typed : registry.Complete → before.Formed registry → registry.Has members.enumeratorType)
    (enumerableHas : before.Has enumerable)
    (ran : startLoop registry enumerable members before = .ok (opened, after)) :
    Fills registry before after ∧ after.Has opened.binding.enumerator ∧
      after.Has opened.start := by
  obtain ⟨rfl, -, -, _, acquired, _, pushedVariable, called, assigned⟩ := startLoop_eq_ok.mp ran
  obtain ⟨declaring, variableHas⟩ := fills_of_typed registry
    (.var "enumerator" opened.members.enumeratorType) rfl typed nofun pushedVariable
  obtain ⟨calling, acquiredHas⟩ := call_fills (declaring.grown.has enumerableHas) called
  have variableStays := calling.grown.has variableHas
  obtain ⟨assigning, startHas⟩ :=
    fills_of_untyped registry (.assign opened.binding.enumerator acquired) rfl
      (by simp [Draft.parts, variableStays, acquiredHas]) assigned
  exact ⟨(declaring.trans calling).trans assigning, assigning.grown.has variableStays, startHas⟩

/-- Opening a loop over items fills an arena. -/
theorem openLoop_fills {policy : Policy} {enumerable : NodeId}
    (enumerableHas : before.Has enumerable)
    (ran : openLoop registry policy enumerable before = .ok (.ok opened, after)) :
    Fills registry before after ∧ after.Has opened.binding.enumerator ∧
      after.Has opened.start := by
  obtain ⟨type, members, typed, resolved, starts⟩ := openLoop_eq_ok.mp ran
  refine startLoop_fills (fun complete formed => ?_) enumerableHas starts
  have typeHas := Formed.typeOf_has formed typed
  obtain ⟨source, known, kind⟩ :=
    (complete.usable_of_resolveLoop typeHas policy resolved).getEnumerator
  have enumeratorType : source.valueType = members.enumeratorType := by
    rw [MemberEntry.valueType, kind]
  exact enumeratorType ▸ complete.valueType_has known

/-- What is left of a loop over items that is refused when it is closed fills an arena. -/
theorem closeLoop_fills_of_error {plan : LoopPlan} {step : NodeId} {error : LoweringError}
    (enumeratorHas : before.Has opened.binding.enumerator) (stepHas : before.Has step)
    (ran : closeLoop registry opened plan step before = .ok (.error error, after)) :
    Fills registry before after := by
  obtain ⟨hasNext, _, _, _, called, repeated, -⟩ := closeLoop_eq_error.mp ran
  obtain ⟨calling, hasNextHas⟩ := call_fills enumeratorHas called
  exact calling.trans
    (whileLoop_fills registry hasNextHas (calling.grown.has stepHas) repeated).1

/-- What comes after the body of a loop over items fills an arena. -/
theorem closeLoop_fills {plan : LoopPlan} {step : NodeId}
    (enumeratorHas : before.Has opened.binding.enumerator) (startHas : before.Has opened.start)
    (planHas : ∀ node ∈ plan.nodes, before.Has node) (stepHas : before.Has step)
    (ran : closeLoop registry opened plan step before = .ok (.ok id, after)) :
    Fills registry before after ∧ after.Has id := by
  obtain ⟨hasNext, _, looped, _, _, disposal, _, guarded, last, called, repeated, -, disposed,
    protectedLoop, blocked⟩ := closeLoop_eq_ok.mp ran
  obtain ⟨calling, hasNextHas⟩ := call_fills enumeratorHas called
  obtain ⟨looping, loopHas⟩ :=
    whileLoop_fills registry hasNextHas (calling.grown.has stepHas) repeated
  have repeating := calling.trans looping
  obtain ⟨disposing, disposalHas⟩ := disposeBy_fills (repeating.grown.has enumeratorHas) disposed
  obtain ⟨guarding, guardHas⟩ :=
    fills_of_untyped registry (.tryFinally looped disposal) rfl
      (by simp [Draft.parts, disposing.grown.has loopHas, disposalHas]) protectedLoop
  have whole := (repeating.trans disposing).trans guarding
  have parts : ∀ part ∈ (opened.binding.enumerator :: plan.locals) ++
      (opened.start :: plan.preamble ++ guarded :: plan.result.toList), last.Has part := by
    have given : ∀ node ∈ plan.nodes, last.Has node := fun node isListed =>
      whole.grown.has (planHas node isListed)
    intro part isPart
    simp only [LoopPlan.nodes, List.mem_append] at given
    simp only [List.mem_append, List.mem_cons] at isPart
    obtain (rfl | isLocal) | (rfl | inPreamble) | rfl | isResult := isPart
    · exact whole.grown.has enumeratorHas
    · exact given part (.inl (.inl isLocal))
    · exact whole.grown.has startHas
    · exact given part (.inl (.inr inPreamble))
    · exact guardHas
    · exact given part (.inr isResult)
  obtain ⟨blocking, blockHas⟩ :=
    fills_of_untyped registry (.block _ _) rfl parts blocked
  exact ⟨whole.trans blocking, blockHas⟩

end Items

section Assembled

variable (complete : registry.Complete) (assembled : before.Assembled registry)
include complete assembled

/-- An arena is still assembled when a loop under a condition has been added. -/
theorem whileLoop_assembled {condition body : NodeId} (conditionHas : before.Has condition)
    (bodyHas : before.Has body) (ran : whileLoop condition body before = .ok (id, after)) :
    after.Assembled registry :=
  (whileLoop_fills registry conditionHas bodyHas ran).1.assembled complete assembled

/-- An arena is still assembled when a resource has been used, and when it has been refused. -/
theorem useResource_assembled {resource body : NodeId} {result : Except LoweringError NodeId}
    (resourceHas : before.Has resource) (bodyHas : before.Has body)
    (ran : useResource registry resource body before = .ok (result, after)) :
    after.Assembled registry :=
  (useResource_fills resourceHas bodyHas ran).assembled complete assembled

/-- An arena is still assembled when a loop over items has been added, and when it has been refused,
if what builds the body keeps it assembled. -/
theorem foreachLoop_assembled {policy : Policy} {enumerable : NodeId} {plan : LoopPlan}
    {body : LoopBinding → Construction NodeId} {result : Except LoweringError NodeId}
    (enumerableHas : before.Has enumerable) (planHas : ∀ node ∈ plan.nodes, before.Has node)
    (builds : ∀ binding started step filled, started.Assembled registry →
      started.Has binding.enumerator → body binding started = .ok (step, filled) →
      filled.Assembled registry ∧ filled.Extends started ∧ filled.Has step)
    (ran : foreachLoop registry policy enumerable plan body before = .ok (result, after)) :
    after.Assembled registry := by
  cases result with
  | error error =>
    obtain ⟨_, -, -, rfl⟩ := foreachLoop_eq_error.mp ran
    exact assembled
  | ok block =>
    obtain ⟨opened, started, step, filled, opens, built, closes⟩ := foreachLoop_eq_ok.mp ran
    obtain ⟨opening, enumeratorHas, startHas⟩ := openLoop_fills enumerableHas opens
    obtain ⟨stillAssembled, grown, stepHas⟩ :=
      builds _ _ _ _ (opening.assembled complete assembled) enumeratorHas built
    have whole := grown.trans opening.grown
    obtain ⟨closing, -⟩ := closeLoop_fills (grown.has enumeratorHas) (grown.has startHas)
      (fun node isListed => whole.has (planHas node isListed)) stepHas closes
    exact closing.assembled complete stillAssembled

end Assembled

end Construction

end Foreach
