import Foreach.Proofs.Lowering.Constructors
import Foreach.Proofs.Tree.Growth

/-!
# The tree of a loop over the items of an enumerable

A loop is known by its parts (`ForeachLoop`), and so is the tree that it becomes: `LoopNodes.Form`
says of each node of the block what it is. `foreachLoop_adds` is the description of the
construction. What it says stays true of every arena that extends the one it ends with.
-/
namespace Foreach

/-- The method that a strategy calls. -/
def DisposalStrategy.method (registry : Registry) : DisposalStrategy → Checked MemberId
  | valueType | referenceType => registry.disposeMethod
  | byRefLike dispose => .ok dispose

/-- A loop over the items of an enumerable, by its parts. -/
structure ForeachLoop where
  /-- What gives the enumerable. -/
  enumerable : NodeId
  /-- The variable that holds the enumerator. -/
  enumerator : NodeId
  /-- What the loop uses. -/
  members : LoopMembers
  /-- How the enumerator is disposed of. -/
  strategy : DisposalStrategy
  /-- The method that disposes of the enumerator. -/
  dispose : MemberId
  /-- What surrounds the loop. -/
  plan : LoopPlan
  /-- What runs for each item. -/
  body : NodeId
  /-- The label that the loop is left with. -/
  exit : Label

/-- A loop is what became of an enumerable, a plan and a way to build a body, from one arena to
another. -/
structure ForeachLoop.BuiltFrom (loop : ForeachLoop) (registry : Registry) (policy : Policy)
    (body : LoopBinding → Construction NodeId) (arena built : Arena) : Prop where
  /-- The members are those that make the enumerable's type one. -/
  resolved : ∃ type, arena.typeOf loop.enumerable = .ok type ∧
    registry.resolveLoop policy type = .ok (.ok loop.members)
  /-- The strategy is that of the enumerator's type. -/
  classified : registry.classifyDisposal loop.members.enumeratorType = .ok (some loop.strategy)
  /-- The method is the one of the strategy. -/
  disposes : loop.strategy.method registry = .ok loop.dispose
  /-- The variable is a new node. -/
  enumerator : loop.enumerator = ⟨arena.size⟩
  /-- The body was built with the variable at hand, and before the label was made. -/
  body : ∃ opened started filled,
    Construction.startLoop registry loop.enumerable loop.members arena = .ok (opened, started) ∧
    opened.binding.enumerator = loop.enumerator ∧
    body opened.binding started = .ok (loop.body, filled) ∧ built.Extends filled ∧
    filled.labels ≤ loop.exit.number

/-- The nodes of a lowered loop. -/
structure LoopNodes where
  /-- The statement that gets the enumerator. -/
  start : NodeId
  /-- The call that it gets the enumerator with. -/
  acquired : NodeId
  /-- The loop with its disposal. -/
  guarded : NodeId
  /-- The loop. -/
  looped : NodeId
  /-- What the loop does again and again. -/
  step : NodeId
  /-- The question whether there is a next item. -/
  hasNext : NodeId
  /-- The end of the loop. -/
  leave : NodeId
  /-- The disposal. -/
  disposal : NodeId

namespace Arena

/-- A node disposes of a resource by a strategy that calls a method. -/
def IsDisposal (arena : Arena) (id resource : NodeId) (method : MemberId) :
    DisposalStrategy → Prop
  | .valueType => ∃ receiver, arena.kind receiver = .ok (.convert resource) ∧
      arena.IsCall id receiver method []
  | .referenceType => ∃ present missing call receiver,
      arena.kind id = .ok (.ifThen present call) ∧
      arena.kind present = .ok (.notEqual resource missing) ∧
      arena.kind missing = .ok .null ∧
      arena.kind receiver = .ok (.convert resource) ∧
      arena.IsCall call receiver method []
  | .byRefLike _ => arena.IsCall id resource method []

/-- A disposal stays a disposal. -/
theorem IsDisposal.extend {later earlier : Arena} {id resource : NodeId} {method : MemberId}
    {strategy : DisposalStrategy} (disposes : earlier.IsDisposal id resource method strategy)
    (grown : later.Extends earlier) : later.IsDisposal id resource method strategy := by
  cases strategy with
  | valueType =>
    obtain ⟨receiver, converted, called⟩ := disposes
    exact ⟨receiver, grown.kind converted, called.extend grown⟩
  | referenceType =>
    obtain ⟨present, missing, call, receiver, guarded, compared, null, converted, called⟩ :=
      disposes
    exact ⟨present, missing, call, receiver, grown.kind guarded, grown.kind compared,
      grown.kind null, grown.kind converted, called.extend grown⟩
  | byRefLike => exact IsCall.extend disposes grown

end Arena

/-- The nodes of a lowered loop are what makes it one. -/
structure LoopNodes.Form (nodes : LoopNodes) (arena : Arena) (block : NodeId)
    (loop : ForeachLoop) : Prop where
  /-- The whole. -/
  block : arena.IsBlock block (loop.enumerator :: loop.plan.locals)
    (nodes.start :: loop.plan.preamble ++ nodes.guarded :: loop.plan.result.toList)
  /-- The variable. -/
  enumerator : arena.kind loop.enumerator = .ok (.var "enumerator")
  /-- Getting the enumerator. -/
  start : arena.kind nodes.start = .ok (.assign loop.enumerator nodes.acquired)
  /-- The call of `GetEnumerator`. -/
  acquired : arena.IsCall nodes.acquired loop.enumerable loop.members.getEnumerator []
  /-- The loop with its disposal. -/
  guarded : arena.kind nodes.guarded = .ok (.tryFinally nodes.looped nodes.disposal)
  /-- The loop. -/
  looped : arena.kind nodes.looped = .ok (.loop nodes.step loop.exit)
  /-- A step of the loop. -/
  step : arena.kind nodes.step = .ok (.ifThenElse nodes.hasNext loop.body nodes.leave)
  /-- The call of `MoveNext`. -/
  hasNext : arena.IsCall nodes.hasNext loop.enumerator loop.members.moveNext []
  /-- The end of the loop. -/
  leave : arena.kind nodes.leave = .ok (.breakTo loop.exit)
  /-- The disposal. -/
  disposal : arena.IsDisposal nodes.disposal loop.enumerator loop.dispose loop.strategy

/-- The nodes of a lowered loop stay what they are. -/
theorem LoopNodes.Form.extend {nodes : LoopNodes} {later earlier : Arena} {block : NodeId}
    {loop : ForeachLoop} (form : nodes.Form earlier block loop) (grown : later.Extends earlier) :
    nodes.Form later block loop where
  block := form.block.extend grown
  enumerator := grown.kind form.enumerator
  start := grown.kind form.start
  acquired := form.acquired.extend grown
  guarded := grown.kind form.guarded
  looped := grown.kind form.looped
  step := grown.kind form.step
  hasNext := form.hasNext.extend grown
  leave := grown.kind form.leave
  disposal := form.disposal.extend grown

namespace Construction

variable {before after : Arena} {registry : Registry}

/-- A disposal through the contract is added. -/
theorem disposeThroughContract_adds {resource id : NodeId}
    (built : disposeThroughContract registry resource before = .ok (id, after)) :
    after.Extends before ∧ ∃ method receiver, registry.disposeMethod = .ok method ∧
      after.kind receiver = .ok (.convert resource) ∧ after.IsCall id receiver method [] := by
  obtain ⟨method, receiver, _, found, converted, called⟩ := disposeThroughContract_eq_ok.mp built
  obtain ⟨receiverGrown, known⟩ := push_adds converted
  obtain ⟨grown, isCall⟩ := call_adds called
  exact ⟨grown.trans receiverGrown, method, receiver, found, grown.kind known, isCall⟩

/-- A disposal by a strategy is added. -/
theorem disposeBy_adds {resource id : NodeId} {strategy : DisposalStrategy}
    (built : disposeBy registry resource strategy before = .ok (id, after)) :
    after.Extends before ∧ ∃ method, strategy.method registry = .ok method ∧
      after.IsDisposal id resource method strategy := by
  cases strategy with
  | valueType =>
    obtain ⟨grown, method, receiver, found, known, isCall⟩ := disposeThroughContract_adds built
    exact ⟨grown, method, found, receiver, known, isCall⟩
  | referenceType =>
    obtain ⟨_, missing, _, present, _, call, _, -, pushedNull, pushedTest, called, pushed⟩ :=
      disposeReference_eq_ok.mp built
    obtain ⟨nullGrown, nullKnown⟩ := push_adds pushedNull
    obtain ⟨testGrown, testKnown⟩ := push_adds pushedTest
    obtain ⟨callGrown, method, receiver, found, known, isCall⟩ := disposeThroughContract_adds called
    obtain ⟨grown, guarded⟩ := push_adds pushed
    have afterTest := grown.trans callGrown
    exact ⟨afterTest.trans (testGrown.trans nullGrown), method, found, present, missing, call,
      receiver, guarded, afterTest.kind testKnown, (afterTest.trans testGrown).kind nullKnown,
      grown.kind known, isCall.extend grown⟩
  | byRefLike method =>
    obtain ⟨grown, isCall⟩ := call_adds built
    exact ⟨grown, method, rfl, isCall⟩

/-- What comes before the body of a loop is added. -/
theorem startLoop_adds {enumerable : NodeId} {members : LoopMembers} {opened : OpenLoop}
    (built : startLoop registry enumerable members before = .ok (opened, after)) :
    after.Extends before ∧ opened.members = members ∧
      opened.binding.enumerator = ⟨before.size⟩ ∧ opened.binding.current = members.current ∧
      after.kind opened.binding.enumerator = .ok (.var "enumerator") ∧
      ∃ acquired, after.kind opened.start = .ok (.assign opened.binding.enumerator acquired) ∧
        after.IsCall acquired enumerable members.getEnumerator [] := by
  obtain ⟨rfl, isCurrent, -, _, acquired, _, pushed, called, assigned⟩ := startLoop_eq_ok.mp built
  obtain ⟨variableGrown, variableKnown⟩ := push_adds pushed
  obtain ⟨callGrown, isCall⟩ := call_adds called
  obtain ⟨grown, known⟩ := assign_adds assigned
  exact ⟨grown.trans (callGrown.trans variableGrown), rfl, (push_eq_ok.mp pushed).1, isCurrent,
    (grown.trans callGrown).kind variableKnown, acquired, known, isCall.extend grown⟩

/-- A loop over the items of an enumerable is added, from what it was to be built from. -/
theorem foreachLoop_adds {policy : Policy} {enumerable block : NodeId} {plan : LoopPlan}
    {body : LoopBinding → Construction NodeId} (adds : ∀ binding, OnlyAdds (body binding))
    (built : foreachLoop registry policy enumerable plan body before = .ok (.ok block, after)) :
    after.Extends before ∧ ∃ (loop : ForeachLoop) (nodes : LoopNodes),
      loop.enumerable = enumerable ∧ loop.plan = plan ∧
      loop.BuiltFrom registry policy body before after ∧ nodes.Form after block loop := by
  obtain ⟨opened, openedArena, step, filled, opens, bodyBuilt, closes⟩ := foreachLoop_eq_ok.mp built
  obtain ⟨type, members, typed, resolved, started⟩ := openLoop_eq_ok.mp opens
  obtain ⟨hasNext, asked, looped, _, strategy, disposal, _, guarded, _, called, repeated,
    isStrategy, disposed, protectedLoop, closed⟩ := closeLoop_eq_ok.mp closes
  obtain ⟨startGrown, rfl, position, -, variableKnown, acquired, startKnown, acquiredCall⟩ :=
    startLoop_adds started
  have bodyGrown := adds _ _ _ _ bodyBuilt
  obtain ⟨callGrown, nextCall⟩ := call_adds called
  obtain ⟨loopGrown, branch, leave, loopKnown, stepKnown, leaveKnown⟩ := whileLoop_adds repeated
  obtain ⟨disposalGrown, method, disposes, isDisposal⟩ := disposeBy_adds disposed
  obtain ⟨guardGrown, guardKnown⟩ := tryFinally_adds protectedLoop
  obtain ⟨blockGrown, isBlock⟩ := block_adds closed
  have afterDisposal := blockGrown.trans guardGrown
  have afterLoop := afterDisposal.trans disposalGrown
  have afterCall := afterLoop.trans loopGrown
  have afterStart := afterCall.trans (callGrown.trans bodyGrown)
  refine ⟨afterStart.trans startGrown,
    ⟨enumerable, opened.binding.enumerator, opened.members, strategy, method, plan, step,
      ⟨asked.labels⟩⟩,
    ⟨opened.start, acquired, guarded, looped, branch, hasNext, leave, disposal⟩, rfl, rfl, ?_, ?_⟩
  · exact {
      resolved := ⟨type, typed, resolved⟩
      classified := by
        obtain ⟨_, same, classified⟩ := openLoop_disposal opens
        cases isStrategy.symm.trans same
        exact classified
      disposes
      enumerator := position
      body := ⟨opened, openedArena, filled, started, rfl, bodyBuilt, afterCall.trans callGrown,
        callGrown.labels⟩ }
  · exact {
      block := isBlock
      enumerator := afterStart.kind variableKnown
      start := afterStart.kind startKnown
      acquired := acquiredCall.extend afterStart
      guarded := blockGrown.kind guardKnown
      looped := afterLoop.kind loopKnown
      step := afterLoop.kind stepKnown
      hasNext := nextCall.extend afterCall
      leave := afterLoop.kind leaveKnown
      disposal := isDisposal.extend afterDisposal }

end Construction

end Foreach
