import Foreach.Proofs.Lowering.LoopTree
import Foreach.Proofs.Pattern.Detection
import Foreach.Proofs.Pattern.TwinDetection
import Foreach.Proofs.Tree.Completion
import Foreach.Proofs.Types.Named

/-!
# What is refused, and what is not

A loop over a type is refused for one of three reasons, and otherwise it is lowered; a resource is
refused for one reason. Each reason is told by what a search finds of the type and by how values of
a type are disposed of (`LoopVerdict`). A refusal comes before the first node, so it leaves the
arena as it was, and it does not depend on what the loop would have become: neither on its plan nor
on its body, which is not built.

Whatever a loop that is not refused asks for while it is built is there, since the members that
were found are of the right form. So if plan and body are as they should be, it is built to its end
(`foreachLoop_completes`): after the first node nothing is refused any more.
-/
namespace Foreach

/-- An enumerator lacks a member. If it lacks both, `Current` is the one. -/
def EnumeratorShape.Lacks (shape : EnumeratorShape) : MissingMember → Prop
  | .current => shape.current = none
  | .moveNext => shape.current ≠ none ∧ shape.moveNext = none

/-- An enumerator that lacks a member is not complete. -/
theorem EnumeratorShape.Lacks.not_complete {shape : EnumeratorShape} {missing : MissingMember}
    (lacks : shape.Lacks missing) : shape.isComplete = false := by
  cases missing with
  | current => simp [isComplete, show shape.current = none from lacks]
  | moveNext => simp [isComplete, lacks.2]

/-- An enumerable that is complete has something that gives an enumerator, and lacks nothing. -/
theorem EnumerableShape.of_complete {shape : EnumerableShape}
    (isComplete : shape.isComplete = true) :
    shape.getEnumerator ≠ none ∧ ∀ missing, ¬ shape.enumerator.Lacks missing := by
  rw [EnumerableShape.isComplete, Bool.and_eq_true] at isComplete
  obtain ⟨present, enumerator⟩ := isComplete
  refine ⟨Option.isSome_iff_ne_none.mp present, fun missing lacks => ?_⟩
  rw [lacks.not_complete] at enumerator
  cases enumerator

/-- An enumerable whose enumerator lacks a member is not complete. -/
theorem EnumerableShape.not_complete {shape : EnumerableShape} {missing : MissingMember}
    (lacks : shape.enumerator.Lacks missing) : shape.isComplete = false := by
  rw [EnumerableShape.isComplete, lacks.not_complete, Bool.and_false]

/-- An enumerator lacks one member at most. -/
theorem EnumeratorShape.Lacks.unique {shape : EnumeratorShape} {missing other : MissingMember}
    (lacks : shape.Lacks missing) (lacksOther : shape.Lacks other) : missing = other := by
  cases missing <;> cases other
  case current.current | moveNext.moveNext => rfl
  case current.moveNext => exact absurd lacks lacksOther.1
  case moveNext.current => exact absurd lacksOther lacks.1

namespace Registry

/-- What comes of the wish for a loop over a type of which something was found. -/
inductive LoopVerdict (registry : Registry) (type : TypeId) (shape : EnumerableShape) :
    Except LoweringError LoopMembers → Prop where
  /-- Nothing gives an enumerator. -/
  | notEnumerable {name : String} (absent : shape.getEnumerator = none)
    (named : registry.displayName type = .ok name) :
    LoopVerdict registry type shape (.error (.notEnumerable name))
  /-- The enumerator lacks a member. -/
  | invalidEnumerator {enumerator : TypeId} {typeName enumeratorName : String}
    {missing : MissingMember} (present : shape.getEnumerator ≠ none)
    (isEnumerator : shape.enumerator.type = some enumerator)
    (lacks : shape.enumerator.Lacks missing) (named : registry.displayName type = .ok typeName)
    (enumeratorNamed : registry.displayName enumerator = .ok enumeratorName) :
    LoopVerdict registry type shape
      (.error (.invalidEnumerator typeName enumeratorName missing))
  /-- The enumerator cannot be disposed of. -/
  | notDisposable {enumerator : TypeId} {name : String} (isComplete : shape.isComplete = true)
    (isEnumerator : shape.enumerator.type = some enumerator)
    (unclassified : registry.classifyDisposal enumerator = .ok none)
    (named : registry.metadataName enumerator = .ok name) :
    LoopVerdict registry type shape (.error (.notDisposable name))
  /-- There is such a loop. -/
  | possible {members : LoopMembers} {strategy : DisposalStrategy}
    (isComplete : shape.isComplete = true)
    (isEnumerator : shape.enumerator.type = some members.enumeratorType)
    (classified : registry.classifyDisposal members.enumeratorType = .ok (some strategy)) :
    LoopVerdict registry type shape (.ok members)

/-- The members of a loop are of the form in which the loop uses them. -/
structure UsableMembers (registry : Registry) (members : LoopMembers) : Prop where
  /-- What gives the enumerator is a method without parameters that answers with one. -/
  getEnumerator : ∃ source, registry.member? members.getEnumerator = some source ∧
    source.kind = .method [] members.enumeratorType
  /-- What reads the current item is registered. -/
  current : ∃ source, registry.member? members.current = some source
  /-- What goes on to the next item is a method without parameters that answers with a truth
  value. -/
  moveNext : ∃ source, registry.member? members.moveNext = some source ∧
    source.kind = .method [] .bool
  /-- There is a strategy for the enumerator, and what disposes of it is a method without
  parameters. -/
  disposal : ∃ strategy method source returns, members.disposal = some strategy ∧
    strategy.method registry = .ok method ∧ registry.member? method = some source ∧
      source.kind = .method [] returns

section Complete

variable {registry : Registry} (complete : registry.Complete) {type : TypeId}
include complete

/-- The method of the disposal contract is the one that it has from the start. -/
theorem Furnished.disposeMethod_eq_ok : registry.disposeMethod = .ok ⟨0⟩ := by
  obtain ⟨entry, known, _, _, more, same⟩ :=
    complete.keeps.entries (show initial.type? .disposable = some _ from rfl)
  refine Work.checked_bind_eq_ok.mpr ⟨entry, Checked.ofOption_eq_ok.mpr known, ?_⟩
  rw [same]
  rfl

/-- Every strategy that a type is given calls a public method of the right name. -/
theorem Furnished.disposes_of_classified {strategy : DisposalStrategy} (has : registry.Has type)
    (classified : registry.classifyDisposal type = .ok (some strategy)) :
    ∃ method source, strategy.method registry = .ok method ∧
      registry.member? method = some source ∧ source.IsPublicMethod contractNames.dispose := by
  have throughContract : ∃ method source, registry.disposeMethod = .ok method ∧
      registry.member? method = some source ∧ source.IsPublicMethod contractNames.dispose :=
    ⟨⟨0⟩, _, complete.disposeMethod_eq_ok, complete.keeps.members rfl,
      ⟨rfl, ⟨_, rfl⟩, rfl, rfl, rfl⟩⟩
  cases strategy with
  | valueType => exact throughContract
  | referenceType => exact throughContract
  | byRefLike dispose =>
    rw [complete.classifyDisposal_eq_ok has, Except.ok.injEq] at classified
    by_cases byRefLike : (registry.flagsOf type).byRefLike = true
    · rw [if_pos byRefLike] at classified
      obtain ⟨own, found, same⟩ := Option.map_eq_some_iff.mp classified
      cases same
      obtain ⟨_, source, -, -, known, passes⟩ := findMember?_eq_some found
      rw [isOwnDispose, Bool.and_eq_true] at passes
      exact ⟨dispose, source, rfl, known, isPublicMethod_iff.mp passes.symm⟩
    · rw [if_neg byRefLike] at classified
      obtain ⟨_, -, same⟩ := Option.map_eq_some_iff.mp classified
      split at same <;> cases same

variable (has : registry.Has type) (policy : Policy)
include has

/-- What comes of the wish for a loop is told by what is found of the type. -/
theorem Furnished.resolveLoop_verdict : ∃ shape verdict,
    registry.isEnumerable policy type = .ok (shape.isComplete, shape) ∧
      registry.resolveLoop policy type = .ok verdict ∧
        LoopVerdict registry type shape verdict := by
  obtain ⟨shape, searched, describes⟩ := complete.describes has policy
  obtain ⟨typeName, typeNamed⟩ := complete.displayName_ok has
  refine ⟨shape, ?_⟩
  unfold resolveLoop
  rw [searched]
  cases given : shape.getEnumerator with
  | none =>
    refine ⟨_, rfl, Work.checked_bind_eq_ok.mpr ⟨_, rfl, ?_⟩, .notEnumerable given typeNamed⟩
    simp only [given, typeNamed]
    rfl
  | some getEnumerator =>
    obtain ⟨source, known, -, -, isEnumerator⟩ := describes.getEnumerator getEnumerator given
    have present : shape.getEnumerator ≠ none := by rw [given]; exact Option.some_ne_none _
    have enumeratorHas := complete.valueType_has known
    obtain ⟨enumeratorName, enumeratorNamed⟩ := complete.displayName_ok enumeratorHas
    cases isCurrent : shape.enumerator.current with
    | none =>
      have lacks : shape.enumerator.Lacks .current := isCurrent
      refine ⟨_, rfl, Work.checked_bind_eq_ok.mpr ⟨_, rfl, ?_⟩,
        .invalidEnumerator present isEnumerator lacks typeNamed enumeratorNamed⟩
      simp only [EnumerableShape.not_complete lacks, given, isEnumerator, isCurrent, typeNamed,
        enumeratorNamed, EnumeratorShape.missing, Option.isNone_none, if_true]
      rfl
    | some current =>
      have hasCurrent : shape.enumerator.current ≠ none := by
        rw [isCurrent]
        exact Option.some_ne_none _
      cases isMoveNext : shape.enumerator.moveNext with
      | none =>
        have lacks : shape.enumerator.Lacks .moveNext := ⟨hasCurrent, isMoveNext⟩
        refine ⟨_, rfl, Work.checked_bind_eq_ok.mpr ⟨_, rfl, ?_⟩,
          .invalidEnumerator present isEnumerator lacks typeNamed enumeratorNamed⟩
        simp only [EnumerableShape.not_complete lacks, given, isEnumerator, isCurrent, isMoveNext,
          typeNamed, enumeratorNamed, EnumeratorShape.missing, Option.isNone_some,
          Bool.false_eq_true, if_false]
        rfl
      | some moveNext =>
        have isComplete : shape.isComplete = true := by
          simp [EnumerableShape.isComplete, EnumeratorShape.isComplete, given, isCurrent,
            isMoveNext]
        have classifies := complete.classifyDisposal_eq_ok enumeratorHas
        generalize (if (registry.flagsOf source.valueType).byRefLike then _ else _ :
          Option DisposalStrategy) = disposal at classifies
        cases disposal with
        | none =>
          obtain ⟨name, named⟩ := metadataName_ok enumeratorHas
          refine ⟨_, rfl, Work.checked_bind_eq_ok.mpr ⟨_, rfl, ?_⟩,
            .notDisposable isComplete isEnumerator classifies named⟩
          simp only [isComplete, given, isEnumerator, isCurrent, isMoveNext, classifies]
          exact Work.checked_bind_eq_ok.mpr ⟨none, rfl,
            Work.checked_bind_eq_ok.mpr ⟨name, named, rfl⟩⟩
        | some strategy =>
          have possible : LoopVerdict registry type shape
              (.ok ⟨getEnumerator, source.valueType, current, moveNext, some strategy⟩) :=
            .possible isComplete isEnumerator classifies
          refine ⟨_, rfl, Work.checked_bind_eq_ok.mpr ⟨_, rfl, ?_⟩, possible⟩
          simp only [isComplete, given, isEnumerator, isCurrent, isMoveNext, classifies]
          rfl

/-- The members of a loop that is possible can be used. -/
theorem Furnished.usable_of_resolveLoop {members : LoopMembers}
    (resolved : registry.resolveLoop policy type = .ok (.ok members)) :
    registry.UsableMembers members := by
  obtain ⟨shape, strategy, found, isGetEnumerator, isEnumerator, isCurrent, isMoveNext, disposal,
    classified⟩ := resolveLoop_eq_ok resolved
  obtain ⟨shape', searched, describes⟩ := complete.describes has policy
  cases found.symm.trans (enumerableShape_of_isEnumerable searched)
  obtain ⟨source, known, isMethod, -, enumerator⟩ :=
    describes.getEnumerator members.getEnumerator isGetEnumerator
  obtain ⟨returns, kind⟩ := isMethod.kind
  have answers : returns = members.enumeratorType := by
    rw [isEnumerator, Option.some.injEq, MemberEntry.valueType, kind] at enumerator
    exact enumerator.symm
  obtain ⟨current, currentKnown, -⟩ := describes.current members.current isCurrent
  obtain ⟨moveNext, moveNextKnown, -, moveNextKind⟩ :=
    describes.moveNext members.moveNext isMoveNext
  have enumeratorHas : registry.Has members.enumeratorType := by
    rw [← Option.some.inj (enumerator.symm.trans isEnumerator)]
    exact complete.valueType_has known
  obtain ⟨method, dispose, disposes, disposeKnown, disposeMethod⟩ :=
    complete.disposes_of_classified enumeratorHas classified
  obtain ⟨nothing, disposeKind⟩ := disposeMethod.kind
  exact {
    getEnumerator := ⟨source, known, answers ▸ kind⟩
    current := ⟨current, currentKnown⟩
    moveNext := ⟨moveNext, moveNextKnown, moveNextKind⟩
    disposal :=
      ⟨strategy, method, dispose, nothing, disposal, disposes, disposeKnown, disposeKind⟩ }

end Complete

end Registry

/-- What surrounds a loop can do so in a tree: its variables are variables, its result is a node,
and there are not too many of either. -/
structure LoopPlan.Fits (plan : LoopPlan) (arena : Arena) : Prop where
  /-- The variables are variables. -/
  locals : ∀ id ∈ plan.locals, ∃ kind, arena.kind id = .ok kind ∧ kind.isVariable = true
  /-- The result is a node. -/
  result : ∀ id ∈ plan.result, ∃ type, arena.typeOf id = .ok type
  /-- The variables and the enumerator's are not too many. -/
  localsFit : plan.locals.length + 1 ≤ Arena.maxListLength
  /-- The statements, the start and the loop are not too many. -/
  statementsFit : plan.preamble.length + plan.result.toList.length + 2 ≤ Arena.maxListLength

/-- What surrounds a loop can still do so in a tree that has grown. -/
theorem LoopPlan.Fits.extend {plan : LoopPlan} {later earlier : Arena} (fits : plan.Fits earlier)
    (grown : later.Extends earlier) : plan.Fits later where
  locals id isLocal := by
    obtain ⟨kind, known, isVariable⟩ := fits.locals id isLocal
    exact ⟨kind, grown.kind known, isVariable⟩
  result id isResult := by
    obtain ⟨type, typed⟩ := fits.result id isResult
    exact ⟨type, grown.typeOf typed⟩
  localsFit := fits.localsFit
  statementsFit := fits.statementsFit

/-- The type of the value of a block around a loop: that of the result, or none. -/
def LoopPlan.valueType (plan : LoopPlan) (arena : Arena) : Checked TypeId :=
  match plan.result with
  | none => .ok .void
  | some result => arena.typeOf result

/-- The value of a block around a loop has a type. -/
theorem LoopPlan.Fits.valueType {plan : LoopPlan} {arena : Arena} (fits : plan.Fits arena) :
    ∃ type, plan.valueType arena = .ok type := by
  unfold LoopPlan.valueType
  cases isResult : plan.result with
  | none => exact ⟨.void, rfl⟩
  | some result => exact fits.result result isResult

/-- The value of a block around a loop has the same type in a tree that has grown. -/
theorem LoopPlan.valueType_extend {plan : LoopPlan} {later earlier : Arena} {type : TypeId}
    (typed : plan.valueType earlier = .ok type) (grown : later.Extends earlier) :
    plan.valueType later = .ok type := by
  unfold LoopPlan.valueType at typed ⊢
  cases isResult : plan.result with
  | none =>
    rw [isResult] at typed
    exact typed
  | some result =>
    rw [isResult] at typed
    exact grown.typeOf typed

/-- The block around a loop ends with the plan's result, or with the loop. -/
theorem LoopPlan.lastTyped (plan : LoopPlan) (start : NodeId) {arena : Arena} {guarded : NodeId}
    {type : TypeId} (guardTyped : arena.typeOf guarded = .ok .void)
    (valued : plan.valueType arena = .ok type) :
    arena.LastTyped (start :: plan.preamble ++ guarded :: plan.result.toList) type := by
  constructor
  case void => simp
  case last =>
    intro node isLast
    rw [List.getLast?_append] at isLast
    unfold LoopPlan.valueType at valued
    cases isResult : plan.result with
    | none =>
      rw [isResult] at valued isLast
      obtain rfl := Option.some.inj isLast
      exact guardTyped.trans valued
    | some result =>
      rw [isResult] at valued isLast
      obtain rfl := Option.some.inj isLast
      exact valued

namespace Construction

variable {registry : Registry} {policy : Policy} {enumerable : NodeId} {arena after : Arena}
  {type : TypeId} {plan : LoopPlan} {body : LoopBinding → Construction NodeId}

/-- A body is built from whatever a loop that is possible offers it, and only adds to the tree. -/
def BuildsBody (registry : Registry) (policy : Policy) (enumerable : NodeId) (arena : Arena)
    (body : LoopBinding → Construction NodeId) : Prop :=
  ∀ opened started, openLoop registry policy enumerable arena = .ok (.ok opened, started) →
    ∃ step filled, body opened.binding started = .ok (step, filled) ∧ filled.Extends started

/-- What is built as a body only adds to the tree. -/
theorem BuildsBody.grows (builds : BuildsBody registry policy enumerable arena body)
    (opened : OpenLoop) (started : Arena) (step : NodeId) (filled : Arena)
    (opens : openLoop registry policy enumerable arena = .ok (.ok opened, started))
    (fills : body opened.binding started = .ok (step, filled)) : filled.Extends started := by
  obtain ⟨_, _, built, grown⟩ := builds opened started opens
  cases fills.symm.trans built
  exact grown

/-- A resource of a type that can be disposed of gets a disposal. -/
theorem disposeBy_completes {resource : NodeId} {strategy : DisposalStrategy} {method : MemberId}
    {source : MemberEntry} {returns : TypeId} (typed : arena.typeOf resource = .ok type)
    (disposes : strategy.method registry = .ok method)
    (known : registry.member? method = some source) (kind : source.kind = .method [] returns) :
    Completes (disposeBy registry resource strategy) arena := by
  have throughContract (isContract : registry.disposeMethod = .ok method) (before : Arena) :
      Completes (disposeThroughContract registry resource) before := by
    obtain ⟨receiver, middle, converted⟩ := push_completes before (.convert resource) .disposable
    obtain ⟨id, after, called⟩ := call_completes middle receiver known kind
    exact ⟨id, after, disposeThroughContract_eq_ok.mpr
      ⟨method, receiver, middle, isContract, converted, called⟩⟩
  cases strategy with
  | valueType => exact throughContract disposes arena
  | referenceType =>
    obtain ⟨missing, lacking, pushedNull⟩ := push_completes arena .null type
    obtain ⟨present, tested, pushedTest⟩ :=
      push_completes lacking (.notEqual resource missing) .bool
    obtain ⟨call, called, disposed⟩ := throughContract disposes tested
    obtain ⟨id, after, pushed⟩ := push_completes called (.ifThen present call) .void
    exact ⟨id, after, disposeReference_eq_ok.mpr ⟨type, missing, lacking, present, tested, call,
      called, typed, pushedNull, pushedTest, disposed, pushed⟩⟩
  | byRefLike dispose =>
    cases disposes
    exact call_completes arena resource known kind

/-- What comes before the body of a loop is added if the members can be used. -/
theorem startLoop_completes {members : LoopMembers} (usable : registry.UsableMembers members) :
    Completes (startLoop registry enumerable members) arena := by
  obtain ⟨source, known, kind⟩ := usable.getEnumerator
  obtain ⟨current, currentKnown⟩ := usable.current
  obtain ⟨enumerator, declared, pushed⟩ :=
    push_completes arena (.var "enumerator") members.enumeratorType
  obtain ⟨acquired, called, callBuilt⟩ := call_completes declared enumerable known kind
  obtain ⟨grown, -⟩ := call_adds callBuilt
  obtain ⟨start, after, assigned⟩ := assign_completes acquired (grown.kind (push_adds pushed).2)
    rfl (grown.typeOf (push_typeOf pushed))
  exact ⟨⟨members, start, enumerator, members.current, current.valueType⟩, after,
    startLoop_eq_ok.mpr ⟨rfl, rfl, Registry.valueTypeOf_eq_ok currentKnown, declared, acquired,
      called, pushed, callBuilt, assigned⟩⟩

/-- The variable of a loop has the type of the enumerator. -/
theorem startLoop_typeOf {members : LoopMembers} {opened : OpenLoop}
    (built : startLoop registry enumerable members arena = .ok (opened, after)) :
    after.typeOf opened.binding.enumerator = .ok members.enumeratorType := by
  obtain ⟨rfl, -, -, _, _, _, pushed, called, assigned⟩ := startLoop_eq_ok.mp built
  exact ((assign_adds assigned).1.trans (call_adds called).1).typeOf (push_typeOf pushed)

/-- What comes after the body of a loop is added if the members can be used and the plan fits. -/
theorem closeLoop_completes {opened : OpenLoop} {enumerator : TypeId} {step : NodeId}
    (usable : registry.UsableMembers opened.members) (fits : plan.Fits arena)
    (declared : arena.kind opened.binding.enumerator = .ok (.var "enumerator"))
    (typed : arena.typeOf opened.binding.enumerator = .ok enumerator) :
    ∃ block after, closeLoop registry opened plan step arena = .ok (.ok block, after) := by
  obtain ⟨moveNext, moveNextKnown, moveNextKind⟩ := usable.moveNext
  obtain ⟨strategy, method, dispose, returns, isStrategy, disposes, disposeKnown, disposeKind⟩ :=
    usable.disposal
  obtain ⟨hasNext, asked, called⟩ :=
    call_completes arena opened.binding.enumerator moveNextKnown moveNextKind
  have isBool : moveNext.valueType = .bool := by rw [MemberEntry.valueType, moveNextKind]
  obtain ⟨looped, repeated, whileBuilt⟩ :=
    whileLoop_completes step (isBool ▸ call_typeOf moveNextKnown called)
  have toLoop := (whileLoop_adds whileBuilt).1.trans (call_adds called).1
  obtain ⟨disposal, disposed, disposeBuilt⟩ :=
    disposeBy_completes (toLoop.typeOf typed) disposes disposeKnown disposeKind
  have loopGrown := (disposeBy_adds disposeBuilt).1
  have loopTyped := loopGrown.typeOf (whileLoop_typeOf whileBuilt)
  obtain ⟨guarded, last, guardBuilt⟩ := tryFinally_completes disposal loopTyped
  have toLast := (tryFinally_adds guardBuilt).1.trans (loopGrown.trans toLoop)
  have areVariables : ∀ id ∈ opened.binding.enumerator :: plan.locals,
      ∃ kind, last.kind id = .ok kind ∧ kind.isVariable = true := by
    intro id isLocal
    cases List.mem_cons.mp isLocal with
    | inl isEnumerator => exact ⟨_, isEnumerator ▸ toLast.kind declared, rfl⟩
    | inr inPlan =>
      obtain ⟨kind, known, isVariable⟩ := fits.locals id inPlan
      exact ⟨kind, toLast.kind known, isVariable⟩
  obtain ⟨type, valued⟩ := (fits.extend toLast).valueType
  have lastTyped := plan.lastTyped opened.start (tryFinally_typeOf loopTyped guardBuilt) valued
  have statementsFit : (opened.start :: plan.preamble ++ guarded ::
      plan.result.toList).length ≤ Arena.maxListLength := by
    have counted := fits.statementsFit
    simp only [List.length_append, List.length_cons]
    omega
  obtain ⟨block, after, blockBuilt⟩ :=
    block_completes areVariables lastTyped fits.localsFit statementsFit
  exact ⟨block, after, closeLoop_eq_ok.mpr ⟨hasNext, asked, looped, repeated, strategy, disposal,
    disposed, guarded, last, called, whileBuilt, isStrategy, disposeBuilt, guardBuilt,
    blockBuilt⟩⟩

/-- Nothing but the start of a loop is added before its body. -/
theorem openLoop_grows {opened : OpenLoop}
    (opens : openLoop registry policy enumerable arena = .ok (.ok opened, after)) :
    after.Extends arena := by
  obtain ⟨_, _, -, -, started⟩ := openLoop_eq_ok.mp opens
  exact (startLoop_adds started).1

/-- A loop that is possible is built to its end if plan and body are as they should be. -/
theorem foreachLoop_completes {members : LoopMembers} (typed : arena.typeOf enumerable = .ok type)
    (resolved : registry.resolveLoop policy type = .ok (.ok members))
    (usable : registry.UsableMembers members) (fits : plan.Fits arena)
    (builds : BuildsBody registry policy enumerable arena body) :
    ∃ block after,
      foreachLoop registry policy enumerable plan body arena = .ok (.ok block, after) := by
  obtain ⟨opened, started, start⟩ : Completes (startLoop registry enumerable members) arena :=
    startLoop_completes usable
  have opens := openLoop_eq_ok.mpr ⟨type, members, typed, resolved, start⟩
  obtain ⟨step, filled, built, filledGrown⟩ := builds opened started opens
  obtain ⟨startGrown, rfl, -, -, declared, -⟩ := startLoop_adds start
  have toFilled := filledGrown.trans startGrown
  obtain ⟨block, after, closed⟩ := closeLoop_completes usable (fits.extend toFilled)
    (filledGrown.kind declared) (filledGrown.typeOf (startLoop_typeOf start))
  exact ⟨block, after, foreachLoop_eq_ok.mpr ⟨opened, started, step, filled, opens, built, closed⟩⟩

end Construction

end Foreach
