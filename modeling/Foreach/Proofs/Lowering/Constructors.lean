import Foreach.Lowering.ForeachLoop
import Foreach.Proofs.Tree.Constructors

/-!
# What lowering insists on and does

Lowering puts constructors of nodes in sequence. For a disposal, for each part of a loop over items
and for the use of a resource there is one statement of when it gives something, and of the steps
that it consists of then. A loop and a use of a resource are also refused; there is one statement of
when that happens.

A loop can be refused at two places: when it is opened, which leaves the arena, and when it is
closed, where the body is in the arena already (`closeLoop_eq_error`). A loop that was opened has a
strategy for its enumerator (`openLoop_disposal`), so it is never refused when it is closed.
-/
namespace Foreach

/-- A loop that is possible uses what was found of the type, and has a strategy for the enumerator,
which is that of its type. -/
theorem Registry.resolveLoop_eq_ok {registry : Registry} {policy : Policy} {type : TypeId}
    {members : LoopMembers} (resolved : registry.resolveLoop policy type = .ok (.ok members)) :
    ∃ shape strategy, registry.enumerableShape policy type = .ok shape ∧
      shape.getEnumerator = some members.getEnumerator ∧
      shape.enumerator.type = some members.enumeratorType ∧
      shape.enumerator.current = some members.current ∧
      shape.enumerator.moveNext = some members.moveNext ∧
      members.disposal = some strategy ∧
      registry.classifyDisposal members.enumeratorType = .ok (some strategy) := by
  obtain ⟨⟨found, shape⟩, searched, resolved⟩ := Work.checked_bind_eq_ok.mp resolved
  have shaped := enumerableShape_of_isEnumerable searched
  dsimp only at resolved
  split at resolved
  case h_2 =>
    obtain ⟨_, -, refused⟩ := Work.checked_bind_eq_ok.mp resolved
    cases refused
  case h_1 getEnumerator enumerator =>
    split at resolved
    case h_2 =>
      obtain ⟨_, -, resolved⟩ := Work.checked_bind_eq_ok.mp resolved
      obtain ⟨_, -, refused⟩ := Work.checked_bind_eq_ok.mp resolved
      cases refused
    case h_1 current moveNext =>
      obtain ⟨disposal, classified, resolved⟩ := Work.checked_bind_eq_ok.mp resolved
      cases disposal with
      | none =>
        obtain ⟨_, -, refused⟩ := Work.checked_bind_eq_ok.mp resolved
        cases refused
      | some strategy =>
        cases resolved
        exact ⟨shape, strategy, shaped, getEnumerator, enumerator, current, moveNext, rfl,
          classified⟩

/-- A loop that is possible has a strategy for the enumerator, which is that of its type. -/
theorem Registry.resolveLoop_classifies {registry : Registry} {policy : Policy} {type : TypeId}
    {members : LoopMembers} (resolved : registry.resolveLoop policy type = .ok (.ok members)) :
    ∃ strategy, members.disposal = some strategy ∧
      registry.classifyDisposal members.enumeratorType = .ok (some strategy) := by
  obtain ⟨_, strategy, -, -, -, -, -, disposal, classified⟩ := resolveLoop_eq_ok resolved
  exact ⟨strategy, disposal, classified⟩

namespace Construction

variable {registry : Registry} {policy : Policy} {before after : Arena} {id : NodeId}
  {type : TypeId} {enumerable resource : NodeId} {plan : LoopPlan}
  {body : LoopBinding → Construction NodeId} {error : LoweringError}

/-- A resource is disposed of through the contract by a call on a conversion to it. -/
theorem disposeThroughContract_eq_ok :
    disposeThroughContract registry resource before = .ok (id, after) ↔
      ∃ method receiver middle, registry.disposeMethod = .ok method ∧
        push (.convert resource) .disposable before = .ok (receiver, middle) ∧
        call registry receiver method [] middle = .ok (id, after) := by
  constructor
  · intro built
    obtain ⟨method, _, asked, built⟩ := Work.bind_eq_ok.mp built
    obtain ⟨receiver, middle, converted, called⟩ := Work.bind_eq_ok.mp built
    obtain ⟨found, rfl⟩ := Work.lift_eq_ok.mp asked
    exact ⟨method, receiver, middle, found, converted, called⟩
  · rintro ⟨method, receiver, middle, found, converted, called⟩
    refine (Work.lift_bind_of_ok found).trans ?_
    exact Work.bind_eq_ok.mpr ⟨receiver, middle, converted, called⟩

/-- A reference is disposed of through the contract if it is not null. -/
theorem disposeReference_eq_ok :
    disposeBy registry resource .referenceType before = .ok (id, after) ↔
      ∃ type missing lacking present tested call called, before.typeOf resource = .ok type ∧
        push .null type before = .ok (missing, lacking) ∧
        push (.notEqual resource missing) .bool lacking = .ok (present, tested) ∧
        disposeThroughContract registry resource tested = .ok (call, called) ∧
        push (.ifThen present call) .void called = .ok (id, after) := by
  constructor
  · intro built
    obtain ⟨type, _, asked, built⟩ := Work.bind_eq_ok.mp built
    obtain ⟨missing, lacking, pushedNull, built⟩ := Work.bind_eq_ok.mp built
    obtain ⟨present, tested, pushedTest, built⟩ := Work.bind_eq_ok.mp built
    obtain ⟨call, called, disposed, pushed⟩ := Work.bind_eq_ok.mp built
    obtain ⟨typed, rfl⟩ := ask_eq_ok.mp asked
    exact ⟨type, missing, lacking, present, tested, call, called, typed, pushedNull, pushedTest,
      disposed, pushed⟩
  · rintro ⟨type, missing, lacking, present, tested, call, called, typed, pushedNull, pushedTest,
      disposed, pushed⟩
    refine Work.bind_eq_ok.mpr ⟨type, before, ask_eq_ok.mpr ⟨typed, rfl⟩, ?_⟩
    refine Work.bind_eq_ok.mpr ⟨missing, lacking, pushedNull, ?_⟩
    refine Work.bind_eq_ok.mpr ⟨present, tested, pushedTest, ?_⟩
    exact Work.bind_eq_ok.mpr ⟨call, called, disposed, pushed⟩

section Strategies

variable {disposal : Option DisposalStrategy}

/-- A resource gets a statement that disposes of it by its strategy. -/
theorem dispose_eq_some :
    dispose registry resource disposal before = .ok (some id, after) ↔
      ∃ strategy, disposal = some strategy ∧
        disposeBy registry resource strategy before = .ok (id, after) := by
  cases disposal with
  | none =>
    constructor
    · intro built
      obtain ⟨absurd, -⟩ := Work.pure_eq_ok.mp built
      cases absurd
    · rintro ⟨_, ⟨⟩, -⟩
  | some strategy =>
    constructor
    · intro built
      obtain ⟨_, disposed, same⟩ := Work.map_eq_ok.mp built
      obtain rfl := Option.some.inj same
      exact ⟨strategy, rfl, disposed⟩
    · rintro ⟨_, ⟨⟩, disposed⟩
      exact Work.map_eq_ok.mpr ⟨id, disposed, rfl⟩

/-- A resource gets no statement exactly if there is no strategy for it, and then the arena is
left. -/
theorem dispose_eq_none :
    dispose registry resource disposal before = .ok (none, after) ↔
      disposal = none ∧ after = before := by
  cases disposal with
  | none =>
    constructor
    · intro built
      exact ⟨rfl, (Work.pure_eq_ok.mp built).2.symm⟩
    · rintro ⟨-, rfl⟩
      rfl
  | some strategy =>
    constructor
    · intro built
      obtain ⟨_, -, absurd⟩ := Work.map_eq_ok.mp built
      cases absurd
    · rintro ⟨⟨⟩, -⟩

end Strategies

/-- A loop over items starts with a variable that gets the enumerator. -/
theorem startLoop_eq_ok {members : LoopMembers} {opened : OpenLoop} :
    startLoop registry enumerable members before = .ok (opened, after) ↔
      opened.members = members ∧ opened.binding.current = members.current ∧
        registry.valueTypeOf members.current = .ok opened.binding.itemType ∧
        ∃ declared acquired called,
          push (.var "enumerator") members.enumeratorType before =
            .ok (opened.binding.enumerator, declared) ∧
          call registry enumerable members.getEnumerator [] declared = .ok (acquired, called) ∧
          assign opened.binding.enumerator acquired called = .ok (opened.start, after) := by
  constructor
  · intro built
    obtain ⟨enumerator, declared, pushed, built⟩ := Work.bind_eq_ok.mp built
    obtain ⟨acquired, called, callBuilt, built⟩ := Work.bind_eq_ok.mp built
    obtain ⟨start, _, assigned, built⟩ := Work.bind_eq_ok.mp built
    obtain ⟨itemType, _, asked, ended⟩ := Work.bind_eq_ok.mp built
    obtain ⟨isType, rfl⟩ := Work.lift_eq_ok.mp asked
    obtain ⟨rfl, rfl⟩ := Work.pure_eq_ok.mp ended
    exact ⟨rfl, rfl, isType, declared, acquired, called, pushed, callBuilt, assigned⟩
  · obtain ⟨found, start, enumerator, current, itemType⟩ := opened
    rintro ⟨rfl, isCurrent, isType, declared, acquired, called, pushed, callBuilt, assigned⟩
    obtain rfl : current = found.current := isCurrent
    refine Work.bind_eq_ok.mpr ⟨enumerator, declared, pushed, ?_⟩
    refine Work.bind_eq_ok.mpr ⟨acquired, called, callBuilt, ?_⟩
    refine Work.bind_eq_ok.mpr ⟨start, after, assigned, ?_⟩
    exact (Work.lift_bind_of_ok isType).trans rfl

/-- A loop that is possible is opened. -/
theorem openLoop_eq_ok {opened : OpenLoop} :
    openLoop registry policy enumerable before = .ok (.ok opened, after) ↔
      ∃ type members, before.typeOf enumerable = .ok type ∧
        registry.resolveLoop policy type = .ok (.ok members) ∧
        startLoop registry enumerable members before = .ok (opened, after) := by
  constructor
  · intro opens
    obtain ⟨type, _, askedType, opens⟩ := Work.bind_eq_ok.mp opens
    obtain ⟨verdict, _, asked, opens⟩ := Work.bind_eq_ok.mp opens
    obtain ⟨typed, rfl⟩ := ask_eq_ok.mp askedType
    obtain ⟨resolved, rfl⟩ := Work.lift_eq_ok.mp asked
    cases verdict with
    | error error =>
      obtain ⟨refused, -⟩ := Work.pure_eq_ok.mp opens
      cases refused
    | ok members =>
      obtain ⟨_, started, same⟩ := Work.map_eq_ok.mp opens
      obtain rfl := Except.ok.inj same
      exact ⟨type, members, typed, resolved, started⟩
  · rintro ⟨type, members, typed, resolved, started⟩
    refine Work.bind_eq_ok.mpr ⟨type, before, ask_eq_ok.mpr ⟨typed, rfl⟩, ?_⟩
    refine (Work.lift_bind_of_ok resolved).trans ?_
    exact Work.map_eq_ok.mpr ⟨opened, started, rfl⟩

/-- A loop that is not possible is refused when it is opened, which leaves the arena. -/
theorem openLoop_eq_error :
    openLoop registry policy enumerable before = .ok (.error error, after) ↔
      ∃ type, before.typeOf enumerable = .ok type ∧
        registry.resolveLoop policy type = .ok (.error error) ∧ after = before := by
  constructor
  · intro opens
    obtain ⟨type, _, askedType, opens⟩ := Work.bind_eq_ok.mp opens
    obtain ⟨verdict, _, asked, opens⟩ := Work.bind_eq_ok.mp opens
    obtain ⟨typed, rfl⟩ := ask_eq_ok.mp askedType
    obtain ⟨resolved, rfl⟩ := Work.lift_eq_ok.mp asked
    cases verdict with
    | error error =>
      obtain ⟨same, rfl⟩ := Work.pure_eq_ok.mp opens
      obtain rfl := Except.error.inj same
      exact ⟨type, typed, resolved, rfl⟩
    | ok members =>
      obtain ⟨_, -, impossible⟩ := Work.map_eq_ok.mp opens
      cases impossible
  · rintro ⟨type, typed, resolved, rfl⟩
    refine Work.bind_eq_ok.mpr ⟨type, after, ask_eq_ok.mpr ⟨typed, rfl⟩, ?_⟩
    exact (Work.lift_bind_of_ok resolved).trans rfl

/-- A loop that was opened has a strategy for its enumerator, which is that of its type. -/
theorem openLoop_disposal {opened : OpenLoop}
    (opens : openLoop registry policy enumerable before = .ok (.ok opened, after)) :
    ∃ strategy, opened.members.disposal = some strategy ∧
      registry.classifyDisposal opened.members.enumeratorType = .ok (some strategy) := by
  obtain ⟨_, members, -, resolved, started⟩ := openLoop_eq_ok.mp opens
  obtain ⟨rfl, -⟩ := startLoop_eq_ok.mp started
  exact Registry.resolveLoop_classifies resolved

/-- A loop over items is closed by the loop itself with the disposal of the enumerator, and the
block around it. -/
theorem closeLoop_eq_ok {opened : OpenLoop} {step : NodeId} :
    closeLoop registry opened plan step before = .ok (.ok id, after) ↔
      ∃ hasNext asked looped repeated strategy disposal disposed guarded last,
        call registry opened.binding.enumerator opened.members.moveNext [] before =
          .ok (hasNext, asked) ∧
        whileLoop hasNext step asked = .ok (looped, repeated) ∧
        opened.members.disposal = some strategy ∧
        disposeBy registry opened.binding.enumerator strategy repeated =
          .ok (disposal, disposed) ∧
        tryFinally looped disposal disposed = .ok (guarded, last) ∧
        block (opened.binding.enumerator :: plan.locals)
          (opened.start :: plan.preamble ++ guarded :: plan.result.toList) last =
          .ok (id, after) := by
  constructor
  · intro built
    obtain ⟨hasNext, asked, called, built⟩ := Work.bind_eq_ok.mp built
    obtain ⟨looped, repeated, whileBuilt, built⟩ := Work.bind_eq_ok.mp built
    obtain ⟨answer, disposed, answered, built⟩ := Work.bind_eq_ok.mp built
    cases answer with
    | none =>
      obtain ⟨_, _, -, ended⟩ := Work.bind_eq_ok.mp built
      obtain ⟨refused, -⟩ := Work.pure_eq_ok.mp ended
      cases refused
    | some disposal =>
      obtain ⟨strategy, isStrategy, disposeBuilt⟩ := dispose_eq_some.mp answered
      obtain ⟨guarded, last, guardBuilt, built⟩ := Work.bind_eq_ok.mp built
      obtain ⟨_, blockBuilt, same⟩ := Work.map_eq_ok.mp built
      obtain rfl := Except.ok.inj same
      exact ⟨hasNext, asked, looped, repeated, strategy, disposal, disposed, guarded, last, called,
        whileBuilt, isStrategy, disposeBuilt, guardBuilt, blockBuilt⟩
  · rintro ⟨hasNext, asked, looped, repeated, strategy, disposal, disposed, guarded, last, called,
      whileBuilt, isStrategy, disposeBuilt, guardBuilt, blockBuilt⟩
    refine Work.bind_eq_ok.mpr ⟨hasNext, asked, called, ?_⟩
    refine Work.bind_eq_ok.mpr ⟨looped, repeated, whileBuilt, ?_⟩
    refine Work.bind_eq_ok.mpr
      ⟨some disposal, disposed, dispose_eq_some.mpr ⟨strategy, isStrategy, disposeBuilt⟩, ?_⟩
    refine Work.bind_eq_ok.mpr ⟨guarded, last, guardBuilt, ?_⟩
    exact Work.map_eq_ok.mpr ⟨id, blockBuilt, rfl⟩

/-- A loop over items is refused when it is closed exactly if there is no strategy for its
enumerator. The loop itself is in the arena then, and stays there. -/
theorem closeLoop_eq_error {opened : OpenLoop} {step : NodeId} :
    closeLoop registry opened plan step before = .ok (.error error, after) ↔
      ∃ hasNext asked looped name,
        call registry opened.binding.enumerator opened.members.moveNext [] before =
          .ok (hasNext, asked) ∧
        whileLoop hasNext step asked = .ok (looped, after) ∧
        opened.members.disposal = none ∧
        registry.metadataName opened.members.enumeratorType = .ok name ∧
        error = .notDisposable name := by
  constructor
  · intro built
    obtain ⟨hasNext, asked, called, built⟩ := Work.bind_eq_ok.mp built
    obtain ⟨looped, repeated, whileBuilt, built⟩ := Work.bind_eq_ok.mp built
    obtain ⟨answer, disposed, answered, answers⟩ := Work.bind_eq_ok.mp built
    cases answer with
    | none =>
      obtain ⟨isNone, rfl⟩ := dispose_eq_none.mp answered
      obtain ⟨name, _, askedName, ended⟩ := Work.bind_eq_ok.mp answers
      obtain ⟨named, rfl⟩ := Work.lift_eq_ok.mp askedName
      obtain ⟨same, rfl⟩ := Work.pure_eq_ok.mp ended
      exact ⟨hasNext, asked, looped, name, called, whileBuilt, isNone, named,
        (Except.error.inj same).symm⟩
    | some disposal =>
      obtain ⟨_, _, -, blocked⟩ := Work.bind_eq_ok.mp answers
      obtain ⟨_, -, impossible⟩ := Work.map_eq_ok.mp blocked
      cases impossible
  · rintro ⟨hasNext, asked, looped, name, called, whileBuilt, isNone, named, rfl⟩
    refine Work.bind_eq_ok.mpr ⟨hasNext, asked, called, ?_⟩
    refine Work.bind_eq_ok.mpr ⟨looped, after, whileBuilt, ?_⟩
    refine Work.bind_eq_ok.mpr ⟨none, after, dispose_eq_none.mpr ⟨isNone, rfl⟩, ?_⟩
    exact (Work.lift_bind_of_ok named).trans rfl

/-- A loop that was opened is never refused when it is closed, whatever was added in between. -/
theorem closeLoop_ne_error {opened : OpenLoop} {step : NodeId} {started filled : Arena}
    (opens : openLoop registry policy enumerable before = .ok (.ok opened, started)) :
    closeLoop registry opened plan step filled ≠ .ok (.error error, after) := by
  intro refused
  obtain ⟨_, _, _, _, -, -, isNone, -⟩ := closeLoop_eq_error.mp refused
  obtain ⟨strategy, isSome, -⟩ := openLoop_disposal opens
  cases isNone.symm.trans isSome

/-- A loop that is lowered is opened, gets its body, and is closed. -/
theorem foreachLoop_eq_ok :
    foreachLoop registry policy enumerable plan body before = .ok (.ok id, after) ↔
      ∃ opened started step filled,
        openLoop registry policy enumerable before = .ok (.ok opened, started) ∧
        body opened.binding started = .ok (step, filled) ∧
        closeLoop registry opened plan step filled = .ok (.ok id, after) := by
  constructor
  · intro built
    obtain ⟨opening, started, opens, built⟩ := Work.bind_eq_ok.mp built
    cases opening with
    | error error =>
      obtain ⟨refused, -⟩ := Work.pure_eq_ok.mp built
      cases refused
    | ok opened =>
      obtain ⟨step, filled, fills, closed⟩ := Work.bind_eq_ok.mp built
      exact ⟨opened, started, step, filled, opens, fills, closed⟩
  · rintro ⟨opened, started, step, filled, opens, fills, closed⟩
    refine Work.bind_eq_ok.mpr ⟨_, started, opens, ?_⟩
    exact Work.bind_eq_ok.mpr ⟨step, filled, fills, closed⟩

/-- A loop is refused exactly with the reason why it is not possible, whatever its plan and its body
are, and that leaves the arena. -/
theorem foreachLoop_eq_error :
    foreachLoop registry policy enumerable plan body before = .ok (.error error, after) ↔
      ∃ type, before.typeOf enumerable = .ok type ∧
        registry.resolveLoop policy type = .ok (.error error) ∧ after = before := by
  rw [← openLoop_eq_error]
  constructor
  · intro refused
    obtain ⟨opening, started, opens, ended⟩ := Work.bind_eq_ok.mp refused
    cases opening with
    | error reason =>
      obtain ⟨same, rfl⟩ := Work.pure_eq_ok.mp ended
      obtain rfl := Except.error.inj same
      exact opens
    | ok opened =>
      obtain ⟨_, _, -, closed⟩ := Work.bind_eq_ok.mp ended
      exact absurd closed (closeLoop_ne_error opens)
  · exact fun opens => Work.bind_eq_ok.mpr ⟨_, _, opens, rfl⟩

section Resource

variable {statement : NodeId}

/-- A resource that is held by a binding is used if its type has a disposal: the disposal is added,
and then the statement with the disposal as its cleanup. -/
theorem useResource_eq_ok :
    useResource registry resource statement before = .ok (.ok id, after) ↔
      (∃ kind, before.kind resource = .ok kind ∧ kind.isBinding = true) ∧
        ∃ type strategy disposal middle, before.typeOf resource = .ok type ∧
          registry.classifyDisposal type = .ok (some strategy) ∧
          disposeBy registry resource strategy before = .ok (disposal, middle) ∧
          tryFinally statement disposal middle = .ok (id, after) := by
  constructor
  · intro used
    obtain ⟨⟨⟩, _, met, used⟩ := Work.bind_eq_ok.mp used
    obtain ⟨type, _, askedType, used⟩ := Work.bind_eq_ok.mp used
    obtain ⟨classified, _, asked, used⟩ := Work.bind_eq_ok.mp used
    obtain ⟨isBinding, rfl⟩ := requireKind_eq_ok.mp met
    obtain ⟨typed, rfl⟩ := ask_eq_ok.mp askedType
    obtain ⟨classifies, rfl⟩ := Work.lift_eq_ok.mp asked
    obtain ⟨answer, middle, answered, answers⟩ := Work.bind_eq_ok.mp used
    cases answer with
    | none =>
      obtain ⟨_, _, -, ended⟩ := Work.bind_eq_ok.mp answers
      obtain ⟨refused, -⟩ := Work.pure_eq_ok.mp ended
      cases refused
    | some disposal =>
      obtain ⟨strategy, rfl, disposed⟩ := dispose_eq_some.mp answered
      obtain ⟨_, built, same⟩ := Work.map_eq_ok.mp answers
      obtain rfl := Except.ok.inj same
      exact ⟨isBinding, type, strategy, disposal, middle, typed, classifies, disposed, built⟩
  · rintro ⟨isBinding, type, strategy, disposal, middle, typed, classifies, disposed, built⟩
    refine Work.bind_eq_ok.mpr ⟨(), before, requireKind_eq_ok.mpr ⟨isBinding, rfl⟩, ?_⟩
    refine Work.bind_eq_ok.mpr ⟨type, before, ask_eq_ok.mpr ⟨typed, rfl⟩, ?_⟩
    refine (Work.lift_bind_of_ok classifies).trans ?_
    refine Work.bind_eq_ok.mpr
      ⟨some disposal, middle, dispose_eq_some.mpr ⟨strategy, rfl, disposed⟩, ?_⟩
    exact Work.map_eq_ok.mpr ⟨id, built, rfl⟩

/-- A resource that is held by a binding is refused if its type has no disposal, which leaves the
arena. -/
theorem useResource_eq_error :
    useResource registry resource statement before = .ok (.error error, after) ↔
      (∃ kind, before.kind resource = .ok kind ∧ kind.isBinding = true) ∧
        ∃ type name, before.typeOf resource = .ok type ∧
          registry.classifyDisposal type = .ok none ∧ registry.metadataName type = .ok name ∧
          error = .notDisposable name ∧ after = before := by
  constructor
  · intro used
    obtain ⟨⟨⟩, _, met, used⟩ := Work.bind_eq_ok.mp used
    obtain ⟨type, _, askedType, used⟩ := Work.bind_eq_ok.mp used
    obtain ⟨classified, _, asked, used⟩ := Work.bind_eq_ok.mp used
    obtain ⟨isBinding, rfl⟩ := requireKind_eq_ok.mp met
    obtain ⟨typed, rfl⟩ := ask_eq_ok.mp askedType
    obtain ⟨classifies, rfl⟩ := Work.lift_eq_ok.mp asked
    obtain ⟨answer, _, answered, answers⟩ := Work.bind_eq_ok.mp used
    cases answer with
    | none =>
      obtain ⟨rfl, rfl⟩ := dispose_eq_none.mp answered
      obtain ⟨name, _, askedName, ended⟩ := Work.bind_eq_ok.mp answers
      obtain ⟨named, rfl⟩ := Work.lift_eq_ok.mp askedName
      obtain ⟨same, rfl⟩ := Work.pure_eq_ok.mp ended
      exact ⟨isBinding, type, name, typed, classifies, named, (Except.error.inj same).symm, rfl⟩
    | some disposal =>
      obtain ⟨_, -, impossible⟩ := Work.map_eq_ok.mp answers
      cases impossible
  · rintro ⟨isBinding, type, name, typed, classifies, named, rfl, rfl⟩
    refine Work.bind_eq_ok.mpr ⟨(), after, requireKind_eq_ok.mpr ⟨isBinding, rfl⟩, ?_⟩
    refine Work.bind_eq_ok.mpr ⟨type, after, ask_eq_ok.mpr ⟨typed, rfl⟩, ?_⟩
    refine (Work.lift_bind_of_ok classifies).trans ?_
    refine Work.bind_eq_ok.mpr ⟨none, after, dispose_eq_none.mpr ⟨rfl, rfl⟩, ?_⟩
    exact (Work.lift_bind_of_ok named).trans rfl

end Resource

end Construction

end Foreach
