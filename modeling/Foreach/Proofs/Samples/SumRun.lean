import Foreach.Proofs.Lowering.LoopBlock
import Foreach.Proofs.Samples.Registered
import Foreach.Proofs.Samples.SumTree

/-!
# The sum of the items of a fixture

A sum goes through the enumerator's bodies, so its invariant ties three numbers together: how many
items were taken, the index that the enumerator stands at, and the total. From there the run is the
meaning of the lowered loop, and the meaning is the block of the tree.
-/
namespace Foreach.Samples

/-- The sum of some items, as it comes out in 64 bits. -/
def wrappedSum (items : List Int64) : Int64 := Int64.ofInt (items.map Int64.toInt).sum

/-- One more item is added to what there was before. -/
theorem wrappedSum_take_succ {items : List Int64} {taken : Nat} (more : taken < items.length) :
    wrappedSum (items.take (taken + 1)) = wrappedSum (items.take taken) + items[taken] := by
  have taken_next : items.take (taken + 1) = items.take taken ++ [items[taken]] := by
    rw [List.take_add_one, List.getElem?_eq_getElem more]
    rfl
  rw [taken_next, wrappedSum, List.map_append, List.sum_append, Int64.ofInt_add]
  simp [wrappedSum]

/-- The index of an enumerator after some items were taken. -/
def cursor (taken : Nat) : Int64 := Int64.ofInt (taken - 1)

/-- The heap of a sum, after some items were taken and some enumerators disposed of. -/
def heapAfter (fixture : Fixture) (items : List Int64) (taken : Nat) (disposed : Int64) : Heap where
  objects := #[⟨fixture.enumerable, [.array ⟨0⟩, .int disposed]⟩,
    ⟨fixture.enumerator, [.array ⟨0⟩, .int (cursor taken), .object ⟨0⟩]⟩]
  arrays := #[(items.map Value.int).toArray]

/-- The index after the next item is the next index. -/
theorem nextIndex_cursor {taken : Nat} (small : taken < 2 ^ 63) :
    nextIndex (cursor taken) = cursor (taken + 1) := by
  have before : (cursor taken).toInt = taken - 1 :=
    Int64.toInt_ofInt_of_le (by omega) (by omega)
  have notLast : cursor taken ≠ Int64.maxValue := by
    intro same
    rw [same, Int64.toInt_maxValue] at before
    omega
  have after : ((taken + 1 : Nat) : Int) - 1 = (taken - 1) + 1 := by omega
  rw [nextIndex, if_neg notLast, cursor, cursor, after, Int64.ofInt_add (taken - 1) 1]
  rfl

/-- The index after some items is the number of items before it. -/
theorem toInt_cursor_succ {taken : Nat} (small : taken < 2 ^ 63) :
    (cursor (taken + 1)).toInt = taken := by
  have same : ((taken + 1 : Nat) : Int) - 1 = taken := by omega
  rw [cursor, same]
  exact Int64.toInt_ofInt_of_le (by omega) (by omega)

/-- There is an item at the next index if not all items were taken. -/
theorem isInside_cursor (elements : Array Value) {taken : Nat} (small : taken < 2 ^ 63) :
    Heap.isInside elements (cursor (taken + 1)) = decide (taken < elements.size) := by
  have index := toInt_cursor_succ small
  have positive : (0 : Int64) ≤ cursor (taken + 1) := by
    rw [Int64.le_iff_toInt_le, index]
    exact Int.natCast_nonneg taken
  rw [Heap.isInside, index, Int.toNat_natCast, decide_eq_true positive, Bool.true_and]

/-- The current item is what the heap has at the index of the enumerator. -/
theorem current_of_element? {heap : Heap} {state : ObjectId} {elements : ArrayId} {index : Int64}
    {item : Value} (stored : HeapAction.arrayField state itemsField heap = .ok (.ok elements, heap))
    (stands : HeapAction.intField state indexField heap = .ok (.ok index, heap))
    (found : heap.element? elements index = some item) :
    Samples.current (.object state) [] heap = .ok (.ok item, heap) := by
  have received : HeapAction.given (Value.object state).asObject heap = .ok (.ok state, heap) := rfl
  have got : (get : HeapAction Heap) heap = .ok (.ok heap, heap) := rfl
  rw [Samples.current, Work.failing_bind_of_ok received, Work.failing_bind_of_ok stored,
    Work.failing_bind_of_ok stands, Work.failing_bind_of_ok got, found]
  rfl

section Bodies

variable {fixture : Fixture} {items : List Int64} {taken : Nat} {disposed : Int64}

/-- An enumerator is added to the heap, before the first item. -/
theorem getEnumerator_apply :
    Samples.getEnumerator fixture.enumerator (.object ⟨0⟩) []
        (newEnumerable .empty fixture items).1 =
      .ok (.ok (.object ⟨1⟩), heapAfter fixture items 0 0) := rfl

/-- The enumerator goes on to the next item as long as there is one. -/
theorem moveNext_apply (small : items.length < 2 ^ 63) (within : taken ≤ items.length) :
    Samples.moveNext (.object ⟨1⟩) [] (heapAfter fixture items taken disposed) =
      .ok (.ok (.bool (taken < items.length)),
        heapAfter fixture items (if taken < items.length then taken + 1 else taken) disposed) := by
  have next := nextIndex_cursor (show taken < 2 ^ 63 by omega)
  have inside := isInside_cursor (items.map Value.int).toArray
    (show taken < 2 ^ 63 by omega)
  have size : (items.map Value.int).toArray.size = items.length := by simp
  have asked : Samples.moveNext (.object ⟨1⟩) [] (heapAfter fixture items taken disposed) =
      (if Heap.isInside (items.map Value.int).toArray (nextIndex (cursor taken)) then do
        HeapAction.setField ⟨1⟩ indexField (.int (nextIndex (cursor taken)))
        return .bool true
      else return .bool false : HeapAction Value) (heapAfter fixture items taken disposed) := rfl
  rw [asked, next, inside, size]
  by_cases more : taken < items.length
  · rw [if_pos more, decide_eq_true more, if_pos rfl]
    rfl
  · rw [if_neg more, decide_eq_false more, if_neg (by simp)]
    rfl

/-- The item at the index of the enumerator is the last that was taken. -/
theorem current_apply (small : items.length < 2 ^ 63) (more : taken < items.length) :
    Samples.current (.object ⟨1⟩) [] (heapAfter fixture items (taken + 1) disposed) =
      .ok (.ok (.int items[taken]), heapAfter fixture items (taken + 1) disposed) := by
  have index := toInt_cursor_succ (show taken < 2 ^ 63 by omega)
  have positive : (0 : Int64) ≤ cursor (taken + 1) := by
    rw [Int64.le_iff_toInt_le, index]
    exact Int.natCast_nonneg taken
  have found : (heapAfter fixture items (taken + 1) disposed).element? ⟨0⟩ (cursor (taken + 1)) =
      some (.int items[taken]) := by
    have read : (heapAfter fixture items (taken + 1) disposed).array ⟨0⟩ =
        .ok (items.map Value.int).toArray := rfl
    rw [Heap.element?, read, Except.toOption, Option.bind_some, if_pos positive, index,
      Int.toNat_natCast]
    simp [more]
  exact current_of_element? rfl rfl found

/-- A disposal is counted. -/
theorem dispose_apply :
    Samples.dispose (.object ⟨1⟩) [] (heapAfter fixture items taken 0) =
      .ok (.ok .void, heapAfter fixture items taken 1) := rfl

end Bodies

/-- A program over the fixtures. -/
def programOf (arena : Arena) : Program := ⟨registered.registry, arena, registered.natives⟩

/-- A call on an object of a type runs the body that the member runs for the type. -/
theorem callMember_of_runs (arena : Arena) {type : TypeId} {member : MemberId} {body : NativeBody}
    (runs : Runs type member body) {object : ObjectId} (before : Machine) {heap : Heap}
    {value : Value} (typed : before.heap.runtimeType? (.object object) = some type)
    (ran : body (.object object) [] before.heap = .ok (.ok value, heap)) :
    (programOf arena).callMember (.object object) member [] before =
      .ok (.ok value, { before with heap }) := by
  obtain ⟨target, implemented, defined⟩ := runs
  have found : (programOf arena).registry.findImplementation? type member = .ok (some target) :=
    implemented
  have dispatched : (programOf arena).dispatch before.heap (.object object) member =
      .ok target := by
    rw [Program.dispatch, typed]
    simp only [found]
    rfl
  have known : (programOf arena).natives.body? target = some body := defined
  have present : Value.object object ≠ .null := nofun
  rw [Program.callMember_of_body present dispatched known]
  exact Evaluation.onHeap_of_ok ran

/-- The scopes of a sum, with what is known in its block. -/
def scopesWith (block : Scope) : Environment where
  current := block
  enclosing := [[(SumProgram.enumerable, some (.object ⟨0⟩))], []]

/-- The scopes of a sum in its loop. -/
def scopesAt (sum : Int64) : Environment :=
  scopesWith [(⟨4⟩, some (.object ⟨1⟩)), (SumProgram.total, some (.int sum))]

section Rounds

variable {program : SumProgram} {policy : Policy} {fixture : Fixture} {block : NodeId}
  {loop : ForeachLoop} {nodes : LoopNodes} {items : List Int64} {taken : Nat}

/-- The body of the loop adds the item that was taken last. -/
theorem evaluate_body
    (form : program.Form registered.registry policy fixture.enumerable block loop nodes)
    (serves : Serves fixture loop.members loop.dispose) (small : items.length < 2 ^ 63)
    (more : taken < items.length) (sum : Int64) (bound : Nat) :
    (programOf program.arena).evaluate (bound + 3) loop.body
        ⟨scopesAt sum, heapAfter fixture items (taken + 1) 0⟩ =
      .ok (.ok (.int (sum + items[taken])),
        ⟨scopesAt (sum + items[taken]), heapAfter fixture items (taken + 1) 0⟩) := by
  obtain ⟨item, added, read⟩ := form.body
  have holder : (programOf program.arena).arena.kind loop.enumerator = .ok (.var "enumerator") :=
    form.block.enumerator
  rw [form.enumerator] at read holder
  have value : (programOf program.arena).evaluate (bound + 2) item
      ⟨scopesAt sum, heapAfter fixture items (taken + 1) 0⟩ =
        .ok (.ok (.int items[taken]), ⟨scopesAt sum, heapAfter fixture items (taken + 1) 0⟩) := by
    rw [Program.evaluate_of_kind read, Program.evaluateNode,
      Work.failing_bind_of_ok (Program.evaluate_variable holder rfl _)]
    exact callMember_of_runs _ serves.current _ rfl (current_apply small more)
  rw [Program.evaluate_of_kind added, Program.evaluateNode, Work.failing_bind_of_ok value]
  rfl

/-- The rounds that are left add the items that are left. -/
theorem rounds_apply
    (form : program.Form registered.registry policy fixture.enumerable block loop nodes)
    (serves : Serves fixture loop.members loop.dispose) (small : items.length < 2 ^ 63)
    {left : Nat} (split : taken + left = items.length) :
    (programOf program.arena).rounds loop (.object ⟨1⟩) (left + 3)
        ⟨scopesAt (wrappedSum (items.take taken)), heapAfter fixture items taken 0⟩ =
      .ok (.ok .void, ⟨scopesAt (wrappedSum items), heapAfter fixture items items.length 0⟩) := by
  induction left generalizing taken with
  | zero =>
    have none : ¬ taken < items.length := by omega
    have asked := callMember_of_runs program.arena serves.moveNext
      ⟨scopesAt (wrappedSum (items.take taken)), heapAfter fixture items taken 0⟩ rfl
      (moveNext_apply small (by omega))
    rw [Program.rounds, Program.askNext, Work.failing_bind_of_ok asked, decide_eq_false none,
      if_neg none]
    obtain rfl : taken = items.length := by omega
    rw [List.take_length]
    rfl
  | succ left ih =>
    have more : taken < items.length := by omega
    have asked := callMember_of_runs program.arena serves.moveNext
      ⟨scopesAt (wrappedSum (items.take taken)), heapAfter fixture items taken 0⟩ rfl
      (moveNext_apply small (by omega))
    have added := evaluate_body form serves small more (wrappedSum (items.take taken)) left
    rw [Program.rounds, Program.askNext, Work.failing_bind_of_ok asked, decide_eq_true more,
      if_pos more]
    show ((programOf program.arena).evaluate (left + 3) loop.body >>= fun _ => _) _ = _
    rw [Work.failing_bind_of_ok added, ← wrappedSum_take_succ more]
    exact ih (by omega)

/-- Enumeration adds all items, and disposes of the enumerator once. -/
theorem enumerate_apply
    (form : program.Form registered.registry policy fixture.enumerable block loop nodes)
    (serves : Serves fixture loop.members loop.dispose) (small : items.length < 2 ^ 63) :
    (programOf program.arena).enumerate loop (items.length + 3)
        ⟨scopesAt 0, heapAfter fixture items 0 0⟩ =
      .ok (.ok .void, ⟨scopesAt (wrappedSum items), heapAfter fixture items items.length 1⟩) := by
  have holds : (scopesAt 0).lookup loop.enumerator = .ok (.object ⟨1⟩) := by
    rw [form.enumerator]
    rfl
  have ran : (programOf program.arena).rounds loop (.object ⟨1⟩) (items.length + 3)
      ⟨scopesAt 0, heapAfter fixture items 0 0⟩ = _ :=
    rounds_apply form serves small (Nat.zero_add items.length)
  have disposed := callMember_of_runs program.arena serves.dispose
    ⟨scopesAt (wrappedSum items), heapAfter fixture items items.length 0⟩ rfl dispose_apply
  rw [Program.enumerate_of_lookup holds, Work.failing_bind_of_ok (Evaluation.attempt_of_ok ran),
    Program.disposeOf, if_neg (by simp), bind_assoc, Work.failing_bind_of_ok disposed]
  rfl

/-- The enumerator of a sum is got from its argument. -/
theorem acquire_apply
    (form : program.Form registered.registry policy fixture.enumerable block loop nodes)
    (serves : Serves fixture loop.members loop.dispose) (bound : Nat) :
    (programOf program.arena).acquire loop (bound + 1)
        ⟨scopesWith [(⟨4⟩, none), (SumProgram.total, none)],
          (newEnumerable .empty fixture items).1⟩ =
      .ok (.ok (.object ⟨1⟩), ⟨scopesWith [(⟨4⟩, none), (SumProgram.total, none)],
        heapAfter fixture items 0 0⟩) := by
  have known : (programOf program.arena).arena.kind SumProgram.enumerable =
      .ok (.parameter "enumerable") := form.opened.kind rfl
  rw [Program.acquire, form.subject, Program.evaluate_of_kind known, Program.evaluateNode,
    Work.failing_bind_of_ok (Program.read_of_lookup rfl)]
  exact callMember_of_runs program.arena serves.getEnumerator _ rfl getEnumerator_apply

/-- The preamble of a sum sets the total to 0. -/
theorem preamble_apply
    (form : program.Form registered.registry policy fixture.enumerable block loop nodes)
    (bound : Nat) (heap : Heap) :
    Program.runEach ((programOf program.arena).evaluate (bound + 2)) loop.plan.preamble
        ⟨scopesWith [(⟨4⟩, some (.object ⟨1⟩)), (SumProgram.total, none)], heap⟩ =
      .ok (.ok (), ⟨scopesAt 0, heap⟩) := by
  have assignment : (programOf program.arena).arena.kind SumProgram.start =
      .ok (.assign SumProgram.total ⟨2⟩) := form.opened.kind rfl
  have zero : (programOf program.arena).arena.kind ⟨2⟩ = .ok (.int 0) := form.opened.kind rfl
  rw [form.plan]
  show (((programOf program.arena).evaluate (bound + 2) SumProgram.start >>=
    fun _ => pure PUnit.unit) >>= fun _ => pure PUnit.unit) _ = _
  rw [Program.evaluate_of_kind assignment, Program.evaluateNode, Program.evaluate_of_kind zero]
  rfl

/-- The machine of a sum when its parameter has its value. -/
def called (heap : Heap) : Machine :=
  ⟨⟨[(SumProgram.enumerable, some (.object ⟨0⟩))], [[]]⟩, heap⟩

/-- The loop of a sum means the sum of the items. -/
theorem meaning_apply
    (form : program.Form registered.registry policy fixture.enumerable block loop nodes)
    (serves : Serves fixture loop.members loop.dispose) (small : items.length < 2 ^ 63) :
    (programOf program.arena).meaning loop (items.length + 3)
        (called (newEnumerable .empty fixture items).1) =
      .ok (.ok (.int (wrappedSum items)),
        called (heapAfter fixture items items.length 1)) := by
  have declared : Program.declareAll (loop.enumerator :: loop.plan.locals)
      (called (newEnumerable .empty fixture items).1).enter =
      .ok (.ok (), ⟨scopesWith [(⟨4⟩, none), (SumProgram.total, none)],
        (newEnumerable .empty fixture items).1⟩) := by
    rw [form.enumerator, form.plan, Program.declareAll_apply]
    rfl
  have written : (programOf program.arena).write loop.enumerator (.object ⟨1⟩)
      ⟨scopesWith [(⟨4⟩, none), (SumProgram.total, none)], heapAfter fixture items 0 0⟩ =
      .ok (.ok (), ⟨scopesWith [(⟨4⟩, some (.object ⟨1⟩)), (SumProgram.total, none)],
        heapAfter fixture items 0 0⟩) := by
    rw [form.enumerator]
    rfl
  have result : (programOf program.arena).arena.kind SumProgram.total =
      .ok (.var "sum") := form.opened.kind rfl
  refine Evaluation.inScope_eq_ok.mpr
    ⟨⟨scopesAt (wrappedSum items), heapAfter fixture items items.length 1⟩, ?_, rfl⟩
  rw [Work.failing_bind_of_ok declared, Work.failing_bind_of_ok (acquire_apply form serves _),
    Work.failing_bind_of_ok written, Work.failing_bind_of_ok (preamble_apply form _ _),
    Work.failing_bind_of_ok (enumerate_apply form serves small), form.plan]
  exact Program.evaluate_variable result rfl _

/-- A call of a sum gives the sum of the items. -/
theorem invoke_apply
    (form : program.Form registered.registry policy fixture.enumerable block loop nodes)
    (serves : Serves fixture loop.members loop.dispose) (small : items.length < 2 ^ 63) :
    (programOf program.arena).invoke (SumProgram.evaluationBound items) program.root
        [.object ⟨0⟩] (Machine.start (newEnumerable .empty fixture items).1) =
      .ok (.ok (.int (wrappedSum items)),
        Machine.start (heapAfter fixture items items.length 1)) := by
  have ran : (programOf program.arena).evaluate (SumProgram.evaluationBound items) block
      (called (newEnumerable .empty fixture items).1) = .ok (.ok (.int (wrappedSum items)),
        called (heapAfter fixture items items.length 1)) :=
    Program.evaluate_mono (by rw [SumProgram.evaluationBound]; omega)
      (Program.block_of_meaning form.block form.neverAssigns form.neverBreaks
        (meaning_apply form serves small))
  have bound : Program.bindParameters [SumProgram.enumerable] [.object ⟨0⟩]
      (Machine.start (newEnumerable .empty fixture items).1).enter =
      .ok (.ok (), called (newEnumerable .empty fixture items).1) := rfl
  have inner : Evaluation.inScope (do
        Program.bindParameters [SumProgram.enumerable] [.object ⟨0⟩]
        (programOf program.arena).evaluate (SumProgram.evaluationBound items) block)
      (Machine.start (newEnumerable .empty fixture items).1) =
      .ok (.ok (.int (wrappedSum items)),
        Machine.start (heapAfter fixture items items.length 1)) := by
    refine Evaluation.inScope_eq_ok.mpr
      ⟨called (heapAfter fixture items items.length 1), ?_, rfl⟩
    rw [Work.failing_bind_of_ok bound]
    exact ran
  rw [Program.invoke_of_lambda form.root rfl, Evaluation.finish]
  simp only [inner]
  rfl

end Rounds

/-- The sum over a fixture with a disposal is a loop whose members run the fixture's bodies. -/
theorem sum_of_isDisposable {kind : FixtureKind} (disposable : kind.isDisposable = true)
    (policy : Policy) : ∃ fixture program block loop nodes,
      registered.fixture kind = .ok fixture ∧
      SumProgram.lower registered.registry policy fixture.enumerable = .ok (.ok program) ∧
      program.Form registered.registry policy fixture.enumerable block loop nodes ∧
      Serves fixture loop.members loop.dispose := by
  obtain ⟨fixture, members, strategy, method, program, found, resolved, isStrategy, disposes,
    serves, lowered⟩ := serves_of_isDisposable disposable policy
  obtain ⟨block, loop, nodes, form⟩ := SumProgram.form_of_lower lowered
  obtain rfl : loop.members = members :=
    Except.ok.inj (Except.ok.inj (form.members.symm.trans resolved))
  obtain rfl : loop.strategy = strategy := Option.some.inj (form.disposal.symm.trans isStrategy)
  obtain rfl : loop.dispose = method := Except.ok.inj (form.dispose.symm.trans disposes)
  exact ⟨fixture, program, block, loop, nodes, found, lowered, form, serves⟩

/-- A run of a sum that was lowered calls it, and counts the disposals. -/
theorem run_of_invoke {program : SumProgram} {policy : Policy} {fixture : Fixture}
    {items : List Int64} {sum : Int64} {taken : Nat} {disposed : Int64}
    (lowered : SumProgram.lower registered.registry policy fixture.enumerable = .ok (.ok program))
    (ran : (programOf program.arena).invoke (SumProgram.evaluationBound items) program.root
        [.object ⟨0⟩] (Machine.start (newEnumerable .empty fixture items).1) =
      .ok (.ok (.int sum), Machine.start (heapAfter fixture items taken disposed))) :
    SumProgram.run registered policy fixture items = .ok (.ok ⟨sum, disposed⟩) := by
  rw [SumProgram.run, lowered]
  show ((programOf program.arena).invoke (SumProgram.evaluationBound items) program.root
    [.object ⟨0⟩] (Machine.start (newEnumerable .empty fixture items).1) >>= fun _ => _) = _
  rw [ran]
  rfl

/-- Sums are right. Under every policy and for all items, as long as a 64-bit cursor can count them,
as it can in every list that memory holds, the sum over a fixture whose enumerator can be disposed
of ends within its bound, gives the sum of the items as it comes out in 64 bits, and disposes of the
enumerator once. Of a fixture whose enumerator cannot be disposed of there is no sum, and the error
has the enumerator's name. -/
theorem run_sums (policy : Policy) (items : List Int64) (small : items.length < 2 ^ 63) :
    ∃ samples, build = .ok samples ∧ ∀ kind : FixtureKind, ∃ fixture,
      samples.fixture kind = .ok fixture ∧
      (kind.isDisposable = true → SumProgram.run samples policy fixture items =
        .ok (.ok ⟨Int64.ofInt (items.map Int64.toInt).sum, 1⟩)) ∧
      (kind.isDisposable = false → ∃ name,
        samples.registry.metadataName fixture.enumerator = .ok name ∧
        SumProgram.lower samples.registry policy fixture.enumerable =
          .ok (.error (.notDisposable name)) ∧
        SumProgram.run samples policy fixture items =
          .ok (.error (.lowering (.notDisposable name)))) := by
  refine ⟨registered, build_eq, fun kind => ?_⟩
  cases disposable : kind.isDisposable with
  | true =>
    obtain ⟨fixture, program, block, loop, nodes, found, lowered, form, serves⟩ :=
      sum_of_isDisposable disposable policy
    refine ⟨fixture, found, fun _ => ?_, nofun⟩
    exact run_of_invoke lowered (invoke_apply form serves small)
  | false =>
    obtain ⟨fixture, name, found, named, refused⟩ := refused_of_not_isDisposable disposable policy
    refine ⟨fixture, found, nofun, fun _ => ⟨name, named, refused, ?_⟩⟩
    rw [SumProgram.run, refused]
    rfl

/-- A sum beyond the greatest integer goes on from the least one. -/
theorem run_sums_beyond_maxValue :
    [Int64.maxValue, 1].length < 2 ^ 63 ∧ ∃ samples, build = .ok samples ∧ ∃ fixture,
      samples.fixture .disposableByRefLike = .ok fixture ∧
      SumProgram.run samples {} fixture [Int64.maxValue, 1] = .ok (.ok ⟨Int64.minValue, 1⟩) := by
  obtain ⟨samples, built, sums⟩ := run_sums {} [Int64.maxValue, 1] (by decide)
  obtain ⟨fixture, found, disposed, -⟩ := sums .disposableByRefLike
  have wrapped : Int64.ofInt ([Int64.maxValue, 1].map Int64.toInt).sum = Int64.minValue := by
    decide
  refine ⟨by decide, samples, built, fixture, found, ?_⟩
  rw [disposed rfl, wrapped]

end Foreach.Samples
