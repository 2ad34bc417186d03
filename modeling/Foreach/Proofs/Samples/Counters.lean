import Foreach.Proofs.Evaluation.HeapSteps
import Foreach.Proofs.Samples.SumRun

/-!
# What the bodies of the fixtures do to the heap

The bodies read fields and follow handles on whatever heap they are run, which need not look like
one that fixtures are on. Each of them does one of three things: it leaves the heap, as it does
whenever it fails (`failed_body`); it sets one counter, the second field of some object, which held
an integer before; or it is `GetEnumerator` and makes an enumerator of its fixture.

Since evaluation works on the heap through bodies alone, these are all effects that evaluation of
any tree has on any heap (`calls_count_alone`).
-/
namespace Foreach

/-- What an object has become when its counter was set any number of times. The counter is its
second field, and is only set if it holds an integer. -/
structure HeapObject.Counted (held now : HeapObject) : Prop where
  /-- The type stays. -/
  type : now.type = held.type
  /-- There are as many fields. -/
  size : now.fields.length = held.fields.length
  /-- The other fields stay. -/
  others : ∀ place, place ≠ 1 → now.fields[place]? = held.fields[place]?
  /-- The counter stays, or it held an integer and holds one. -/
  counter : now.fields[1]? = held.fields[1]? ∨
    ∃ old new, held.fields[1]? = some (.int old) ∧ now.fields[1]? = some (.int new)

/-- An object has become what it is. -/
theorem HeapObject.Counted.refl (held : HeapObject) : held.Counted held :=
  ⟨rfl, rfl, fun _ _ => rfl, .inl rfl⟩

/-- An object whose counter is set has become what it then is. -/
theorem HeapObject.Counted.set {held : HeapObject} {old : Int64}
    (holds : held.fields[1]? = some (.int old)) (new : Int64) :
    held.Counted { held with fields := held.fields.set 1 (.int new) } where
  type := rfl
  size := List.length_set ..
  others _ differs := List.getElem?_set_ne (Ne.symm differs)
  counter := by
    have inside := (List.getElem?_eq_some_iff.mp holds).1
    exact .inr ⟨old, new, holds, List.getElem?_set_self inside⟩

/-- What becomes of what an object became, the object has become. -/
theorem HeapObject.Counted.trans {first second third : HeapObject}
    (earlier : first.Counted second) (later : second.Counted third) : first.Counted third where
  type := later.type.trans earlier.type
  size := later.size.trans earlier.size
  others place differs := (later.others place differs).trans (earlier.others place differs)
  counter := by
    rcases earlier.counter with same | ⟨old, between, isOld, isBetween⟩
    · rw [← same]
      exact later.counter
    · refine .inr ⟨old, ?_⟩
      rcases later.counter with same | ⟨_, new, -, isNew⟩
      · exact ⟨between, isOld, same.trans isBetween⟩
      · exact ⟨new, isOld, isNew⟩

namespace Heap

/-- A counter was set: the second field of an object, from an integer to another. -/
def SetsCounter (before after : Heap) : Prop :=
  ∃ object old new, before.field object 1 = .ok (.int old) ∧
    before.setField object 1 (.int new) = .ok after

/-- What a heap has of an earlier one: the arrays, and the objects, whose counters may have been
set. -/
structure Counts (before after : Heap) : Prop where
  /-- There are the same arrays. -/
  arrays : after.arrays = before.arrays
  /-- There are all objects. -/
  objects : ∀ {id held}, before.object id = .ok held →
    ∃ now, after.object id = .ok now ∧ held.Counted now

variable {before after : Heap}

/-- An object that is found is at its position. -/
theorem object_eq_ok {heap : Heap} {id : ObjectId} {held : HeapObject} :
    heap.object id = .ok held ↔ heap.objects[id.index]? = some held := by
  unfold object
  cases heap.objects[id.index]? <;> simp

/-- A field that is found is in the object. -/
theorem field_eq_ok {heap : Heap} {id : ObjectId} {index : Nat} {value : Value} :
    heap.field id index = .ok value ↔
      ∃ held, heap.objects[id.index]? = some held ∧ held.fields[index]? = some value := by
  rw [field, object]
  cases heap.objects[id.index]? with
  | none => simp [bind, Except.bind]
  | some held =>
    cases read : held.fields[index]? <;> simp [read, bind, Except.bind, pure, Except.pure]

/-- A heap has what it has. -/
theorem Counts.refl (heap : Heap) : heap.Counts heap := ⟨rfl, fun known => ⟨_, known, .refl _⟩⟩

/-- What a heap has of one that has it of an earlier one, it has of the earlier one. -/
theorem Counts.trans {first second third : Heap} (earlier : first.Counts second)
    (later : second.Counts third) : first.Counts third := by
  refine ⟨later.arrays.trans earlier.arrays, fun known => ?_⟩
  obtain ⟨between, isBetween, counted⟩ := earlier.objects known
  obtain ⟨now, isNow, counted'⟩ := later.objects isBetween
  exact ⟨now, isNow, counted.trans counted'⟩

/-- A heap on which a counter was set has all that was there, and nothing else. -/
theorem SetsCounter.counts (sets : before.SetsCounter after) :
    before.Counts after ∧ after.objects.size = before.objects.size := by
  obtain ⟨object, old, new, isOld, changed⟩ := sets
  obtain ⟨found, present, holds⟩ := field_eq_ok.mp isOld
  have inside := (List.getElem?_eq_some_iff.mp holds).1
  rw [setField, present] at changed
  simp only [inside, if_true] at changed
  cases changed
  refine ⟨⟨rfl, fun {id held} known => ?_⟩, Array.size_modify ..⟩
  rw [object_eq_ok] at known
  by_cases same : object.index = id.index
  · rw [same, known] at present
    obtain rfl := Option.some.inj present
    refine ⟨{ held with fields := held.fields.set 1 (.int new) }, ?_, .set holds new⟩
    rw [object_eq_ok, Array.getElem?_modify, if_pos same, known]
    rfl
  · refine ⟨held, ?_, .refl held⟩
    rw [object_eq_ok, Array.getElem?_modify, if_neg same]
    exact known

/-- A heap on which an object was made has all that was there. -/
theorem counts_newObject (heap : Heap) (type : TypeId) (fields : List Value) :
    heap.Counts (heap.newObject type fields).1 := by
  refine ⟨rfl, fun {id held} known => ⟨held, ?_, .refl held⟩⟩
  rw [object_eq_ok] at known ⊢
  have inside := (Array.getElem?_eq_some_iff.mp known).1
  rw [newObject, Array.getElem?_push, if_neg (Nat.ne_of_lt inside)]
  exact known

end Heap

namespace Samples

section Bodies

variable {receiver : Value} {arguments : List Value} {before after : Heap}
  {result : Except EvaluationError Value}

/-- To read the current item is to look at the heap. -/
theorem looks_current : HeapAction.Looks (current receiver arguments) := by
  refine (HeapAction.looks_given _).bind fun state => ?_
  refine (HeapAction.looks_arrayField _ _).bind fun items => ?_
  refine (HeapAction.looks_intField _ _).bind fun index => ?_
  intro before result after ended
  have got : (get : HeapAction Heap) before = .ok (.ok before, before) := rfl
  rw [Work.failing_bind_of_ok got] at ended
  cases found : before.element? items index <;> simp only [found] at ended <;> cases ended <;> rfl

/-- A counter that was read is set, or the heap is left. -/
theorem setCounter_cases {object : ObjectId} {old new : Int64} {answer : Value}
    (read : HeapAction.intField object 1 before = .ok (.ok old, before))
    (ended : (HeapAction.setField object 1 (.int new) >>= fun _ => pure answer : HeapAction Value)
      before = .ok (result, after)) :
    after = before ∨ (∃ value, result = .ok value) ∧ before.SetsCounter after := by
  obtain ⟨_, middle, changed, answered⟩ | ⟨error, changed, -⟩ := Work.failing_bind_eq_ok.mp ended
  · cases answered
    rcases HeapAction.setField_cases changed with ⟨-, _, impossible⟩ | ⟨-, sets⟩
    · cases impossible
    · exact .inr ⟨⟨answer, rfl⟩, object, old, new, HeapAction.field_of_intField read, sets⟩
  · rcases HeapAction.setField_cases changed with ⟨same, -⟩ | ⟨impossible, -⟩
    · exact .inl same
    · cases impossible

/-- To go on to the next item is to set the index of an enumerator, or to leave the heap. -/
theorem moveNext_cases (ended : moveNext receiver arguments before = .ok (result, after)) :
    after = before ∨ (∃ value, result = .ok value) ∧ before.SetsCounter after := by
  unfold moveNext at ended
  refine (HeapAction.looks_given _).bind_or ended fun state _ ended => ?_
  refine (HeapAction.looks_arrayField _ _).bind_or ended fun items _ ended => ?_
  refine (HeapAction.looks_ask _).bind_or ended fun elements _ ended => ?_
  refine (HeapAction.looks_intField _ _).bind_or ended fun index read ended => ?_
  split at ended
  case isTrue => exact setCounter_cases read ended
  case isFalse =>
    cases ended
    exact .inl rfl

/-- The index is set on any object with an array in front of it. -/
example : moveNext (.object ⟨0⟩) [] ⟨#[⟨.object, [.array ⟨0⟩, .int 0]⟩], #[#[.null, .null]]⟩ =
    .ok (.ok (.bool true), ⟨#[⟨.object, [.array ⟨0⟩, .int 1]⟩], #[#[.null, .null]]⟩) := rfl

/-- To dispose of an enumerator is to set the counter of its owner, or to leave the heap. -/
theorem dispose_cases (ended : dispose receiver arguments before = .ok (result, after)) :
    after = before ∨ (∃ value, result = .ok value) ∧ before.SetsCounter after := by
  unfold dispose at ended
  refine (HeapAction.looks_given _).bind_or ended fun state _ ended => ?_
  refine (HeapAction.looks_objectField _ _).bind_or ended fun owner _ ended => ?_
  refine (HeapAction.looks_intField _ _).bind_or ended fun disposals read ended => ?_
  obtain ⟨_, middle, required, ended⟩ | ⟨_, required, -⟩ := Work.failing_bind_eq_ok.mp ended
  · obtain ⟨_, -, -, rfl⟩ := Work.failing_lift_eq_ok.mp required
    exact setCounter_cases read ended
  · obtain ⟨_, -, impossible, -⟩ := Work.failing_lift_eq_ok.mp required
    cases impossible

/-- To give an enumerator is to make one, before its first item, or to leave the heap. -/
theorem getEnumerator_cases {enumerator : TypeId}
    (ended : getEnumerator enumerator receiver arguments before = .ok (result, after)) :
    after = before ∧ (∃ error, result = .error error) ∨ ∃ items owner,
      result = .ok (.object ⟨before.objects.size⟩) ∧
        after = (before.newObject enumerator [items, .int (-1), .object owner]).1 := by
  unfold getEnumerator at ended
  rcases (HeapAction.looks_given _).bind_cases ended with failed | ⟨owner, -, ended⟩
  · exact .inl failed
  rcases (HeapAction.looks_ask _).bind_cases ended with failed | ⟨items, -, ended⟩
  · exact .inl failed
  cases ended
  exact .inr ⟨items, owner, rfl, rfl⟩

end Bodies

/-- A fixture's `GetEnumerator` made an enumerator of the fixture: it ran, and gave an object that
is new and stands before its first item. -/
structure Makes (samples : Samples) (fixture : Fixture) (made : ObjectId) (before after : Heap) :
    Prop where
  /-- The method ran. -/
  ran : ∃ member source body receiver arguments,
    samples.registry.member? member = some source ∧ source.owner = fixture.enumerable ∧
      source.name = contractNames.getEnumerator ∧ samples.natives.body? member = some body ∧
        body receiver arguments before = .ok (.ok (.object made), after)
  /-- The object is new. -/
  isNew : made.index = before.objects.size
  /-- It is an enumerator before its first item. -/
  state : ∃ items owner,
    after.object made = .ok ⟨fixture.enumerator, [items, .int (-1), .object owner]⟩

/-- What became of a heap: what was there is as it was but for counters, and all that is new are
enumerators of fixtures, each made by `GetEnumerator` on the way. -/
structure Frames (samples : Samples) (before after : Heap) : Prop where
  /-- What was there is as it was, but for counters. -/
  counts : before.Counts after
  /-- What is new was made by `GetEnumerator`, and is as it was made but for its counter. -/
  made : ∀ {id now}, after.object id = .ok now → before.objects.size ≤ id.index →
    ∃ fixture ∈ samples.fixtures, ∃ earlier later held, samples.natives.Steps before earlier ∧
      samples.Makes fixture id earlier later ∧ later.object id = .ok held ∧ held.Counted now ∧
        samples.natives.Steps later after

/-- The methods that give the enumerators of fixtures. -/
def getEnumerators : List (MemberId × Fixture) :=
  [(⟨15⟩, ⟨.valueType, ⟨19⟩, ⟨20⟩⟩), (⟨26⟩, ⟨.disposableValueType, ⟨26⟩, ⟨27⟩⟩),
    (⟨37⟩, ⟨.disposableReferenceType, ⟨33⟩, ⟨34⟩⟩), (⟨45⟩, ⟨.byRefLike, ⟨40⟩, ⟨41⟩⟩),
    (⟨56⟩, ⟨.disposableByRefLike, ⟨47⟩, ⟨48⟩⟩)]

/-- The methods are called `GetEnumerator`, and the enumerables of the fixtures declare them. -/
theorem getEnumerators_eq : ∀ entry ∈ getEnumerators, entry.2 ∈ registered.fixtures ∧
    (registered.registry.member? entry.1).map (fun source => (source.owner, source.name)) =
      some (entry.2.enumerable, contractNames.getEnumerator) := by
  decide +kernel

/-- What a body of a member can be. -/
inductive BodyOf : MemberId → NativeBody → Prop where
  /-- What reads the current item. -/
  | current (member : MemberId) : BodyOf member Samples.current
  /-- What goes on to the next item. -/
  | moveNext (member : MemberId) : BodyOf member Samples.moveNext
  /-- What disposes of an enumerator. -/
  | dispose (member : MemberId) : BodyOf member Samples.dispose
  /-- What gives an enumerator of a fixture. -/
  | getEnumerator {member : MemberId} (fixture : Fixture)
    (listed : (member, fixture) ∈ getEnumerators) :
    BodyOf member (Samples.getEnumerator fixture.enumerator)

/-- There are no other bodies. -/
theorem bodyOf_registered {member : MemberId} {body : NativeBody}
    (found : registered.natives.body? member = some body) : BodyOf member body := by
  have each : ∀ entry ∈ registered.natives.bodies, BodyOf entry.1 entry.2 := by
    rw [registered_natives]
    simp only [List.forall_mem_cons]
    exact ⟨.dispose _, .moveNext _, .current _,
      .getEnumerator ⟨.disposableByRefLike, ⟨47⟩, ⟨48⟩⟩ (by decide),
      .moveNext _, .current _, .getEnumerator ⟨.byRefLike, ⟨40⟩, ⟨41⟩⟩ (by decide),
      .dispose _, .moveNext _, .current _,
      .getEnumerator ⟨.disposableReferenceType, ⟨33⟩, ⟨34⟩⟩ (by decide),
      .dispose _, .moveNext _, .current _,
      .getEnumerator ⟨.disposableValueType, ⟨26⟩, ⟨27⟩⟩ (by decide),
      .moveNext _, .current _, .getEnumerator ⟨.valueType, ⟨19⟩, ⟨20⟩⟩ (by decide),
      fun _ isThere => nomatch isThere⟩
  obtain ⟨entry, isFound, rfl⟩ := Option.map_eq_some_iff.mp found
  have passes := List.find?_some isFound
  have isMember : entry.1 = member := of_decide_eq_true passes
  rw [← isMember]
  exact each entry (List.mem_of_find?_eq_some isFound)

section Runs

variable {before after : Heap}

/-- A body that fails leaves the heap. -/
theorem failed_body {member : MemberId} {body : NativeBody} {receiver : Value}
    {arguments : List Value} {error : EvaluationError}
    (found : registered.natives.body? member = some body)
    (failed : body receiver arguments before = .ok (.error error, after)) : after = before := by
  cases bodyOf_registered found with
  | current => exact looks_current failed
  | moveNext =>
    rcases moveNext_cases failed with same | ⟨⟨_, impossible⟩, -⟩
    · exact same
    · cases impossible
  | dispose =>
    rcases dispose_cases failed with same | ⟨⟨_, impossible⟩, -⟩
    · exact same
    · cases impossible
  | getEnumerator fixture listed =>
    rcases getEnumerator_cases failed with ⟨same, -⟩ | ⟨_, _, impossible, -⟩
    · exact same
    · cases impossible

/-- An evaluation that does nothing to the heap makes no object. -/
theorem Frames.refl (samples : Samples) (heap : Heap) : samples.Frames heap heap := by
  refine ⟨.refl heap, fun {id now} known beyond => ?_⟩
  have inside := (Array.getElem?_eq_some_iff.mp (Heap.object_eq_ok.mp known)).1
  exact absurd inside (Nat.not_lt.mpr beyond)

/-- What a body that ran did: it set a counter, made an enumerator, or left the heap. -/
theorem ran_cases (ran : registered.natives.Ran before after) :
    before.Counts after ∧ (after.objects.size = before.objects.size ∨
      after.objects.size = before.objects.size + 1 ∧ ∃ fixture ∈ registered.fixtures,
        registered.Makes fixture ⟨before.objects.size⟩ before after) := by
  have counted {result : Except EvaluationError Value}
      (cases : after = before ∨ (∃ value, result = .ok value) ∧ before.SetsCounter after) :
      before.Counts after ∧ after.objects.size = before.objects.size := by
    rcases cases with rfl | ⟨-, sets⟩
    · exact ⟨.refl _, rfl⟩
    · exact sets.counts
  obtain ⟨member, body, receiver, arguments, result, found, ended⟩ := ran
  cases bodyOf_registered found with
  | current =>
    obtain rfl := looks_current ended
    exact ⟨.refl _, .inl rfl⟩
  | moveNext => exact (counted (moveNext_cases ended)).imp_right .inl
  | dispose => exact (counted (dispose_cases ended)).imp_right .inl
  | getEnumerator fixture listed =>
    rcases getEnumerator_cases ended with ⟨rfl, -⟩ | ⟨items, owner, rfl, rfl⟩
    · exact ⟨.refl _, .inl rfl⟩
    · obtain ⟨isFixture, known⟩ := getEnumerators_eq _ listed
      obtain ⟨source, sourceKnown, declared⟩ := Option.map_eq_some_iff.mp known
      obtain ⟨isOwner, isName⟩ := Prod.mk.inj declared
      refine ⟨before.counts_newObject _ _, .inr ⟨Array.size_push .., fixture, isFixture, ?_⟩⟩
      exact ⟨⟨member, source, _, receiver, arguments, sourceKnown, isOwner, isName, found, ended⟩,
        rfl, items, owner, Heap.object_newObject_self before _ _⟩

/-- One more body keeps what bodies kept so far. -/
theorem Frames.tail {start : Heap} (frames : registered.Frames start before)
    (steps : registered.natives.Steps start before) (ran : registered.natives.Ran before after) :
    registered.Frames start after := by
  obtain ⟨counts, sizes⟩ := ran_cases ran
  refine ⟨frames.counts.trans counts, fun {id now} known beyond => ?_⟩
  have inside := (Array.getElem?_eq_some_iff.mp (Heap.object_eq_ok.mp known)).1
  by_cases wasThere : id.index < before.objects.size
  · -- The object was there before this body ran, which may have set its counter.
    have held := Heap.object_eq_ok.mpr (Array.getElem?_eq_getElem wasThere)
    obtain ⟨now', isNow, counted⟩ := counts.objects held
    obtain rfl := Except.ok.inj (isNow.symm.trans known)
    obtain ⟨fixture, isFixture, earlier, later, made, first, makes, isMade, countedBefore, rest⟩ :=
      frames.made held beyond
    exact ⟨fixture, isFixture, earlier, later, made, first, makes, isMade,
      countedBefore.trans counted, rest.tail ran⟩
  · rcases sizes with same | ⟨oneMore, fixture, isFixture, makes⟩
    · exact absurd (same ▸ inside) wasThere
    · have isNew : id = ⟨before.objects.size⟩ := by
        obtain ⟨index⟩ := id
        congr 1
        simp only at inside wasThere
        omega
      subst isNew
      exact ⟨fixture, isFixture, before, after, now, steps, makes, known, .refl now, .refl⟩

/-- Whatever bodies ran one after the other, what was there is as it was but for counters, and all
that is new are enumerators of fixtures. -/
theorem Frames.of_steps (steps : registered.natives.Steps before after) :
    registered.Frames before after := by
  induction steps with
  | refl => exact .refl registered before
  | tail earlier ran ih => exact ih.tail earlier ran

end Runs

/-- Evaluation over the fixtures sets counters and makes enumerators, and does nothing else to the
heap: for every tree, on every heap and with any arguments, however it ends. And each body that
fails leaves the heap. -/
theorem calls_count_alone : ∃ samples, build = .ok samples ∧
    (∀ arena bound (call : Call) before result after,
      call.run ⟨samples.registry, arena, samples.natives⟩ bound before = .ok (result, after) →
        samples.Frames before.heap after.heap) ∧
    ∀ member body receiver arguments before error after,
      samples.natives.body? member = some body →
        body receiver arguments before = .ok (.error error, after) → after = before := by
  refine ⟨registered, build_eq, fun arena bound call before result after ended => ?_,
    fun member body receiver arguments before error after found failed => failed_body found failed⟩
  exact .of_steps (Program.call_steps ended)

/-- A sum over two items makes one enumerator, sets its index, and counts its disposal. -/
theorem sum_counts_alone : ∃ samples, build = .ok samples ∧ ∃ fixture, ∃ program : SumProgram,
    (Call.invoke program.root [.object ⟨0⟩]).run
        ⟨samples.registry, program.arena, samples.natives⟩ (SumProgram.evaluationBound [1, 2])
        (Machine.start (newEnumerable .empty fixture [1, 2]).1) =
      .ok (.ok (.int 3), Machine.start (heapAfter fixture [1, 2] 2 1)) ∧
    samples.Frames (newEnumerable .empty fixture [1, 2]).1 (heapAfter fixture [1, 2] 2 1) := by
  obtain ⟨samples, built, frames, -⟩ := calls_count_alone
  obtain rfl := Except.ok.inj (build_eq.symm.trans built)
  have disposable : FixtureKind.disposableReferenceType.isDisposable = true := rfl
  obtain ⟨fixture, program, block, loop, nodes, -, -, form, serves⟩ :=
    sum_of_isDisposable disposable {}
  have small : ([1, 2] : List Int64).length < 2 ^ 63 := by decide
  have ended := invoke_apply form serves small
  have framed := frames program.arena _ (.invoke _ _) _ _ _ ended
  exact ⟨registered, built, fixture, program, ended, framed⟩

end Samples

end Foreach
