import Foreach.Evaluation.Evaluator
import Foreach.Proofs.Work

/-!
# How the actions of evaluation end

One statement for each action that evaluation is made of: from which machine it ends in which one,
and with what. Later proofs use these and do not open the actions.
-/
namespace Foreach

namespace Machine

/-- The machine in a scope of its own. -/
def enter (machine : Machine) : Machine := { machine with environment := machine.environment.push }

/-- The machine outside of its innermost scope. -/
def leave (machine : Machine) : Machine := { machine with environment := machine.environment.pop }

/-- The machine with bindings declared in its innermost scope. -/
def declareAll (machine : Machine) (bindings : List NodeId) : Machine :=
  { machine with environment := bindings.foldl Environment.declare machine.environment }

/-- Declaring bindings in a scope of its own leaves the scopes around it. -/
theorem scopes_declareAll_enter (machine : Machine) (bindings : List NodeId) :
    ∃ scope, (machine.enter.declareAll bindings).environment =
      ⟨scope, machine.environment.scopes⟩ := by
  have grows : ∀ scope, ∃ declared,
      bindings.foldl Environment.declare ⟨scope, machine.environment.scopes⟩ =
        ⟨declared, machine.environment.scopes⟩ := by
    induction bindings with
    | nil => exact fun scope => ⟨scope, rfl⟩
    | cons binding rest ih => exact fun scope => ih (scope.put binding none)
  exact grows []

end Machine

/-- A binding that was assigned somewhere in a list of scopes has that value there. -/
theorem Environment.findSome?_of_assignIn {binding : NodeId} {value : Value}
    {scopes written : List Scope} (assigned : assignIn binding value scopes = some written) :
    (written.findSome? fun scope => scope.find? binding) = some (some value) := by
  induction scopes generalizing written with
  | nil => cases assigned
  | cons scope rest ih =>
    unfold assignIn at assigned
    split at assigned
    case isTrue =>
      cases assigned
      rw [List.findSome?_cons, Scope.find?_put_self]
    case isFalse undeclared =>
      obtain ⟨others, found, rfl⟩ := Option.map_eq_some_iff.mp assigned
      have unknown : scope.find? binding = none := by
        simpa [Scope.declares] using undeclared
      rw [List.findSome?_cons, unknown]
      exact ih found

/-- A binding that was assigned has that value. -/
theorem Environment.lookup_of_assign {environment after : Environment} {binding : NodeId}
    {value : Value} (assigned : environment.assign binding value = .ok after) :
    after.lookup binding = .ok value := by
  unfold assign at assigned
  split at assigned
  case isTrue =>
    cases assigned
    exact lookup_define_self environment binding value
  case isFalse undeclared =>
    have unknown : environment.current.find? binding = none := by
      simpa [Scope.declares] using undeclared
    split at assigned
    case h_1 enclosing found =>
      cases assigned
      rw [lookup, scopes, List.findSome?_cons, unknown, findSome?_of_assignIn found]
    case h_2 => cases assigned

namespace Evaluation

variable {α : Type} {before after : Machine}

/-- A value alone leaves the machine. -/
@[simp] theorem pure_apply (value : α) :
    (pure value : Evaluation α) before = .ok (.ok value, before) := rfl

/-- An interrupt alone leaves the machine. -/
@[simp] theorem throw_apply (interrupt : Interrupt) :
    (throw interrupt : Evaluation α) before = .ok (.error interrupt, before) := rfl

/-- A given result leaves the machine. -/
theorem given_eq_ok {given : Except EvaluationError α} {result : Except Interrupt α} :
    Evaluation.given given before = .ok (result, after) ↔
      given.mapError .failure = result ∧ before = after := by
  cases given <;> simp [Evaluation.given]

/-- Work on the heap leaves the scopes. -/
theorem onHeap_eq_ok {action : HeapAction α} {result : Except Interrupt α} :
    onHeap action before = .ok (result, after) ↔ ∃ given heap,
      action before.heap = .ok (given, heap) ∧ given.mapError .failure = result ∧
        { before with heap } = after := by
  unfold onHeap
  cases action before.heap with
  | error stop => simp [bind, Except.bind]
  | ok ended =>
    obtain ⟨given, heap⟩ := ended
    cases given <;> simp [bind, Except.bind, pure, Except.pure, and_assoc]

/-- Work on the heap that gives a value gives it to the machine. -/
theorem onHeap_of_ok {action : HeapAction α} {value : α} {heap : Heap}
    (ran : action before.heap = .ok (.ok value, heap)) :
    onHeap action before = .ok (.ok value, { before with heap }) :=
  onHeap_eq_ok.mpr ⟨.ok value, heap, ran, rfl, rfl⟩

/-- An attempt ends where the attempted evaluation ends, with its end as an answer. -/
theorem attempt_eq_ok {work : Evaluation α} {result : Except Interrupt (Except Interrupt α)} :
    attempt work before = .ok (result, after) ↔
      ∃ outcome, work before = .ok (outcome, after) ∧ result = .ok outcome := by
  unfold attempt
  cases work before with
  | error stop => simp [bind, Except.bind]
  | ok ended =>
    obtain ⟨outcome, machine⟩ := ended
    simp only [bind, Except.bind, pure, Except.pure, Except.ok.injEq, Prod.mk.injEq]
    constructor
    · rintro ⟨rfl, rfl⟩
      exact ⟨outcome, ⟨rfl, rfl⟩, rfl⟩
    · rintro ⟨_, ⟨rfl, rfl⟩, rfl⟩
      exact ⟨rfl, rfl⟩

/-- The attempt of what ends is its end. -/
theorem attempt_of_ok {work : Evaluation α} {outcome : Except Interrupt α}
    (ended : work before = .ok (outcome, after)) :
    attempt work before = .ok (.ok outcome, after) := attempt_eq_ok.mpr ⟨outcome, ended, rfl⟩

/-- What comes after an attempt goes on from where the attempted evaluation ended, however that
was. -/
theorem attempt_bind_eq_ok {β : Type} {work : Evaluation α}
    {next : Except Interrupt α → Evaluation β} {result : Except Interrupt β} :
    (attempt work >>= next) before = .ok (result, after) ↔
      ∃ outcome middle, work before = .ok (outcome, middle) ∧
        next outcome middle = .ok (result, after) := by
  constructor
  · intro ended
    obtain ⟨outcome, middle, attempted, rest⟩ | ⟨_, attempted, -⟩ :=
      Work.failing_bind_eq_ok.mp ended
    · obtain ⟨_, head, same⟩ := attempt_eq_ok.mp attempted
      obtain rfl := Except.ok.inj same
      exact ⟨outcome, middle, head, rest⟩
    · obtain ⟨_, -, impossible⟩ := attempt_eq_ok.mp attempted
      cases impossible
  · rintro ⟨outcome, middle, head, rest⟩
    rw [Work.failing_bind_of_ok (attempt_of_ok head)]
    exact rest

/-- What is attempted only matters by how it ends. -/
theorem attempt_congr {work other : Evaluation α} {otherBefore : Machine}
    (same : work before = other otherBefore) :
    attempt work before = attempt other otherBefore := by
  simp only [attempt, same]

/-- The attempt of what stops, stops. -/
theorem attempt_of_stop {work : Evaluation α} {stop : Stop} (stopped : work before = .error stop) :
    attempt work before = .error stop := by
  simp [attempt, stopped, bind, Except.bind]

/-- An answer taken up again is the end that it was. -/
@[simp] theorem resume_apply (outcome : Except Interrupt α) :
    resume outcome before = .ok (outcome, before) := rfl

/-- Evaluation in a scope of its own ends as it does there, and the scope is left. -/
theorem inScope_eq_ok {work : Evaluation α} {result : Except Interrupt α} :
    inScope work before = .ok (result, after) ↔
      ∃ inner, work before.enter = .ok (result, inner) ∧ inner.leave = after := by
  have entered : changeScopes Environment.push before = .ok (.ok (), before.enter) := rfl
  rw [inScope, Work.failing_bind_of_ok entered]
  cases ended : work before.enter with
  | error stop =>
    rw [Work.failing_bind_of_stop (attempt_of_stop ended)]
    simp
  | ok ended' =>
    obtain ⟨outcome, inner⟩ := ended'
    have left : changeScopes Environment.pop inner = .ok (.ok (), inner.leave) := rfl
    rw [Work.failing_bind_of_ok (attempt_of_ok ended), Work.failing_bind_of_ok left, resume_apply]
    simp only [Except.ok.injEq, Prod.mk.injEq]
    constructor
    · rintro ⟨rfl, rfl⟩
      exact ⟨inner, ⟨rfl, rfl⟩, rfl⟩
    · rintro ⟨_, ⟨rfl, rfl⟩, rfl⟩
      exact ⟨rfl, rfl⟩

end Evaluation

namespace Program

variable {program : Program} {before after : Machine}

/-- Declaring bindings always succeeds. -/
theorem declareAll_apply (bindings : List NodeId) :
    declareAll bindings before = .ok (.ok (), before.declareAll bindings) := by
  induction bindings generalizing before with
  | nil => rfl
  | cons binding rest ih => exact ih

/-- A failure whose error is looked up leaves the machine, and its error is the one found. -/
theorem failure_eq_ok {α β : Type} {checked : Checked α} {error : α → EvaluationError}
    {result : Except Interrupt β} :
    (liftM checked >>= fun value => throw (.failure (error value)) : Evaluation β) before =
        .ok (result, after) ↔
      after = before ∧ ∃ value, checked = .ok value ∧ result = .error (.failure (error value)) := by
  cases checked with
  | error stop => exact iff_of_false nofun nofun
  | ok value =>
    constructor
    · intro ended
      cases ended
      exact ⟨rfl, value, rfl, rfl⟩
    · rintro ⟨rfl, _, ⟨⟩, rfl⟩
      rfl

/-- Reading a binding gives its value or fails with what is wrong with it, and leaves the
machine. -/
theorem read_eq_ok {binding : NodeId} {result : Except Interrupt Value} :
    program.read binding before = .ok (result, after) ↔
      after = before ∧
        ((∃ value, before.environment.lookup binding = .ok value ∧ result = .ok value) ∨
          ∃ error failure, before.environment.lookup binding = .error error ∧
            program.bindingFailure binding error = .ok failure ∧
              result = .error (.failure failure)) := by
  have got : (get : Evaluation Machine) before = .ok (.ok before, before) := rfl
  rw [read, Work.failing_bind_of_ok got]
  cases known : before.environment.lookup binding with
  | ok value =>
    constructor
    · intro ended
      cases ended
      exact ⟨rfl, .inl ⟨value, rfl, rfl⟩⟩
    · rintro ⟨rfl, ⟨_, ⟨⟩, rfl⟩ | ⟨_, _, ⟨⟩, -⟩⟩
      rfl
  | error error =>
    refine failure_eq_ok.trans (and_congr_right fun _ => ?_)
    constructor
    · rintro ⟨failure, told, same⟩
      exact .inr ⟨error, failure, rfl, told, same⟩
    · rintro (⟨_, ⟨⟩, -⟩ | ⟨_, failure, ⟨⟩, told, same⟩)
      exact ⟨failure, told, same⟩

/-- A binding that has a value is read. -/
theorem read_of_lookup {binding : NodeId} {value : Value}
    (known : before.environment.lookup binding = .ok value) :
    program.read binding before = .ok (.ok value, before) :=
  read_eq_ok.mpr ⟨rfl, .inl ⟨value, known, rfl⟩⟩

/-- Reading a binding leaves the machine; it gives the value of the binding or fails. -/
theorem read_steady {binding : NodeId} {result : Except Interrupt Value}
    (ended : program.read binding before = .ok (result, after)) :
    after = before ∧ ∀ label, result ≠ .error (.leaving label) := by
  obtain ⟨rfl, ⟨_, -, rfl⟩ | ⟨_, _, -, -, rfl⟩⟩ := read_eq_ok.mp ended
  all_goals exact ⟨rfl, by simp⟩

/-- Assigning to a binding changes the scopes as `Environment.assign` says, or it fails with what is
wrong with the binding and leaves the machine. -/
theorem write_eq_ok {binding : NodeId} {value : Value} {result : Except Interrupt Unit} :
    program.write binding value before = .ok (result, after) ↔
      (∃ environment, before.environment.assign binding value = .ok environment ∧
        result = .ok () ∧ after = { before with environment }) ∨
      ∃ error failure, before.environment.assign binding value = .error error ∧
        program.bindingFailure binding error = .ok failure ∧
          result = .error (.failure failure) ∧ after = before := by
  have got : (get : Evaluation Machine) before = .ok (.ok before, before) := rfl
  rw [write, Work.failing_bind_of_ok got]
  cases assigned : before.environment.assign binding value with
  | ok environment =>
    constructor
    · intro ended
      cases ended
      exact .inl ⟨environment, rfl, rfl, rfl⟩
    · rintro (⟨_, ⟨⟩, rfl, rfl⟩ | ⟨_, _, ⟨⟩, -⟩)
      rfl
  | error error =>
    refine failure_eq_ok.trans ?_
    constructor
    · rintro ⟨kept, failure, told, same⟩
      exact .inr ⟨error, failure, rfl, told, same, kept⟩
    · rintro (⟨_, ⟨⟩, -⟩ | ⟨_, failure, ⟨⟩, told, same, kept⟩)
      exact ⟨kept, failure, told, same⟩

/-- A binding has the value that was assigned to it. -/
theorem lookup_of_write {binding : NodeId} {value : Value}
    (written : program.write binding value before = .ok (.ok (), after)) :
    after.environment.lookup binding = .ok value := by
  obtain ⟨environment, assigned, -, rfl⟩ | ⟨_, _, -, -, ⟨⟩, -⟩ := write_eq_ok.mp written
  exact Environment.lookup_of_assign assigned

/-- A call of a member on a value ends with a value or an error. -/
inductive Calls (program : Program) (receiver : Value) (member : MemberId)
    (arguments : List Value) (before : Machine) :
    Except EvaluationError Value → Machine → Prop where
  /-- Nothing can be called on null. -/
  | onNull {name : String} (isNull : receiver = .null)
    (named : program.memberName member = .ok name) :
    Calls program receiver member arguments before (.error (.nullReference name)) before
  /-- The member that the value runs has no body. -/
  | bodiless {target : MemberId} {name : String} (present : receiver ≠ .null)
    (dispatched : program.dispatch before.heap receiver member = .ok target)
    (missing : program.natives.body? target = none)
    (named : program.memberName target = .ok name) :
    Calls program receiver member arguments before (.error (.noNativeBody name)) before
  /-- The body of the member that the value runs is run on the heap, once. -/
  | runs {target : MemberId} {body : NativeBody} {given : Except EvaluationError Value}
    {heap : Heap} (present : receiver ≠ .null)
    (dispatched : program.dispatch before.heap receiver member = .ok target)
    (found : program.natives.body? target = some body)
    (ran : body receiver arguments before.heap = .ok (given, heap)) :
    Calls program receiver member arguments before given { before with heap }

section Calls

variable {receiver : Value} {member target : MemberId} {arguments : List Value}

/-- Only null is null. -/
theorem isNull_iff : receiver.isNull = true ↔ receiver = .null := by
  cases receiver <;> simp [Value.isNull]

/-- A call on a value does what the member that the value runs does. -/
theorem callMember_of_dispatch (present : receiver ≠ .null)
    (dispatched : program.dispatch before.heap receiver member = .ok target) :
    program.callMember receiver member arguments before =
      (match program.natives.body? target with
        | none => do throw (.failure (.noNativeBody (← program.memberName target)))
        | some body => Evaluation.onHeap (body receiver arguments) : Evaluation Value) before := by
  have got : (get : Evaluation Machine) before = .ok (.ok before, before) := rfl
  have goes : (liftM (program.dispatch before.heap receiver member) : Evaluation MemberId)
      before = .ok (.ok target, before) :=
    Work.failing_lift_eq_ok.mpr ⟨target, dispatched, rfl, rfl⟩
  rw [callMember, if_neg (mt isNull_iff.mp present)]
  exact (Work.failing_bind_of_ok got).trans (Work.failing_bind_of_ok goes)

/-- A call on a value runs the body of the member that the value runs. -/
theorem callMember_of_body {body : NativeBody} (present : receiver ≠ .null)
    (dispatched : program.dispatch before.heap receiver member = .ok target)
    (found : program.natives.body? target = some body) :
    program.callMember receiver member arguments before =
      Evaluation.onHeap (body receiver arguments) before := by
  rw [callMember_of_dispatch present dispatched, found]

/-- A call of a member ends as calls of members do. -/
theorem callMember_eq_ok {result : Except Interrupt Value} :
    program.callMember receiver member arguments before = .ok (result, after) ↔
      ∃ given, program.Calls receiver member arguments before given after ∧
        result = given.mapError .failure := by
  constructor
  · intro ended
    by_cases isNull : receiver = .null
    · rw [callMember, if_pos (isNull_iff.mpr isNull)] at ended
      obtain ⟨rfl, name, named, rfl⟩ := failure_eq_ok.mp ended
      exact ⟨_, .onNull isNull named, rfl⟩
    cases dispatched : program.dispatch before.heap receiver member with
    | error stop =>
      have got : (get : Evaluation Machine) before = .ok (.ok before, before) := rfl
      rw [callMember, if_neg (mt isNull_iff.mp isNull), Work.failing_bind_of_ok got,
        dispatched] at ended
      cases ended
    | ok target =>
      rw [callMember_of_dispatch isNull dispatched] at ended
      cases found : program.natives.body? target with
      | none =>
        rw [found] at ended
        obtain ⟨rfl, name, named, rfl⟩ := failure_eq_ok.mp ended
        exact ⟨_, .bodiless isNull dispatched found named, rfl⟩
      | some body =>
        rw [found] at ended
        obtain ⟨given, heap, ran, rfl, rfl⟩ := Evaluation.onHeap_eq_ok.mp ended
        exact ⟨given, .runs isNull dispatched found ran, rfl⟩
  · rintro ⟨given, calls, rfl⟩
    cases calls with
    | onNull isNull named =>
      rw [callMember, if_pos (isNull_iff.mpr isNull)]
      exact failure_eq_ok.mpr ⟨rfl, _, named, rfl⟩
    | bodiless present dispatched missing named =>
      rw [callMember_of_dispatch present dispatched, missing]
      exact failure_eq_ok.mpr ⟨rfl, _, named, rfl⟩
    | runs present dispatched found ran =>
      rw [callMember_of_body present dispatched found]
      exact Evaluation.onHeap_eq_ok.mpr ⟨given, _, ran, rfl, rfl⟩

/-- A call of a member leaves the scopes, and it is never a break. -/
theorem callMember_steady {result : Except Interrupt Value}
    (ended : program.callMember receiver member arguments before = .ok (result, after)) :
    after.environment = before.environment ∧ ∀ label, result ≠ .error (.leaving label) := by
  obtain ⟨given, calls, rfl⟩ := callMember_eq_ok.mp ended
  refine ⟨by cases calls <;> rfl, fun label => ?_⟩
  cases given <;> nofun

end Calls

end Program

end Foreach
