import Foreach.Proofs.Evaluation.Steady
import Foreach.Proofs.Tree.Sealed

/-!
# How an interrupt gets out

While a node is evaluated, evaluation is at one of its parts, and then at a part of that part, and
so on. `Program.Enters` says which evaluation of a part is under way during which evaluation of a
node, and with which `Frame`: what the node still does when the part is interrupted.

* An interrupt comes from a node that raises it, or from a part and passes its frame
  (`interrupted_cases`, one case for each kind of node).
* An interrupt that passes frames has all that happens on the way happen from the inside outwards
  (`Leads.interrupted`), and every interrupt is one that was raised somewhere and passed the frames
  up to where it is seen (`exists_raised`).
-/
namespace Foreach

/-- An evaluation: of a node, within a bound, from a machine. -/
structure Task where
  /-- The bound. -/
  bound : Nat
  /-- The node. -/
  node : NodeId
  /-- The machine that it starts with. -/
  machine : Machine

/-- How an evaluation ends. -/
def Task.run (program : Program) (task : Task) : Checked (Except Interrupt Value × Machine) :=
  program.evaluate task.bound task.node task.machine

/-- What a node still does when the evaluation of one of its parts is interrupted. -/
inductive Frame where
  /-- Nothing. -/
  | pass
  /-- A block leaves its scope. -/
  | scope
  /-- The cleanup of a statement runs. -/
  | cleanup (bound : Nat) (node : NodeId)
  /-- A loop ends, if it is the one that is left. -/
  | loop (exit : Label)

/-- The part that the evaluation of a node begins with, if what comes before it does nothing. -/
def NodeKind.first? : NodeKind → Option NodeId
  | assign _ value | addAssign _ value => some value
  | call receiver _ _ | property receiver _ => some receiver
  | convert operand => some operand
  | notEqual left _ => some left
  | ifThen condition _ | ifThenElse condition _ _ => some condition
  | _ => none

namespace Frame

/-- An interrupt ends the loop that a frame belongs to. -/
def Catches (frame : Frame) (interrupt : Interrupt) : Prop :=
  ∃ exit, frame = .loop exit ∧ interrupt = .leaving exit

/-- Only the loop that is left catches an interrupt. -/
@[simp] theorem catches_loop {exit : Label} {interrupt : Interrupt} :
    (loop exit).Catches interrupt ↔ interrupt = .leaving exit := by
  constructor
  · rintro ⟨_, same, left⟩
    cases same
    exact left
  · exact fun left => ⟨exit, rfl, left⟩

/-- A frame that does nothing catches nothing. -/
@[simp] theorem not_catches_pass {interrupt : Interrupt} : ¬ pass.Catches interrupt := by
  rintro ⟨_, ⟨⟩, -⟩

/-- A block catches nothing. -/
@[simp] theorem not_catches_scope {interrupt : Interrupt} : ¬ scope.Catches interrupt := by
  rintro ⟨_, ⟨⟩, -⟩

/-- A statement with a cleanup catches nothing. -/
@[simp] theorem not_catches_cleanup {bound : Nat} {node : NodeId} {interrupt : Interrupt} :
    ¬ (cleanup bound node).Catches interrupt := by
  rintro ⟨_, ⟨⟩, -⟩

/-- What happens when an interrupt passes a frame. -/
def clean (program : Program) : Frame → Evaluation Unit
  | pass | loop _ => return ()
  | scope => Evaluation.changeScopes Environment.pop
  | cleanup bound node => do let _ ← program.evaluate bound node

/-- Evaluation of a node from one of its parts on, given what comes after the part. -/
def around (program : Program) (part : Evaluation Value) (next : Value → Evaluation Value) :
    Frame → Evaluation Value
  | pass => part >>= next
  | scope => do
    let result ← Evaluation.attempt (part >>= next)
    Evaluation.changeScopes Environment.pop
    Evaluation.resume result
  | cleanup bound node => do
    let result ← Evaluation.attempt part
    let _ ← program.evaluate bound node
    Evaluation.resume result
  | loop exit => do
    match ← Evaluation.attempt part with
    | .ok value => next value
    | .error interrupt => if interrupt = .leaving exit then return .void else throw interrupt

end Frame

/-- No body of a member gives the error of a break that no loop takes. -/
def Natives.NeverBreak (natives : Natives) : Prop :=
  ∀ member body receiver arguments heap after, natives.body? member = some body →
    body receiver arguments heap ≠ .ok (.error .invalidBreak, after)

namespace Program

/-- What happens when an interrupt passes frames, the innermost of which comes last: each frame is
passed after those further inside. -/
def cleanAll (program : Program) : List Frame → Evaluation Unit
  | [] => return ()
  | frame :: inner => do
    program.cleanAll inner
    frame.clean program

/-- During the evaluation of a node, evaluation is at one of its parts. -/
inductive Enters (program : Program) : Task → Frame → Task → Prop where
  /-- The part that comes first. -/
  | first {bound : Nat} {id part : NodeId} {kind : NodeKind} {before : Machine}
      (known : program.arena.kind id = .ok kind) (begins : kind.first? = some part) :
      Enters program ⟨bound + 1, id, before⟩ .pass ⟨bound, part, before⟩
  /-- An argument of a call, after the receiver and the arguments before it. -/
  | argument {bound : Nat} {id receiver part : NodeId} {method : MemberId} {range : ListRange}
      {earlier later : List NodeId} {value : Value} {values : List Value}
      {before middle inner : Machine}
      (known : program.arena.kind id = .ok (.call receiver method range))
      (received : program.evaluate bound receiver before = .ok (.ok value, middle))
      (listed : program.arena.list range = earlier ++ part :: later)
      (given : earlier.mapM (program.evaluate bound) middle = .ok (.ok values, inner)) :
      Enters program ⟨bound + 1, id, before⟩ .pass ⟨bound, part, inner⟩
  /-- The second of two values that are compared. -/
  | right {bound : Nat} {id left part : NodeId} {value : Value} {before inner : Machine}
      (known : program.arena.kind id = .ok (.notEqual left part))
      (compared : program.evaluate bound left before = .ok (.ok value, inner)) :
      Enters program ⟨bound + 1, id, before⟩ .pass ⟨bound, part, inner⟩
  /-- A statement of a block, after those before it. -/
  | statement {bound : Nat} {id part : NodeId} {locals statements : ListRange}
      {earlier later : List NodeId} {last : Value} {before inner : Machine}
      (known : program.arena.kind id = .ok (.block locals statements))
      (listed : program.arena.list statements = earlier ++ part :: later)
      (ran : runAll (program.evaluate bound) .void earlier
        (before.enter.declareAll (program.arena.list locals)) = .ok (.ok last, inner)) :
      Enters program ⟨bound + 1, id, before⟩ .scope ⟨bound, part, inner⟩
  /-- A statement whose condition holds. -/
  | consequence {bound : Nat} {id condition part : NodeId} {before inner : Machine}
      (known : program.arena.kind id = .ok (.ifThen condition part))
      (holds : program.evaluate bound condition before = .ok (.ok (.bool true), inner)) :
      Enters program ⟨bound + 1, id, before⟩ .pass ⟨bound, part, inner⟩
  /-- The one of two statements that the condition selects. -/
  | branch {bound : Nat} {id condition consequence alternative : NodeId} {holds : Bool}
      {before inner : Machine}
      (known : program.arena.kind id = .ok (.ifThenElse condition consequence alternative))
      (tested : program.evaluate bound condition before = .ok (.ok (.bool holds), inner)) :
      Enters program ⟨bound + 1, id, before⟩ .pass
        ⟨bound, if holds then consequence else alternative, inner⟩
  /-- The body of a loop. -/
  | body {bound : Nat} {id part : NodeId} {exit : Label} {before : Machine}
      (known : program.arena.kind id = .ok (.loop part exit)) :
      Enters program ⟨bound + 1, id, before⟩ (.loop exit) ⟨bound, part, before⟩
  /-- A further round of a loop. -/
  | round {bound : Nat} {id part : NodeId} {exit : Label} {value : Value} {before inner : Machine}
      (known : program.arena.kind id = .ok (.loop part exit))
      (ended : program.evaluate bound part before = .ok (.ok value, inner)) :
      Enters program ⟨bound + 1, id, before⟩ .pass ⟨bound, id, inner⟩
  /-- A statement with a cleanup. -/
  | guarded {bound : Nat} {id part cleanup : NodeId} {before : Machine}
      (known : program.arena.kind id = .ok (.tryFinally part cleanup)) :
      Enters program ⟨bound + 1, id, before⟩ (.cleanup bound cleanup) ⟨bound, part, before⟩
  /-- A cleanup, after its statement has ended in whatever way. -/
  | cleanup {bound : Nat} {id part cleanup : NodeId} {outcome : Except Interrupt Value}
      {before inner : Machine}
      (known : program.arena.kind id = .ok (.tryFinally part cleanup))
      (ended : program.evaluate bound part before = .ok (outcome, inner)) :
      Enters program ⟨bound + 1, id, before⟩ .pass ⟨bound, cleanup, inner⟩

/-- During one evaluation, evaluation is at a node with frames around it, the innermost last. -/
inductive Leads (program : Program) : Task → List Frame → Task → Prop where
  /-- Evaluation is at its own node. -/
  | here (task : Task) : Leads program task [] task
  /-- Evaluation is at a part, or further inside. -/
  | inside {task part inner : Task} {frame : Frame} {frames : List Frame}
      (enters : program.Enters task frame part) (leads : Leads program part frames inner) :
      Leads program task (frame :: frames) inner

variable {program : Program}

/-- Statements one after another are those before a statement, the statement, and those after. -/
theorem runAll_append (work : NodeId → Evaluation Value) (last : Value)
    (earlier : List NodeId) (part : NodeId) (later : List NodeId) :
    runAll work last (earlier ++ part :: later) =
      runAll work last earlier >>= fun _ => work part >>= fun value => runAll work value later := by
  induction earlier generalizing last with
  | nil => rfl
  | cons next rest ih => simp only [List.cons_append, runAll, ih, bind_assoc]

/-- Evaluation of a node begins with its first part. -/
theorem evaluateNode_first {work : NodeId → Evaluation Value} {id part : NodeId} {kind : NodeKind}
    (begins : kind.first? = some part) :
    ∃ next, program.evaluateNode work id kind = work part >>= next := by
  cases kind <;> cases begins
  case convert.refl => exact ⟨pure, (bind_pure _).symm⟩
  all_goals exact ⟨_, rfl⟩

/-- A node is evaluated by evaluation of the part that evaluation is at and of what comes after. -/
theorem Enters.run_eq {task part : Task} {frame : Frame} (enters : program.Enters task frame part) :
    ∃ next, task.run program =
      frame.around program (program.evaluate part.bound part.node) next part.machine := by
  unfold Task.run
  cases enters with
  | first known begins =>
    obtain ⟨next, same⟩ := evaluateNode_first begins
    rw [evaluate_of_kind known, same]
    exact ⟨next, rfl⟩
  | argument known received listed given =>
    rw [evaluate_of_kind known, evaluateNode, Work.failing_bind_of_ok received, listed,
      List.mapM_append]
    simp only [List.mapM_cons, bind_assoc]
    rw [Work.failing_bind_of_ok given]
    exact ⟨_, rfl⟩
  | right known compared =>
    rw [evaluate_of_kind known, evaluateNode, Work.failing_bind_of_ok compared]
    exact ⟨_, rfl⟩
  | @statement bound id part locals statements earlier later last before inner known listed ran =>
    have entered : Evaluation.changeScopes Environment.push before = .ok (.ok (), before.enter) :=
      rfl
    have reached : (do
        declareAll (program.arena.list locals)
        runAll (program.evaluate bound) .void (program.arena.list statements) :
          Evaluation Value) before.enter =
        (program.evaluate bound part >>= fun value =>
          runAll (program.evaluate bound) value later) inner := by
      rw [Work.failing_bind_of_ok (declareAll_apply _), listed, runAll_append,
        Work.failing_bind_of_ok ran]
    rw [evaluate_of_kind known, evaluateNode, Evaluation.inScope,
      Work.failing_bind_of_ok entered]
    exact ⟨_, Work.failing_bind_congr (Evaluation.attempt_congr reached)⟩
  | consequence known holds =>
    rw [evaluate_of_kind known, evaluateNode, Work.failing_bind_of_ok holds]
    exact ⟨_, rfl⟩
  | branch known tested =>
    rw [evaluate_of_kind known, evaluateNode, Work.failing_bind_of_ok tested]
    exact ⟨_, rfl⟩
  | body known =>
    rw [evaluate_of_kind known]
    exact ⟨_, rfl⟩
  | round known ended =>
    rw [evaluate_of_kind known, evaluateNode,
      Work.failing_bind_of_ok (Evaluation.attempt_of_ok ended)]
    exact ⟨pure, by rw [Frame.around, bind_pure]⟩
  | guarded known =>
    rw [evaluate_of_kind known]
    exact ⟨pure, rfl⟩
  | cleanup known ended =>
    rw [evaluate_of_kind known, evaluateNode,
      Work.failing_bind_of_ok (Evaluation.attempt_of_ok ended)]
    exact ⟨_, rfl⟩

section Passing

variable {task part : Task} {frame : Frame} {interrupt : Interrupt} {after : Machine}

/-- If a part does not end, neither does the node. -/
theorem Enters.stopped {stop : Stop} (enters : program.Enters task frame part)
    (stopped : part.run program = .error stop) : task.run program = .error stop := by
  obtain ⟨next, same⟩ := enters.run_eq
  rw [same]
  cases frame with
  | pass => exact Work.failing_bind_of_stop stopped
  | scope =>
    exact Work.failing_bind_of_stop (Evaluation.attempt_of_stop
      (Work.failing_bind_of_stop stopped))
  | cleanup | loop => exact Work.failing_bind_of_stop (Evaluation.attempt_of_stop stopped)

/-- The interrupt of a part goes on, unless it ends a loop, after what its frame does. -/
theorem Enters.interrupted (enters : program.Enters task frame part)
    (ended : part.run program = .ok (.error interrupt, after))
    (uncaught : ¬ frame.Catches interrupt) :
    task.run program = (frame.clean program >>= fun _ => throw interrupt) after := by
  obtain ⟨next, same⟩ := enters.run_eq
  rw [same]
  cases frame with
  | pass => exact Work.failing_bind_of_error ended
  | scope =>
    exact Work.failing_bind_of_ok (Evaluation.attempt_of_ok (Work.failing_bind_of_error ended))
  | cleanup bound node =>
    exact (Work.failing_bind_of_ok (Evaluation.attempt_of_ok ended)).trans (by
      rw [Frame.clean, bind_assoc]
      rfl)
  | loop exit =>
    have goesOn : interrupt ≠ .leaving exit := fun left => uncaught ⟨exit, rfl, left⟩
    rw [Frame.around, Work.failing_bind_of_ok (Evaluation.attempt_of_ok ended)]
    simp only [if_neg goesOn]
    rfl

/-- A loop ends without a value when its body is left for it. -/
theorem Enters.left {exit : Label} (enters : program.Enters task (.loop exit) part)
    (ended : part.run program = .ok (.error (.leaving exit), after)) :
    task.run program = .ok (.ok .void, after) := by
  obtain ⟨next, same⟩ := enters.run_eq
  rw [same, Frame.around, Work.failing_bind_of_ok (Evaluation.attempt_of_ok ended)]
  simp only [if_true]
  rfl

end Passing

/-- A node raises an interrupt itself: a break leaves for its loop, and whatever else fails does not
fail with the error of a break that no loop takes, unless the body of a member does. -/
inductive Raises (program : Program) (task : Task) : Interrupt → Machine → Prop where
  /-- A failure. -/
  | failure {error : EvaluationError} {after : Machine}
      (own : program.natives.NeverBreak → error ≠ .invalidBreak) :
      Raises program task (.failure error) after
  /-- A break. -/
  | leaving {label : Label} (isBreak : program.arena.kind task.node = .ok (.breakTo label)) :
      Raises program task (.leaving label) task.machine

section Failures

variable {task : Task} {interrupt : Interrupt} {before after : Machine}

/-- What is wrong with a binding is not a break. -/
theorem bindingFailure_ne {binding : NodeId} {error : BindingError} {found : EvaluationError}
    (failure : program.bindingFailure binding error = .ok found) : found ≠ .invalidBreak := by
  obtain ⟨kind, -, named⟩ := Work.checked_bind_eq_ok.mp failure
  cases error <;> cases named <;> simp

/-- Reading a binding fails by itself. -/
theorem Raises.of_read {binding : NodeId}
    (ended : program.read binding before = .ok (.error interrupt, after)) :
    program.Raises task interrupt after := by
  obtain ⟨-, ⟨_, -, ⟨⟩⟩ | ⟨error, failure, -, told, ⟨⟩⟩⟩ := read_eq_ok.mp ended
  exact .failure fun _ => bindingFailure_ne told

/-- Assigning to a binding fails by itself. -/
theorem Raises.of_write {binding : NodeId} {value : Value}
    (ended : program.write binding value before = .ok (.error interrupt, after)) :
    program.Raises task interrupt after := by
  obtain ⟨_, -, ⟨⟩, -⟩ | ⟨error, failure, -, told, ⟨⟩, -⟩ := write_eq_ok.mp ended
  exact .failure fun _ => bindingFailure_ne told

/-- A value that is not of the kind that a node needs is a failure of the node. -/
theorem Raises.of_given {α : Type} {given : Except EvaluationError α}
    (plain : ∀ error, given = .error error → error ≠ .invalidBreak)
    (ended : Evaluation.given given before = .ok (.error interrupt, after)) :
    program.Raises task interrupt after := by
  obtain ⟨same, -⟩ := Evaluation.given_eq_ok.mp ended
  cases given with
  | ok value => cases same
  | error error =>
    cases same
    exact .failure fun _ => plain error rfl

/-- A value that is no integer is not a break. -/
theorem asInt_plain (value : Value) (error : EvaluationError)
    (failed : value.asInt = .error error) : error ≠ .invalidBreak := by
  cases value <;> cases failed <;> simp

/-- A value that is taken as a truth value is one. -/
theorem eq_bool_of_given {value : Value} {holds : Bool}
    (ended : Evaluation.given value.asBool before = .ok (.ok holds, after)) :
    value = .bool holds ∧ before = after := by
  obtain ⟨same, kept⟩ := Evaluation.given_eq_ok.mp ended
  refine ⟨?_, kept⟩
  cases value <;> cases same
  rfl

/-- A value that is no truth value is not a break. -/
theorem asBool_plain (value : Value) (error : EvaluationError)
    (failed : value.asBool = .error error) : error ≠ .invalidBreak := by
  cases value <;> cases failed <;> simp

/-- A call of a member fails by itself. -/
theorem Raises.of_callMember {receiver : Value} {member : MemberId} {arguments : List Value}
    (ended : program.callMember receiver member arguments before = .ok (.error interrupt, after)) :
    program.Raises task interrupt after := by
  obtain ⟨given, calls, same⟩ := callMember_eq_ok.mp ended
  cases given with
  | ok value => cases same
  | error error =>
    cases same
    refine .failure fun plain broken => ?_
    subst broken
    cases calls with
    | runs present dispatched found ran => exact plain _ _ _ _ _ _ found ran

end Failures

section Lists

variable {work : NodeId → Evaluation Value} {interrupt : Interrupt} {before after : Machine}

/-- If the evaluation of some arguments is interrupted, one of them is, after those before it. -/
theorem mapM_interrupted {ids : List NodeId}
    (ended : ids.mapM work before = .ok (.error interrupt, after)) :
    ∃ earlier part later values middle, ids = earlier ++ part :: later ∧
      earlier.mapM work before = .ok (.ok values, middle) ∧
      work part middle = .ok (.error interrupt, after) := by
  induction ids generalizing before with
  | nil => cases ended
  | cons id rest ih =>
    rw [List.mapM_cons] at ended
    obtain ⟨value, middle, head, tail⟩ | head := Work.failing_bind_eq_error.mp ended
    · obtain ⟨_, _, -, impossible⟩ | others := Work.failing_bind_eq_error.mp tail
      · cases impossible
      · obtain ⟨earlier, part, later, values, inner, rfl, ran, broken⟩ := ih others
        refine ⟨id :: earlier, part, later, value :: values, inner, rfl, ?_, broken⟩
        rw [List.mapM_cons, Work.failing_bind_of_ok head, Work.failing_bind_of_ok ran]
        rfl
    · exact ⟨[], id, rest, [], before, rfl, rfl, head⟩

/-- If statements one after another are interrupted, one of them is, after those before it. -/
theorem runAll_interrupted {ids : List NodeId} {last : Value}
    (ended : runAll work last ids before = .ok (.error interrupt, after)) :
    ∃ earlier part later value middle, ids = earlier ++ part :: later ∧
      runAll work last earlier before = .ok (.ok value, middle) ∧
      work part middle = .ok (.error interrupt, after) := by
  induction ids generalizing before last with
  | nil => cases ended
  | cons id rest ih =>
    obtain ⟨value, middle, head, tail⟩ | head := Work.failing_bind_eq_error.mp ended
    · obtain ⟨earlier, part, later, reached, inner, rfl, ran, broken⟩ := ih tail
      refine ⟨id :: earlier, part, later, reached, inner, rfl, ?_, broken⟩
      rw [runAll, Work.failing_bind_of_ok head, ran]
    · exact ⟨[], id, rest, last, before, rfl, rfl, head⟩

end Lists

/-- The interrupt of an evaluation is one that its node raises, or that of a part that passes the
frame of the part. -/
inductive Interrupted (program : Program) (task : Task) (interrupt : Interrupt) (after : Machine) :
    Prop where
  /-- The node raises it. -/
  | raised (raises : program.Raises task interrupt after)
  /-- A part was interrupted. -/
  | passed {frame : Frame} {part : Task} {middle : Machine}
      (enters : program.Enters task frame part) (uncaught : ¬ frame.Catches interrupt)
      (ended : part.run program = .ok (.error interrupt, middle))
      (cleaned : frame.clean program middle = .ok (.ok (), after))

section Cases

variable {bound : Nat} {id : NodeId} {interrupt : Interrupt} {before after : Machine}

/-- A node that has nothing left to do lets the interrupt of a part pass. -/
theorem Interrupted.part {task part : Task} (enters : program.Enters task .pass part)
    (ended : part.run program = .ok (.error interrupt, after)) :
    program.Interrupted task interrupt after :=
  .passed enters Frame.not_catches_pass ended rfl

/-- A block is interrupted at one of its statements, and leaves its scope. -/
theorem Interrupted.of_block {locals statements : ListRange}
    (known : program.arena.kind id = .ok (.block locals statements))
    (ended : program.evaluateNode (program.evaluate bound) id (.block locals statements) before =
      .ok (.error interrupt, after)) :
    program.Interrupted ⟨bound + 1, id, before⟩ interrupt after := by
  obtain ⟨inner, inside, rfl⟩ := Evaluation.inScope_eq_ok.mp ended
  rw [Work.failing_bind_of_ok (declareAll_apply _)] at inside
  obtain ⟨_, _, _, _, _, listed, ran, broken⟩ := runAll_interrupted inside
  exact .passed (.statement known listed ran) Frame.not_catches_scope broken rfl

/-- A loop is interrupted in its body, unless its body is left for it, or in a further round. -/
theorem Interrupted.of_loop {body : NodeId} {exit : Label}
    (known : program.arena.kind id = .ok (.loop body exit))
    (ended : program.evaluateNode (program.evaluate bound) id (.loop body exit) before =
      .ok (.error interrupt, after)) :
    program.Interrupted ⟨bound + 1, id, before⟩ interrupt after := by
  obtain ⟨outcome, middle, head, rest⟩ := Evaluation.attempt_bind_eq_ok.mp ended
  cases outcome with
  | ok value => exact .part (.round known head) rest
  | error raised =>
    by_cases left : raised = .leaving exit
    · simp only [left, if_true] at rest
      cases rest
    · simp only [left, if_false] at rest
      cases rest
      exact .passed (.body known) (by simpa using left) head rfl

/-- A statement with a cleanup is interrupted in the cleanup, or in the statement if the cleanup is
not interrupted. -/
theorem Interrupted.of_tryFinally {body cleanup : NodeId}
    (known : program.arena.kind id = .ok (.tryFinally body cleanup))
    (ended : program.evaluateNode (program.evaluate bound) id (.tryFinally body cleanup) before =
      .ok (.error interrupt, after)) :
    program.Interrupted ⟨bound + 1, id, before⟩ interrupt after := by
  obtain ⟨outcome, middle, head, rest⟩ := Evaluation.attempt_bind_eq_ok.mp ended
  obtain ⟨_, _, cleaned, resumed⟩ | broken := Work.failing_bind_eq_error.mp rest
  · cases resumed
    refine .passed (.guarded known) Frame.not_catches_cleanup head ?_
    rw [Frame.clean, Work.failing_bind_of_ok cleaned]
    rfl
  · exact .part (.cleanup known head) broken

/-- A node that begins with a condition is interrupted in the condition, or because its value is no
truth value, or in what comes after it. -/
theorem Interrupted.of_condition {kind : NodeKind} {condition : NodeId}
    {next : Bool → Evaluation Value} (known : program.arena.kind id = .ok kind)
    (begins : kind.first? = some condition)
    (ended : (program.evaluate bound condition >>= fun value =>
      Evaluation.given value.asBool >>= next) before = .ok (.error interrupt, after))
    (rest : ∀ holds middle,
      program.evaluate bound condition before = .ok (.ok (.bool holds), middle) →
      next holds middle = .ok (.error interrupt, after) →
      program.Interrupted ⟨bound + 1, id, before⟩ interrupt after) :
    program.Interrupted ⟨bound + 1, id, before⟩ interrupt after := by
  obtain ⟨value, middle, tested, later⟩ | broken := Work.failing_bind_eq_error.mp ended
  case inr => exact .part (.first known begins) broken
  obtain ⟨holds, _, decided, last⟩ | failed := Work.failing_bind_eq_error.mp later
  · obtain ⟨rfl, rfl⟩ := eq_bool_of_given decided
    exact rest holds middle tested last
  · exact .raised (.of_given (asBool_plain value) failed)

/-- Where the interrupt of a node comes from. -/
theorem interrupted_cases {task : Task}
    (ended : task.run program = .ok (.error interrupt, after)) :
    program.Interrupted task interrupt after := by
  obtain ⟨_ | bound, id, before⟩ := task
  · cases ended
  obtain ⟨kind, known⟩ := kind_of_evaluate ended
  unfold Task.run at ended
  rw [evaluate_of_kind known] at ended
  cases kind with
  | parameter | var => exact .raised (.of_read ended)
  | int | bool | null => cases ended
  | assign target value =>
    obtain ⟨_, _, -, rest⟩ | broken := Work.failing_bind_eq_error.mp ended
    · obtain ⟨_, _, -, impossible⟩ | failed := Work.failing_bind_eq_error.mp rest
      · cases impossible
      · exact .raised (.of_write failed)
    · exact .part (.first known rfl) broken
  | addAssign target value =>
    obtain ⟨given, _, -, rest⟩ | broken := Work.failing_bind_eq_error.mp ended
    case inr => exact .part (.first known rfl) broken
    obtain ⟨_, _, -, rest⟩ | failed := Work.failing_bind_eq_error.mp rest
    case inr => exact .raised (.of_given (asInt_plain given) failed)
    obtain ⟨held, _, -, rest⟩ | failed := Work.failing_bind_eq_error.mp rest
    case inr => exact .raised (.of_read failed)
    obtain ⟨_, _, -, rest⟩ | failed := Work.failing_bind_eq_error.mp rest
    case inr => exact .raised (.of_given (asInt_plain held) failed)
    obtain ⟨_, _, -, impossible⟩ | failed := Work.failing_bind_eq_error.mp rest
    · cases impossible
    · exact .raised (.of_write failed)
  | call receiver method arguments =>
    obtain ⟨_, _, received, rest⟩ | broken := Work.failing_bind_eq_error.mp ended
    case inr => exact .part (.first known rfl) broken
    obtain ⟨_, _, -, failed⟩ | interrupted := Work.failing_bind_eq_error.mp rest
    · exact .raised (.of_callMember failed)
    · obtain ⟨_, _, _, _, _, listed, given, broken⟩ := mapM_interrupted interrupted
      exact .part (.argument known received listed given) broken
  | property receiver member =>
    obtain ⟨_, _, -, failed⟩ | broken := Work.failing_bind_eq_error.mp ended
    · exact .raised (.of_callMember failed)
    · exact .part (.first known rfl) broken
  | convert operand => exact .part (.first known rfl) ended
  | notEqual left right =>
    obtain ⟨_, _, compared, rest⟩ | broken := Work.failing_bind_eq_error.mp ended
    · obtain ⟨_, _, -, impossible⟩ | broken := Work.failing_bind_eq_error.mp rest
      · cases impossible
      · exact .part (.right known compared) broken
    · exact .part (.first known rfl) broken
  | block locals statements => exact .of_block known ended
  | ifThen condition consequence =>
    refine .of_condition known rfl ended fun holds middle tested rest => ?_
    cases holds with
    | true =>
      obtain ⟨_, _, -, impossible⟩ | broken := Work.failing_bind_eq_error.mp rest
      · cases impossible
      · exact .part (.consequence known tested) broken
    | false => cases rest
  | ifThenElse condition consequence alternative =>
    refine .of_condition known rfl ended fun holds middle tested rest => ?_
    obtain ⟨_, _, -, impossible⟩ | broken := Work.failing_bind_eq_error.mp rest
    · cases impossible
    · exact .part (.branch known tested) broken
  | loop body exit => exact .of_loop known ended
  | breakTo label =>
    cases ended
    exact .raised (.leaving known)
  | tryFinally body cleanup => exact .of_tryFinally known ended
  | lambda =>
    cases ended
    exact .raised (.failure fun _ => by simp)

end Cases

/-- An evaluation of a part has one step less. -/
theorem Enters.bound {task part : Task} {frame : Frame} (enters : program.Enters task frame part) :
    task.bound = part.bound + 1 := by
  cases enters <;> rfl

section Frames

variable {task inner : Task} {frames : List Frame} {interrupt : Interrupt} {raised after : Machine}

/-- An interrupt that no frame catches goes out when all that happens on the way has completed. -/
theorem Leads.interrupted (leads : program.Leads task frames inner)
    (ended : inner.run program = .ok (.error interrupt, raised))
    (uncaught : ∀ frame ∈ frames, ¬ frame.Catches interrupt)
    (cleaned : program.cleanAll frames raised = .ok (.ok (), after)) :
    task.run program = .ok (.error interrupt, after) := by
  induction leads generalizing after with
  | here =>
    cases cleaned
    exact ended
  | @inside task part inner frame frames enters _ ih =>
    obtain ⟨⟨⟩, middle, inside, outside⟩ | ⟨_, -, impossible⟩ := Work.failing_bind_eq_ok.mp cleaned
    case inr => cases impossible
    have atPart :=
      ih ended (fun frame listed => uncaught frame (List.mem_cons_of_mem _ listed)) inside
    rw [enters.interrupted atPart (uncaught frame (List.mem_cons_self ..)),
      Work.failing_bind_of_ok outside]
    rfl

/-- If what happens on the way out does not end, neither does the evaluation. -/
theorem Leads.stopped {stop : Stop} (leads : program.Leads task frames inner)
    (ended : inner.run program = .ok (.error interrupt, raised))
    (uncaught : ∀ frame ∈ frames, ¬ frame.Catches interrupt)
    (stopped : program.cleanAll frames raised = .error stop) :
    task.run program = .error stop := by
  induction leads with
  | here => cases stopped
  | @inside task part inner frame frames enters leads ih =>
    have uncaughtInside : ∀ frame ∈ frames, ¬ frame.Catches interrupt :=
      fun frame listed => uncaught frame (List.mem_cons_of_mem _ listed)
    cases inside : program.cleanAll frames raised with
    | error other =>
      rw [cleanAll, Work.failing_bind_of_stop inside] at stopped
      cases stopped
      exact enters.stopped (ih ended uncaughtInside inside)
    | ok reached =>
      obtain ⟨_ | ⟨⟩, middle⟩ := reached
      · rw [cleanAll, Work.failing_bind_of_error inside] at stopped
        cases stopped
      · rw [cleanAll, Work.failing_bind_of_ok inside] at stopped
        rw [enters.interrupted (leads.interrupted ended uncaughtInside inside)
          (uncaught frame (List.mem_cons_self ..)), Work.failing_bind_of_stop stopped]

/-- Only a cleanup can be interrupted among the things that happen when an interrupt passes a
frame. -/
theorem Frame.clean_interrupted {frame : Frame}
    (broken : frame.clean program raised = .ok (.error interrupt, after)) :
    ∃ bound node, frame = .cleanup bound node ∧
      program.evaluate bound node raised = .ok (.error interrupt, after) := by
  cases frame with
  | pass | loop | scope => cases broken
  | cleanup bound node =>
    obtain ⟨_, _, -, impossible⟩ | ended := Work.failing_bind_eq_error.mp broken
    · cases impossible
    · exact ⟨bound, node, rfl, ended⟩

/-- If a cleanup on the way out is interrupted, its statement ends with that interrupt, after the
cleanups further inside have completed. -/
theorem Leads.replaced {other : Interrupt} (leads : program.Leads task frames inner)
    (ended : inner.run program = .ok (.error interrupt, raised))
    (uncaught : ∀ frame ∈ frames, ¬ frame.Catches interrupt)
    (broken : program.cleanAll frames raised = .ok (.error other, after)) :
    ∃ around within bound cleanup guarded middle,
      frames = around ++ .cleanup bound cleanup :: within ∧
      program.cleanAll within raised = .ok (.ok (), middle) ∧
      program.evaluate bound cleanup middle = .ok (.error other, after) ∧
      program.Leads task around guarded ∧
      (∃ part, program.arena.kind guarded.node = .ok (.tryFinally part cleanup)) ∧
      guarded.run program = .ok (.error other, after) := by
  induction leads with
  | here => cases broken
  | @inside task part inner frame frames enters leads ih =>
    have uncaughtInside : ∀ frame ∈ frames, ¬ frame.Catches interrupt :=
      fun frame listed => uncaught frame (List.mem_cons_of_mem _ listed)
    obtain ⟨⟨⟩, middle, inside, outside⟩ | inside := Work.failing_bind_eq_error.mp broken
    · obtain ⟨bound, cleanup, rfl, cleaned⟩ := Frame.clean_interrupted outside
      refine ⟨[], frames, bound, cleanup, task, middle, rfl, inside, cleaned, .here task, ?_, ?_⟩
      · cases enters with
        | guarded known => exact ⟨_, known⟩
      · rw [enters.interrupted (leads.interrupted ended uncaughtInside inside) (by simp),
          Work.failing_bind_of_error outside]
    · obtain ⟨around, within, bound, cleanup, guarded, middle, rfl, cleaned, failed, reached, known,
        ends⟩ := ih ended uncaughtInside inside
      exact ⟨frame :: around, within, bound, cleanup, guarded, middle, rfl, cleaned, failed,
        .inside enters reached, known, ends⟩

/-- Every interrupt was raised somewhere, and has passed the frames around. -/
theorem exists_raised (ended : task.run program = .ok (.error interrupt, after)) :
    ∃ frames source raised, program.Leads task frames source ∧
      (∀ frame ∈ frames, ¬ frame.Catches interrupt) ∧ program.Raises source interrupt raised ∧
      program.cleanAll frames raised = .ok (.ok (), after) := by
  obtain ⟨bound, id, before⟩ := task
  induction bound generalizing id before after with
  | zero => cases ended
  | succ bound ih =>
    cases interrupted_cases ended with
    | raised raises => exact ⟨[], _, after, .here _, by simp, raises, rfl⟩
    | @passed frame part middle enters uncaught ended cleaned =>
      obtain ⟨less, node, machine⟩ := part
      obtain rfl : bound = less := by simpa using enters.bound
      obtain ⟨frames, source, raised, leads, uncaughtInside, raises, inside⟩ := ih _ _ ended
      refine ⟨frame :: frames, source, raised, .inside enters leads, ?_, raises, ?_⟩
      · intro other listed
        obtain rfl | inFrames := List.mem_cons.mp listed
        · exact uncaught
        · exact uncaughtInside other inFrames
      · rw [cleanAll, Work.failing_bind_of_ok inside]
        exact cleaned

end Frames

end Program

end Foreach
