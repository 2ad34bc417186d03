import Foreach.Proofs.Evaluation.Endless
import Foreach.Proofs.Evaluation.Sessions
import Foreach.Proofs.Evaluation.Stability

/-!
# What exceeds every bound

Evaluation that comes to a loop that goes on forever, or to a native body that does, exceeds every
bound. With what was said of evaluation that does not, this tells exactly when evaluation does not
end (`Program.exhausted_iff`), and the same for what one can ask of a machine
(`Call.exhausted_iff`).
-/
namespace Foreach

open Evaluation

namespace Program

variable {program : Program} {id : NodeId} {before : Machine}

/-- Evaluation is at a part within larger bounds too. -/
theorem Enters.mono {bound more : Nat} {part : NodeId} {inner : Machine} {frame : Frame}
    (within : bound ≤ more)
    (enters : program.Enters ⟨bound + 1, id, before⟩ frame ⟨bound, part, inner⟩) :
    ∃ frame, program.Enters ⟨more + 1, id, before⟩ frame ⟨more, part, inner⟩ := by
  have nodes : ∀ node, Below (program.evaluate bound node) (program.evaluate more node) :=
    evaluate_below within
  cases enters with
  | first known begins => exact ⟨_, .first known begins⟩
  | argument known received listed given =>
    exact ⟨_, .argument known ((nodes _).of_ok received) listed ((below_mapM nodes _).of_ok given)⟩
  | right known compared => exact ⟨_, .right known ((nodes _).of_ok compared)⟩
  | statement known listed ran =>
    exact ⟨_, .statement known listed ((below_runAll nodes _ _).of_ok ran)⟩
  | consequence known holds => exact ⟨_, .consequence known ((nodes _).of_ok holds)⟩
  | branch known tested => exact ⟨_, .branch known ((nodes _).of_ok tested)⟩
  | body known => exact ⟨_, .body known⟩
  | round known ended => exact ⟨_, .round known ((nodes _).of_ok ended)⟩
  | guarded known => exact ⟨_, .guarded known⟩
  | cleanup known ended => exact ⟨_, .cleanup known ((nodes _).of_ok ended)⟩

/-- A node exceeds every bound if a part that its evaluation comes to does. -/
theorem Enters.exhausted {small bound : Nat} {part : NodeId} {inner : Machine} {frame : Frame}
    (enters : program.Enters ⟨small + 1, id, before⟩ frame ⟨small, part, inner⟩)
    (endless : ∀ bound, program.evaluate bound part inner = .error .exhausted) :
    program.evaluate bound id before = .error .exhausted := by
  obtain ⟨_, larger⟩ := enters.mono (Nat.le_max_left small bound)
  have within : bound ≤ max small bound + 1 := Nat.le_succ_of_le (Nat.le_max_right small bound)
  exact exhausted_mono within (larger.stopped (endless _))

/-- A loop whose body ends again and again still does so after the first time. -/
theorem Rounds.tail {body : NodeId} {bound count : Nat} {value : Value} {middle after : Machine}
    (ended : program.evaluate bound body before = .ok (.ok value, middle))
    (rounds : program.Rounds body (count + 1) before after) :
    program.Rounds body count middle after := by
  cases rounds with
  | @next other _ _ _ _ _ endedToo more =>
    have same := (evaluate_mono (Nat.le_max_left bound other) ended).symm.trans
      (evaluate_mono (Nat.le_max_right bound other) endedToo)
    cases same
    exact more

/-- A loop whose body ends again and again exceeds every bound. -/
theorem EndlessLoop.exhausted (endless : program.EndlessLoop id before) (bound : Nat) :
    program.evaluate bound id before = .error .exhausted := by
  obtain ⟨body, exit, known, rounds⟩ := endless
  induction bound generalizing before with
  | zero => rfl
  | succ bound ih =>
    rw [evaluate_of_kind known, evaluateNode]
    by_cases ends : (program.evaluate bound body before).Ends
    · obtain ⟨_, round⟩ := rounds 1
      cases round with
      | @next other _ value _ middle _ ended _ =>
        -- The body ends in the same way within both bounds.
        have ended : program.evaluate bound body before = .ok (.ok value, middle) :=
          (evaluate_below (Nat.le_max_left bound other) body before ends).symm.trans
            (evaluate_mono (Nat.le_max_right bound other) ended)
        rw [Work.failing_bind_of_ok (attempt_of_ok ended)]
        exact ih fun count => (rounds (count + 1)).imp fun _ more => more.tail ended
    · rw [Checked.Ends, not_not] at ends
      exact Work.failing_bind_of_stop (attempt_of_stop ends)

/-- Within every bound that is large enough, a node that calls a member ends as the call does. -/
theorem CallsAt.run_eq {receiver : Value} {member : MemberId} {arguments : List Value}
    {inner : Machine} (calls : program.CallsAt id before receiver member arguments inner) :
    ∃ enough, ∀ bound, enough ≤ bound → program.evaluate (bound + 1) id before =
      program.callMember receiver member arguments inner := by
  cases calls with
  | @call enough _ _ _ _ _ _ _ known received given =>
    refine ⟨enough, fun bound within => ?_⟩
    have nodes (node : NodeId) : Below (program.evaluate enough node)
      (program.evaluate bound node) := evaluate_below within node
    rw [evaluate_of_kind known, evaluateNode,
      Work.failing_bind_of_ok ((nodes _).of_ok received),
      Work.failing_bind_of_ok ((below_mapM nodes _).of_ok given)]
  | @property enough _ _ _ _ known received =>
    refine ⟨enough, fun bound within => ?_⟩
    rw [evaluate_of_kind known, evaluateNode,
      Work.failing_bind_of_ok ((evaluate_below within _).of_ok received)]

/-- A call whose native body does not end exceeds every bound. -/
theorem EndlessBody.exhausted (endless : program.EndlessBody id before) (bound : Nat) :
    program.evaluate bound id before = .error .exhausted := by
  obtain ⟨receiver, member, arguments, inner, target, body, calls, isObject, found, isBody,
    stays⟩ := endless
  have present : receiver ≠ .null := fun isNull => by
    rw [isNull_iff.mpr isNull] at isObject
    cases isObject
  have stopped : program.callMember receiver member arguments inner = .error .exhausted := by
    rw [callMember_of_body present found isBody, onHeap, stays]
    rfl
  obtain ⟨enough, run⟩ := calls.run_eq
  have within : bound ≤ max enough bound + 1 := Nat.le_succ_of_le (Nat.le_max_right enough bound)
  exact exhausted_mono within ((run _ (Nat.le_max_left enough bound)).trans stopped)

/-- Evaluation that comes to what does not end exceeds every bound. -/
theorem StaysInside.exhausted (stays : program.StaysInside id before) (bound : Nat) :
    program.evaluate bound id before = .error .exhausted := by
  obtain ⟨node, inner, comes, endless⟩ := stays
  induction comes generalizing bound with
  | here => exact endless.elim (·.exhausted bound) (·.exhausted bound)
  | inside enters _ ih => exact enters.exhausted fun bound => ih bound endless

/-- If children are older than their nodes, evaluation exceeds every bound exactly if it stays
inside a loop or a native body. -/
theorem exhausted_iff (closed : program.registry.Closed)
    (older : program.arena.ChildrenOlder) :
    (∀ bound, program.evaluate bound id before = .error .exhausted) ↔
      program.StaysInside id before :=
  ⟨staysInside_of_exhausted closed older, StaysInside.exhausted⟩

end Program

section Whole

variable {work : Evaluation Value} {machine : Machine}

/-- A whole evaluation exceeds its bound exactly if evaluation of its root does. -/
theorem Evaluation.finish_exhausted_iff :
    finish work machine = .error .exhausted ↔ work machine = .error .exhausted := by
  unfold finish
  cases work machine with
  | error stop => simp [bind, Except.bind]
  | ok ended => simp [bind, Except.bind, pure, Except.pure]

/-- Evaluation in a scope of its own exceeds its bound exactly if it does so there. -/
theorem Evaluation.inScope_exhausted_iff :
    inScope work machine = .error .exhausted ↔ work machine.enter = .error .exhausted := by
  have entered : changeScopes Environment.push machine = .ok (.ok (), machine.enter) := rfl
  rw [inScope, Work.failing_bind_of_ok entered]
  cases ended : work machine.enter with
  | error stop => simp [Work.failing_bind_of_stop (attempt_of_stop ended)]
  | ok outcome =>
    obtain ⟨result, inner⟩ := outcome
    have left : changeScopes Environment.pop inner = .ok (.ok (), inner.leave) := rfl
    rw [Work.failing_bind_of_ok (attempt_of_ok ended), Work.failing_bind_of_ok left, resume_apply]
    simp

end Whole

/-- The evaluation that a call comes down to, if it is not refused: of a root, from a machine. -/
inductive Call.Starts (program : Program) : Call → Machine → NodeId → Machine → Prop where
  /-- A tree is evaluated from the machine as it is. -/
  | eval (root : NodeId) (machine : Machine) : Starts program (.eval root) machine root machine
  /-- The body of a function is evaluated in a scope of its own, where its parameters have the
  arguments as their values. -/
  | invoke {function body : NodeId} {parameters : ListRange} {arguments : List Value}
    {machine start : Machine} (known : program.arena.kind function = .ok (.lambda parameters body))
    (counted : (program.arena.list parameters).length = arguments.length)
    (binds : Program.bindParameters (program.arena.list parameters) arguments machine.enter =
      .ok (.ok (), start)) :
    Starts program (.invoke function arguments) machine body start

/-- A call comes down to an evaluation that stays inside a loop or a native body. -/
def Call.StaysInside (program : Program) (call : Call) (machine : Machine) : Prop :=
  ∃ root start, call.Starts program machine root start ∧ program.StaysInside root start

namespace Call

variable {program : Program} {call : Call} {machine start : Machine} {root : NodeId} {bound : Nat}

/-- A call exceeds a bound exactly if the evaluation that it comes down to does. -/
theorem Starts.run_exhausted_iff (starts : call.Starts program machine root start) :
    call.run program bound machine = .error .exhausted ↔
      program.evaluate bound root start = .error .exhausted := by
  cases starts with
  | eval => exact finish_exhausted_iff
  | invoke known counted binds =>
    rw [Call.run, Program.invoke_of_kind known, if_neg (not_not.mpr counted),
      finish_exhausted_iff, inScope_exhausted_iff, Work.failing_bind_of_ok binds]

/-- A call that exceeds a bound comes down to an evaluation. -/
theorem exists_starts (exhausted : call.run program bound machine = .error .exhausted) :
    ∃ root start, call.Starts program machine root start := by
  cases call with
  | eval root => exact ⟨root, machine, .eval root machine⟩
  | invoke function arguments =>
    rw [Call.run] at exhausted
    cases known : program.arena.kind function with
    | error stop =>
      have unknown : Checked.Ends (.error stop) := known ▸ program.arena.kind_ends function
      rw [Program.invoke, known] at exhausted
      exact absurd exhausted unknown.of_error
    | ok kind =>
      cases kind with
      | lambda parameters body =>
        by_cases counted : (program.arena.list parameters).length = arguments.length
        · obtain ⟨scope, binds⟩ :=
            Program.bindParameters_enter (program.arena.list parameters) arguments machine
          exact ⟨body, _, .invoke known counted binds⟩
        · rw [Program.invoke_of_kind known, if_pos counted] at exhausted
          cases exhausted
      | _ =>
        rw [Program.invoke, known] at exhausted
        cases exhausted

/-- If children are older than their nodes, a call exceeds every bound exactly if it stays inside a
loop or a native body. -/
theorem exhausted_iff (closed : program.registry.Closed)
    (older : program.arena.ChildrenOlder) :
    (∀ bound, call.run program bound machine = .error .exhausted) ↔
      call.StaysInside program machine := by
  constructor
  · intro endless
    obtain ⟨root, start, starts⟩ := exists_starts (endless 0)
    exact ⟨root, start, starts, (Program.exhausted_iff closed older).mp fun bound =>
      starts.run_exhausted_iff.mp (endless bound)⟩
  · rintro ⟨root, start, starts, stays⟩ bound
    exact starts.run_exhausted_iff.mpr (stays.exhausted bound)

end Call

end Foreach
