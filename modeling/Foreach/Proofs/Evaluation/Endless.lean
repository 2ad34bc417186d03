import Foreach.Proofs.Evaluation.Interrupts
import Foreach.Proofs.Evaluation.Settling

/-!
# Where evaluation does not end

If evaluation exceeds every bound, it does not end at all. In an arena whose nodes are younger than
their children there are two reasons for that: evaluation comes to a loop all of whose rounds end,
without a break (`Program.EndlessLoop`), or to a call whose native body does not end
(`Program.EndlessBody`). All else that evaluation does comes to an end, because it goes from younger
nodes to older ones (`Program.evaluate_settles`).
-/
namespace Foreach

open Evaluation

namespace Program

/-- From the evaluation of a node, evaluation comes to a node further inside, from a machine. -/
inductive ComesTo (program : Program) : NodeId → Machine → NodeId → Machine → Prop where
  /-- Evaluation is at its own node. -/
  | here (id : NodeId) (machine : Machine) : ComesTo program id machine id machine
  /-- Evaluation is at a part, or further inside. -/
  | inside {bound : Nat} {id part node : NodeId} {before inner machine : Machine} {frame : Frame}
    (enters : program.Enters ⟨bound + 1, id, before⟩ frame ⟨bound, part, inner⟩)
    (comes : ComesTo program part inner node machine) : ComesTo program id before node machine

/-- The body of a loop runs to its end so many times, one after the other. -/
inductive Rounds (program : Program) (body : NodeId) : Nat → Machine → Machine → Prop where
  /-- No time. -/
  | none (machine : Machine) : Rounds program body 0 machine machine
  /-- Once, and then further times. -/
  | next {bound count : Nat} {value : Value} {before middle after : Machine}
    (ended : program.evaluate bound body before = .ok (.ok value, middle))
    (more : Rounds program body count middle after) :
    Rounds program body (count + 1) before after

/-- A node is a loop whose body runs to its end again and again. -/
def EndlessLoop (program : Program) (id : NodeId) (machine : Machine) : Prop :=
  ∃ body exit, program.arena.kind id = .ok (.loop body exit) ∧
    ∀ count, ∃ after, program.Rounds body count machine after

/-- A node calls a member on a value, with arguments, from a machine. -/
inductive CallsAt (program : Program) (id : NodeId) (before : Machine) :
    Value → MemberId → List Value → Machine → Prop where
  /-- A method is called. -/
  | call {bound : Nat} {receiver : NodeId} {method : MemberId} {range : ListRange} {value : Value}
    {values : List Value} {middle inner : Machine}
    (known : program.arena.kind id = .ok (.call receiver method range))
    (received : program.evaluate bound receiver before = .ok (.ok value, middle))
    (given : (program.arena.list range).mapM (program.evaluate bound) middle =
      .ok (.ok values, inner)) :
    CallsAt program id before value method values inner
  /-- A property is read. -/
  | property {bound : Nat} {receiver : NodeId} {member : MemberId} {value : Value}
    {inner : Machine} (known : program.arena.kind id = .ok (.property receiver member))
    (received : program.evaluate bound receiver before = .ok (.ok value, inner)) :
    CallsAt program id before value member [] inner

/-- A node calls a member whose native body does not end. -/
def EndlessBody (program : Program) (id : NodeId) (machine : Machine) : Prop :=
  ∃ receiver member arguments inner target body,
    program.CallsAt id machine receiver member arguments inner ∧ receiver.isNull = false ∧
    program.dispatch inner.heap receiver member = .ok target ∧
    program.natives.body? target = some body ∧
    body receiver arguments inner.heap = .error .exhausted

/-- Evaluation comes to a loop that goes on forever, or to a native body that does. -/
def StaysInside (program : Program) (id : NodeId) (machine : Machine) : Prop :=
  ∃ node inner, program.ComesTo id machine node inner ∧
    (program.EndlessLoop node inner ∨ program.EndlessBody node inner)

variable {program : Program} {id : NodeId} {before : Machine}

/-- Evaluation that stays inside a part stays inside the node. -/
theorem StaysInside.part {bound : Nat} {part : NodeId} {inner : Machine} {frame : Frame}
    (stays : program.StaysInside part inner)
    (enters : program.Enters ⟨bound + 1, id, before⟩ frame ⟨bound, part, inner⟩) :
    program.StaysInside id before := by
  obtain ⟨node, machine, comes, endless⟩ := stays
  exact ⟨node, machine, .inside enters comes, endless⟩

/-- Evaluation that stays inside a later round of a loop stays inside the loop. -/
theorem StaysInside.of_rounds {body : NodeId} {exit : Label} {count : Nat} {after : Machine}
    (known : program.arena.kind id = .ok (.loop body exit))
    (rounds : program.Rounds body count before after) (stays : program.StaysInside id after) :
    program.StaysInside id before := by
  induction rounds with
  | none => exact stays
  | next ended _ ih => exact (ih stays).part (.round known ended)

/-- Evaluation of a node settles if what is done for its kind does. -/
theorem settles_of_kind {kind : NodeKind} (known : program.arena.kind id = .ok kind)
    (settles : Settles (fun bound => program.evaluateNode (program.evaluate bound) id kind)
      before) :
    Settles (program.evaluate · id) before := by
  obtain ⟨outcome, ends, enough, same⟩ := settles
  refine ⟨outcome, ends, enough + 1, fun bound inside => ?_⟩
  obtain ⟨less, rfl⟩ : ∃ less, bound = less + 1 := ⟨bound - 1, by omega⟩
  show program.evaluate (less + 1) id before = outcome
  rw [evaluate_of_kind known]
  exact same less (by omega)

/-- Evaluation settles at once if there is no such node. -/
theorem settles_of_missing (missing : program.arena.node? id = none) :
    Settles (program.evaluate · id) before := by
  refine ⟨.error .violation, Checked.ends_violation, 1, fun bound inside => ?_⟩
  obtain ⟨less, rfl⟩ : ∃ less, bound = less + 1 := ⟨bound - 1, by omega⟩
  have unknown : program.arena.kind id = .error .violation := by
    rw [Arena.kind, Arena.node, missing]
    rfl
  show program.evaluate (less + 1) id before = _
  rw [evaluate, unknown]
  rfl

/-- A loop settles if its body does in every round, and there are not rounds forever. -/
theorem loop_settles {body : NodeId} {exit : Label} {count : Nat}
    (known : program.arena.kind id = .ok (.loop body exit))
    (ending : ∀ after, ¬ program.Rounds body count before after)
    (bodies : ∀ done after, program.Rounds body done before after →
      Settles (program.evaluate · body) after) :
    Settles (program.evaluate · id) before := by
  -- The induction is on how many rounds are too many.
  induction count generalizing before with
  | zero => exact absurd (.none before) (ending before)
  | succ count ih =>
    refine settles_of_kind known ((bodies 0 before (.none before)).attempt_bind ?_)
    intro outcome middle gives
    cases outcome with
    | ok value =>
      obtain ⟨bound, ended⟩ := gives.within
      exact ih (fun after rounds => ending after (.next ended rounds))
        fun done after rounds => bodies (done + 1) after (.next ended rounds)
    | error interrupt =>
      by_cases left : interrupt = .leaving exit
      · simp only [left, if_true]
        exact settles_of_ok rfl
      · simp only [left, if_false]
        exact settles_of_ok rfl

/-- Each part that the evaluation of a node comes to settles. -/
def PartsSettle (program : Program) (id : NodeId) (before : Machine) : Prop :=
  ∀ {kind : NodeKind} {bound : Nat} {frame : Frame} {part : NodeId} {inner : Machine},
    program.arena.kind id = .ok kind → part ∈ program.arena.children kind →
    program.Enters ⟨bound + 1, id, before⟩ frame ⟨bound, part, inner⟩ →
    Settles (program.evaluate · part) inner

/-- The part that the evaluation of a node begins with settles if every part does. -/
theorem PartsSettle.first (parts : program.PartsSettle id before) {kind : NodeKind} {part : NodeId}
    (known : program.arena.kind id = .ok kind) (begins : kind.first? = some part) :
    Settles (program.evaluate · part) before := by
  have isChild : part ∈ program.arena.children kind := by
    cases kind <;> cases begins <;> simp [Arena.children]
  exact parts known isChild
    (.first known begins : program.Enters ⟨0 + 1, id, before⟩ .pass ⟨0, part, before⟩)

/-- The call of a member settles unless its native body does not end. -/
theorem callMember_settles (closed : program.registry.Closed)
    (ending : ¬ program.EndlessBody id before) {receiver : Value} {member : MemberId}
    {arguments : List Value} {inner : Machine}
    (calls : program.CallsAt id before receiver member arguments inner) :
    Settles (fun _ => program.callMember receiver member arguments) inner := by
  refine settles_of_ends (callMember_ends closed fun _ _ isObject found isBody endless => ?_)
  exact ending ⟨_, _, _, _, _, _, calls, isObject, found, isBody, endless⟩

/-- A call settles if its receiver, its arguments and its body do. -/
theorem call_settles {receiver : NodeId} {method : MemberId} {arguments : ListRange}
    (known : program.arena.kind id = .ok (.call receiver method arguments))
    (parts : program.PartsSettle id before)
    (bodies : ∀ {value values inner}, program.CallsAt id before value method values inner →
      Settles (fun _ => program.callMember value method values) inner) :
    Settles (program.evaluate · id) before := by
  refine settles_of_kind known ((parts.first known rfl).bind fun value middle received => ?_)
  have settled : Settles (fun bound =>
      (program.arena.list arguments).mapM (program.evaluate bound)) middle := by
    refine settles_mapM fun earlier part later values inner listed given => ?_
    obtain ⟨bound, received, given⟩ := received.both given
    exact parts known (by simp [Arena.children, listed]) (.argument known received listed given)
  refine settled.bind fun values inner given => ?_
  obtain ⟨bound, received, given⟩ := received.both given
  exact bodies (.call known received given)

/-- A block settles if its statements do. -/
theorem block_settles {locals statements : ListRange}
    (known : program.arena.kind id = .ok (.block locals statements))
    (parts : program.PartsSettle id before) : Settles (program.evaluate · id) before := by
  have declared : Gives (fun _ => declareAll (program.arena.list locals)) before.enter
      (.ok (.ok (), before.enter.declareAll (program.arena.list locals))) :=
    ⟨0, fun _ _ => declareAll_apply _⟩
  refine settles_of_kind known (Settles.inScope ?_)
  refine (settles_of_ok (declareAll_apply _)).bind fun _ middle gives => ?_
  obtain ⟨_, gives⟩ := gives.within
  obtain rfl : before.enter.declareAll (program.arena.list locals) = middle := by
    rw [declareAll_apply] at gives
    cases gives
    rfl
  refine settles_runAll fun earlier part later last inner listed ran => ?_
  obtain ⟨bound, ran⟩ := ran.within
  exact parts known (by simp [Arena.children, listed]) (.statement known listed ran)

/-- What depends on a condition settles if the condition does, and what its truth selects. -/
theorem condition_settles {condition : NodeId} {next : Nat → Bool → Evaluation Value}
    (first : Settles (program.evaluate · condition) before)
    (second : ∀ holds middle,
      Gives (program.evaluate · condition) before (.ok (.ok (.bool holds), middle)) →
      Settles (fun bound => next bound holds) middle) :
    Settles (fun bound => do
      let holds ← Evaluation.given (← program.evaluate bound condition).asBool
      next bound holds) before := by
  refine first.bind fun value middle tested => ?_
  refine (settles_of_ends (given_ends value.asBool middle)).bind fun holds inner given => ?_
  obtain ⟨_, given⟩ := given.within
  obtain ⟨isBool, rfl⟩ := Evaluation.given_eq_ok.mp given
  cases value <;> cases isBool
  exact second _ _ tested

/-- A statement under a condition settles if the condition and the statement do. -/
theorem ifThen_settles {condition consequence : NodeId}
    (known : program.arena.kind id = .ok (.ifThen condition consequence))
    (parts : program.PartsSettle id before) : Settles (program.evaluate · id) before := by
  refine settles_of_kind known (condition_settles (parts.first known rfl) ?_)
  intro holds middle tested
  cases holds with
  | false => exact settles_of_ok rfl
  | true =>
    obtain ⟨bound, tested⟩ := tested.within
    have settled := parts known (by simp [Arena.children]) (.consequence known tested)
    exact settled.bind fun _ _ _ => settles_of_ok rfl

/-- A choice of two statements settles if the condition and the statements do. -/
theorem ifThenElse_settles {condition consequence alternative : NodeId}
    (known : program.arena.kind id = .ok (.ifThenElse condition consequence alternative))
    (parts : program.PartsSettle id before) : Settles (program.evaluate · id) before := by
  refine settles_of_kind known (condition_settles (parts.first known rfl) ?_)
  intro holds middle tested
  obtain ⟨bound, tested⟩ := tested.within
  have settled := parts known (by cases holds <;> simp [Arena.children]) (.branch known tested)
  exact settled.bind fun _ _ _ => settles_of_ok rfl

/-- A statement with a cleanup settles if it and the cleanup do. -/
theorem tryFinally_settles {body cleanup : NodeId}
    (known : program.arena.kind id = .ok (.tryFinally body cleanup))
    (parts : program.PartsSettle id before) : Settles (program.evaluate · id) before := by
  have guarded := parts known (by simp [Arena.children])
    (.guarded known : program.Enters ⟨0 + 1, id, before⟩ (.cleanup 0 cleanup) ⟨0, body, before⟩)
  refine settles_of_kind known (guarded.attempt_bind fun outcome middle ended => ?_)
  obtain ⟨bound, ended⟩ := ended.within
  have settled := parts known (by simp [Arena.children]) (.cleanup known ended)
  exact settled.bind fun _ _ _ => settles_of_ok rfl

/-- A node settles if its children do, unless evaluation stays inside it. -/
theorem node_settles (closed : program.registry.Closed) {kind : NodeKind}
    (known : program.arena.kind id = .ok kind)
    (children : ∀ child ∈ program.arena.children kind, ∀ inner,
      ¬ program.StaysInside child inner → Settles (program.evaluate · child) inner)
    (leaves : ¬ program.StaysInside id before) : Settles (program.evaluate · id) before := by
  have parts : program.PartsSettle id before := fun knownToo isChild enters =>
    children _ (by rwa [Except.ok.inj (known.symm.trans knownToo)]) _ fun stays =>
      leaves (stays.part enters)
  have bodies {receiver : Value} {member : MemberId} {arguments : List Value} {inner : Machine}
      (calls : program.CallsAt id before receiver member arguments inner) :
      Settles (fun _ => program.callMember receiver member arguments) inner :=
    callMember_settles closed
      (fun endless => leaves ⟨id, before, .here id before, .inr endless⟩) calls
  cases kind with
  | parameter | var => exact settles_of_kind known (settles_of_ends (program.read_ends id before))
  | int | bool | null | breakTo | lambda => exact settles_of_kind known (settles_of_ok rfl)
  | assign target value =>
    refine settles_of_kind known ((parts.first known rfl).bind fun given middle _ => ?_)
    exact settles_of_ends (Work.failing_bind_ends (program.write_ends target given middle)
      fun _ _ _ => Checked.ends_ok _)
  | addAssign target value =>
    refine settles_of_kind known ((parts.first known rfl).bind fun given middle _ => ?_)
    refine settles_of_ends (Work.failing_bind_ends (given_ends _ _) fun _ _ _ => ?_)
    refine Work.failing_bind_ends (program.read_ends _ _) fun _ _ _ => ?_
    refine Work.failing_bind_ends (given_ends _ _) fun _ _ _ => ?_
    exact Work.failing_bind_ends (program.write_ends _ _ _) fun _ _ _ => Checked.ends_ok _
  | call => exact call_settles known parts bodies
  | property receiver member =>
    refine settles_of_kind known ((parts.first known rfl).bind fun value middle received => ?_)
    obtain ⟨bound, received⟩ := received.within
    exact bodies (.property known received)
  | convert operand => exact settles_of_kind known (parts.first known rfl)
  | notEqual left right =>
    refine settles_of_kind known ((parts.first known rfl).bind fun value middle compared => ?_)
    obtain ⟨bound, compared⟩ := compared.within
    have settled := parts known (by simp [Arena.children]) (.right known compared)
    exact settled.bind fun _ _ _ => settles_of_ok rfl
  | block => exact block_settles known parts
  | ifThen => exact ifThen_settles known parts
  | ifThenElse => exact ifThenElse_settles known parts
  | loop body exit =>
    have ending : ¬ program.EndlessLoop id before := fun endless =>
      leaves ⟨id, before, .here id before, .inl endless⟩
    obtain ⟨count, ended⟩ : ∃ count, ∀ after, ¬ program.Rounds body count before after := by
      by_contra always
      push Not at always
      exact ending ⟨body, exit, known, always⟩
    refine loop_settles known ended fun done after rounds => ?_
    refine children body (by simp [Arena.children]) after fun stays => leaves ?_
    have enters : program.Enters ⟨0 + 1, id, after⟩ (.loop exit) ⟨0, body, after⟩ := .body known
    exact .of_rounds known rounds (stays.part enters)
  | tryFinally => exact tryFinally_settles known parts

/-- Evaluation settles if children are older than their nodes, unless it stays inside. -/
theorem evaluate_settles (closed : program.registry.Closed)
    (older : program.arena.ChildrenOlder)
    (leaves : ¬ program.StaysInside id before) : Settles (program.evaluate · id) before := by
  -- The induction is on the age of the node.
  induction age : id.index using Nat.strongRecOn generalizing id before with
  | ind age ih =>
    cases found : program.arena.node? id with
    | none => exact settles_of_missing found
    | some node =>
      refine node_settles closed (Arena.kind_eq_ok.mpr ⟨node, found, rfl⟩)
        (fun child isChild inner leaves => ?_) leaves
      exact ih child.index (age ▸ older id node found child isChild) leaves rfl

/-- Evaluation that exceeds every bound stays inside a loop or a native body. -/
theorem staysInside_of_exhausted (closed : program.registry.Closed)
    (older : program.arena.ChildrenOlder)
    (endless : ∀ bound, program.evaluate bound id before = .error .exhausted) :
    program.StaysInside id before := by
  by_contra leaves
  obtain ⟨outcome, ends, gives⟩ := evaluate_settles closed older leaves
  obtain ⟨bound, same⟩ := gives.within
  exact ends (same.symm.trans (endless bound))

end Program

end Foreach
