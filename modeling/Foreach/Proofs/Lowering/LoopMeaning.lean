import Foreach.Proofs.Evaluation.Steady
import Foreach.Proofs.Lowering.LoopTree

/-!
# What a loop over the items of an enumerable means

`Program.meaning` is a loop over the items of an enumerable as it is understood, with no tree in
between: `GetEnumerator` is called once, the preamble runs, the body runs for as long as `MoveNext`
answers with true, and the enumerator is disposed of once however that ended. The block that the
loop becomes is evaluated to the same end, in the same machine.

Both have a bound. The block needs a larger one, since every node on the way inwards takes a part of
it.
-/
namespace Foreach

namespace Program

/-- Get the enumerator of a loop. -/
def acquire (program : Program) (loop : ForeachLoop) (bound : Nat) : Evaluation Value := do
  let subject ← program.evaluate bound loop.enumerable
  program.callMember subject loop.members.getEnumerator []

/-- Go on to one of two evaluations, depending on whether there is a next item. -/
def askNext (program : Program) (loop : ForeachLoop) (held : Value)
    (more finished : Evaluation Value) : Evaluation Value := do
  if ← Evaluation.given (← program.callMember held loop.members.moveNext []).asBool then more
  else finished

/-- The rounds of a loop, one for each item: fewer than the bound. -/
def rounds (program : Program) (loop : ForeachLoop) (held : Value) : Nat → Evaluation Value
  | 0 => fun (_ : Machine) => .error .exhausted
  | bound + 1 =>
    program.askNext loop held
      (do let _ ← program.evaluate bound loop.body; program.rounds loop held bound)
      (return .void)

/-- Dispose of a value by a strategy that calls a method. Only a null reference needs none, where
values are references. -/
def disposeHeld (program : Program) (strategy : DisposalStrategy) (method : MemberId)
    (held : Value) : Evaluation Unit :=
  if strategy = .referenceType ∧ held = .null then return
  else do let _ ← program.callMember held method []

/-- Dispose of an enumerator. Only a null reference needs none, where enumerators are references. -/
def disposeOf (program : Program) (loop : ForeachLoop) (held : Value) : Evaluation Unit :=
  if loop.strategy = .referenceType ∧ held = .null then return
  else do let _ ← program.callMember held loop.dispose []

/-- Enumerate with the enumerator that the variable of a loop holds, and dispose of it. If the
disposal does not complete, its end replaces that of the rounds. -/
def enumerate (program : Program) (loop : ForeachLoop) (bound : Nat) : Evaluation Value := do
  let held ← program.read loop.enumerator
  let ended ← Evaluation.attempt (program.rounds loop held bound)
  program.disposeOf loop held
  Evaluation.resume ended

/-- Run statements in order. -/
def runEach (evaluate : NodeId → Evaluation Value) (statements : List NodeId) : Evaluation Unit :=
  statements.forM fun statement => do let _ ← evaluate statement

/-- A loop over the items of an enumerable, within a bound. -/
def meaning (program : Program) (loop : ForeachLoop) (bound : Nat) : Evaluation Value :=
  Evaluation.inScope do
    declareAll (loop.enumerator :: loop.plan.locals)
    program.write loop.enumerator (← program.acquire loop bound)
    runEach (program.evaluate bound) loop.plan.preamble
    let last ← program.enumerate loop bound
    match loop.plan.result with
    | none => return last
    | some result => program.evaluate bound result

section Nodes

variable {program : Program} {id receiver : NodeId} {method : MemberId} {bound : Nat}
  {before after : Machine} {held : Value}

/-- A variable with a value is evaluated to it. -/
theorem evaluate_variable {name : String} (known : program.arena.kind id = .ok (.var name))
    (holds : before.environment.lookup id = .ok held) (bound : Nat) :
    program.evaluate (bound + 1) id before = .ok (.ok held, before) := by
  rw [evaluate_of_kind known]
  exact read_of_lookup holds

/-- A converted value is evaluated to itself. -/
theorem evaluate_convert {operand : NodeId} (known : program.arena.kind id = .ok (.convert operand))
    (bound : Nat) : program.evaluate (bound + 1) id = program.evaluate bound operand := by
  rw [evaluate_of_kind known]
  rfl

/-- A call without arguments is a call on what its receiver is evaluated to. -/
theorem evaluate_call (isCall : program.arena.IsCall id receiver method []) (bound : Nat) :
    program.evaluate (bound + 1) id =
      program.evaluate bound receiver >>= fun value => program.callMember value method [] := by
  obtain ⟨range, known, stored⟩ := isCall
  rw [evaluate_of_kind known, evaluateNode, stored.list]
  rfl

/-- A call without arguments on what is evaluated to a value is a call on that value. -/
theorem evaluate_call_of_receiver (isCall : program.arena.IsCall id receiver method [])
    (known : program.evaluate bound receiver before = .ok (.ok held, after)) :
    program.evaluate (bound + 1) id before = program.callMember held method [] after := by
  rw [evaluate_call isCall, Work.failing_bind_of_ok known]

/-- A binding is evaluated to what is read of it. -/
theorem evaluate_binding {kind : NodeKind} (known : program.arena.kind id = .ok kind)
    (isBinding : kind.isBinding = true) (bound : Nat) :
    program.evaluate (bound + 1) id = program.read id := by
  rw [evaluate_of_kind known]
  cases kind <;> first | rfl | cases isBinding

/-- A disposal of what a node is evaluated to disposes of that value. -/
theorem evaluate_isDisposal {resource : NodeId} {strategy : DisposalStrategy}
    (disposal : program.arena.IsDisposal id resource method strategy)
    (reads : ∀ bound, program.evaluate (bound + 1) resource before = .ok (.ok held, before))
    (bound : Nat) (next : Evaluation Value) :
    (program.evaluate (bound + 4) id >>= fun _ => next) before =
      (program.disposeHeld strategy method held >>= fun _ => next) before := by
  have called : ∀ {work : Evaluation Value},
      work before = program.callMember held method [] before →
      (work >>= fun _ => next) before =
        ((program.callMember held method [] >>= fun _ => pure ()) >>= fun _ => next) before := by
    intro work same
    rw [bind_assoc]
    exact Work.failing_bind_congr same
  unfold disposeHeld
  cases strategy with
  | valueType =>
    obtain ⟨receiver, converted, isCall⟩ := disposal
    rw [if_neg (by simp)]
    apply called
    apply evaluate_call_of_receiver isCall
    rw [evaluate_convert converted]
    exact reads _
  | byRefLike method =>
    rw [if_neg (by simp)]
    apply called
    exact evaluate_call_of_receiver disposal (reads _)
  | referenceType =>
    obtain ⟨present, missing, call, receiver, guarded, compared, null, converted, isCall⟩ :=
      disposal
    have nothing : program.evaluate (bound + 2) missing before = .ok (.ok .null, before) := by
      rw [evaluate_of_kind null]
      rfl
    have test : program.evaluate (bound + 3) present before =
        .ok (.ok (.bool (held ≠ .null)), before) := by
      rw [evaluate_of_kind compared, evaluateNode, Work.failing_bind_of_ok (reads _),
        Work.failing_bind_of_ok nothing]
      rfl
    rw [evaluate_of_kind guarded, evaluateNode, bind_assoc, Work.failing_bind_of_ok test]
    by_cases isNull : held = .null
    · rw [if_pos ⟨rfl, isNull⟩, isNull]
      rfl
    · have disposed : program.evaluate (bound + 3) call before =
          program.callMember held method [] before := by
        apply evaluate_call_of_receiver isCall
        rw [evaluate_convert converted]
        exact reads _
      rw [if_neg (by simp [isNull]), decide_eq_true isNull, ← called disposed]
      show ((program.evaluate (bound + 3) call >>= fun _ => pure Value.void) >>=
        fun _ => next) before = _
      rw [bind_assoc]
      rfl

end Nodes

section Parts

variable {program : Program} {loop : ForeachLoop} {nodes : LoopNodes} {block : NodeId}
  {before : Machine} {held : Value}

/-- The disposal of a lowered loop disposes of the enumerator. -/
theorem evaluate_disposal (form : nodes.Form program.arena block loop)
    (holds : before.environment.lookup loop.enumerator = .ok held) (bound : Nat)
    (next : Evaluation Value) :
    (program.evaluate (bound + 4) nodes.disposal >>= fun _ => next) before =
      (program.disposeOf loop held >>= fun _ => next) before :=
  evaluate_isDisposal form.disposal (evaluate_variable form.enumerator holds) bound next

/-- The question for a next item changes only what comes after it. -/
theorem askNext_refines {more finished otherMore otherOver : Evaluation Value} {after : Machine}
    {result : Except Interrupt Value}
    (whenMore : ∀ middle, middle.environment = before.environment →
      more middle = .ok (result, after) → otherMore middle = .ok (result, after))
    (whenOver : ∀ middle, middle.environment = before.environment →
      finished middle = .ok (result, after) → otherOver middle = .ok (result, after))
    (ended : program.askNext loop held more finished before = .ok (result, after)) :
    program.askNext loop held otherMore otherOver before = .ok (result, after) := by
  obtain ⟨answer, asked, called, decided⟩ | ⟨interrupt, called, rfl⟩ :=
    Work.failing_bind_eq_ok.mp ended
  · obtain ⟨same, -⟩ := callMember_steady called
    rw [askNext, Work.failing_bind_of_ok called]
    obtain ⟨holds, middle, given, chosen⟩ | ⟨interrupt, given, rfl⟩ :=
      Work.failing_bind_eq_ok.mp decided
    · rw [Work.failing_bind_of_ok given]
      obtain ⟨-, rfl⟩ := Evaluation.given_eq_ok.mp given
      cases holds with
      | true => exact whenMore _ same chosen
      | false => exact whenOver _ same chosen
    · exact Work.failing_bind_eq_ok.mpr (.inr ⟨interrupt, given, rfl⟩)
  · exact Work.failing_bind_eq_ok.mpr (.inr ⟨interrupt, called, rfl⟩)

/-- What comes after the question for a next item may be attempted before or after the question. -/
theorem attempt_askNext {more finished : Evaluation Value}
    {next : Except Interrupt Value → Evaluation Value}
    (failing : ∀ error, next (.error (.failure error)) = throw (.failure error)) :
    Evaluation.attempt (program.askNext loop held more finished) >>= next =
      program.askNext loop held (Evaluation.attempt more >>= next)
        (Evaluation.attempt finished >>= next) := by
  funext before
  unfold askNext
  cases called : program.callMember held loop.members.moveNext [] before with
  | error stop =>
    rw [Work.failing_bind_of_stop (Evaluation.attempt_of_stop (Work.failing_bind_of_stop called)),
      Work.failing_bind_of_stop called]
  | ok ended =>
    obtain ⟨outcome, middle⟩ := ended
    cases outcome with
    | error interrupt =>
      obtain ⟨-, stays⟩ := callMember_steady called
      cases interrupt with
      | leaving label => exact absurd rfl (stays label)
      | failure error =>
        rw [Work.failing_bind_of_ok (Evaluation.attempt_of_ok (Work.failing_bind_of_error called)),
          Work.failing_bind_of_error called, failing]
        rfl
    | ok answer =>
      rw [Work.failing_bind_congr (Evaluation.attempt_congr (Work.failing_bind_of_ok called)),
        Work.failing_bind_of_ok called]
      cases answer.asBool with
      | error error =>
        have failed : (throw (.failure error) : Evaluation Value) middle =
            .ok (.error (.failure error), middle) := rfl
        show (Evaluation.attempt (throw (.failure error)) >>= next) middle = _
        rw [Work.failing_bind_of_ok (Evaluation.attempt_of_ok failed), failing]
        rfl
      | ok holds => cases holds <;> rfl

/-- An enumerator that its variable holds is asked for a next item. -/
theorem evaluate_hasNext (form : nodes.Form program.arena block loop)
    (holds : before.environment.lookup loop.enumerator = .ok held) (bound : Nat) :
    program.evaluate (bound + 2) nodes.hasNext before =
      program.callMember held loop.members.moveNext [] before :=
  evaluate_call_of_receiver form.hasNext (evaluate_variable form.enumerator holds bound)

/-- A step of a lowered loop runs the body if there is a next item, and breaks if there is none. -/
theorem evaluate_step (form : nodes.Form program.arena block loop)
    (holds : before.environment.lookup loop.enumerator = .ok held) (bound : Nat) :
    program.evaluate (bound + 3) nodes.step before =
      program.askNext loop held
        (program.evaluate (bound + 2) loop.body >>= fun _ => pure .void)
        (throw (.leaving loop.exit)) before := by
  have leave : program.evaluate (bound + 2) nodes.leave = throw (.leaving loop.exit) := by
    rw [evaluate_of_kind form.leave]
    rfl
  rw [evaluate_of_kind form.step, evaluateNode, askNext,
    Work.failing_bind_congr (evaluate_hasNext form holds bound)]
  apply congrFun
  congr 1
  funext answer
  congr 1
  funext more
  cases more with
  | true => rfl
  | false =>
    show (program.evaluate (bound + 2) nodes.leave >>= fun _ => pure Value.void) = _
    rw [leave]
    rfl

/-- A body that never breaks to the label of its loop is followed by what follows a value. -/
theorem attempt_body (unassigned : program.arena.NeverAssigns loop.body loop.enumerator)
    (unbroken : program.arena.NeverBreaks loop.body loop.exit) (bound : Nat)
    (next : Evaluation Value) :
    (Evaluation.attempt (program.evaluate bound loop.body >>= fun _ => pure Value.void) >>=
      fun ended => match ended with
        | .ok _ => next
        | .error interrupt =>
          if interrupt = Interrupt.leaving loop.exit then pure Value.void else throw interrupt) =
      program.evaluate bound loop.body >>= fun _ => next := by
  funext before
  cases ran : program.evaluate bound loop.body before with
  | error stop =>
    rw [Work.failing_bind_of_stop (Evaluation.attempt_of_stop (Work.failing_bind_of_stop ran)),
      Work.failing_bind_of_stop ran]
  | ok ended =>
    obtain ⟨outcome, middle⟩ := ended
    cases outcome with
    | ok value =>
      rw [Work.failing_bind_congr (Evaluation.attempt_congr (Work.failing_bind_of_ok ran)),
        Work.failing_bind_of_ok ran]
      rfl
    | error interrupt =>
      obtain ⟨-, -, leavable⟩ :=
        evaluate_spares unassigned unbroken (Nat.le_refl bound) _ _ _ ran
      have onward : interrupt ≠ .leaving loop.exit :=
        fun same => leavable loop.exit (by rw [same]) rfl
      rw [Work.failing_bind_of_ok (Evaluation.attempt_of_ok (Work.failing_bind_of_error ran)),
        Work.failing_bind_of_error ran]
      show (if interrupt = .leaving loop.exit then pure Value.void else throw interrupt :
        Evaluation Value) middle = _
      rw [if_neg onward]
      rfl

/-- A lowered loop asks for a next item, and then goes on with the body and itself or is over. -/
theorem evaluate_looped (form : nodes.Form program.arena block loop)
    (unassigned : program.arena.NeverAssigns loop.body loop.enumerator)
    (unbroken : program.arena.NeverBreaks loop.body loop.exit)
    (holds : before.environment.lookup loop.enumerator = .ok held) (bound : Nat) :
    program.evaluate (bound + 4) nodes.looped before =
      program.askNext loop held
        (do let _ ← program.evaluate (bound + 2) loop.body
            program.evaluate (bound + 3) nodes.looped)
        (return .void) before := by
  rw [evaluate_of_kind form.looped, evaluateNode,
    Work.failing_bind_congr (Evaluation.attempt_congr (evaluate_step form holds bound)),
    attempt_askNext (fun _ => rfl)]
  have more := attempt_body unassigned unbroken (bound + 2)
    (program.evaluate (bound + 3) nodes.looped)
  refine congrFun (congrArg₂ (program.askNext loop held) more ?_) before
  show (if Interrupt.leaving loop.exit = .leaving loop.exit then pure Value.void else _ :
    Evaluation Value) = _
  rw [if_pos rfl]

/-- A lowered loop takes at least four of the bound to ask for a next item. -/
theorem looped_exhausted (form : nodes.Form program.arena block loop) {bound : Nat}
    (small : bound < 4) : program.evaluate bound nodes.looped before = .error .exhausted := by
  have hasNext : ∀ machine, program.evaluate 1 nodes.hasNext machine = .error .exhausted := by
    intro machine
    rw [evaluate_call form.hasNext]
    rfl
  have step : ∀ bound < 3, ∀ machine,
      program.evaluate bound nodes.step machine = .error .exhausted := by
    intro bound small machine
    match bound, small with
    | 0, _ => rfl
    | 1, _ =>
      rw [evaluate_of_kind form.step]
      rfl
    | 2, _ =>
      rw [evaluate_of_kind form.step]
      exact Work.failing_bind_of_stop (hasNext machine)
  cases bound with
  | zero => rfl
  | succ bound =>
    rw [evaluate_of_kind form.looped]
    exact Work.failing_bind_of_stop (Evaluation.attempt_of_stop (step bound (by omega) before))

/-- What follows the body finds the enumerator where it was. -/
theorem body_then_refines (unassigned : program.arena.NeverAssigns loop.body loop.enumerator)
    {small large : Nat}
    (within : small ≤ large) {next other : Evaluation Value} {after : Machine}
    {result : Except Interrupt Value}
    (holds : before.environment.lookup loop.enumerator = .ok held)
    (onward : ∀ middle : Machine, middle.environment.lookup loop.enumerator = .ok held →
      next middle = .ok (result, after) → other middle = .ok (result, after))
    (ended : (program.evaluate small loop.body >>= fun _ => next) before = .ok (result, after)) :
    (program.evaluate large loop.body >>= fun _ => other) before = .ok (result, after) := by
  obtain ⟨value, middle, ran, rest⟩ | ⟨interrupt, ran, rfl⟩ := Work.failing_bind_eq_ok.mp ended
  · have same := lookup_of_evaluate unassigned ran
    rw [Work.failing_bind_of_ok (evaluate_mono within ran)]
    exact onward middle (same.trans holds) rest
  · exact Work.failing_bind_of_error (evaluate_mono within ran)

/-- A lowered loop that ends, ends as the rounds do. -/
theorem rounds_of_looped (form : nodes.Form program.arena block loop)
    (unassigned : program.arena.NeverAssigns loop.body loop.enumerator)
    (unbroken : program.arena.NeverBreaks loop.body loop.exit) {small large : Nat}
    (within : small ≤ large) {after : Machine} {result : Except Interrupt Value}
    (holds : before.environment.lookup loop.enumerator = .ok held)
    (ended : program.evaluate small nodes.looped before = .ok (result, after)) :
    program.rounds loop held large before = .ok (result, after) := by
  induction small generalizing large before with
  | zero => cases ended
  | succ small ih =>
    obtain ⟨bound, rfl⟩ : ∃ bound, small = bound + 3 := by
      refine ⟨small - 3, ?_⟩
      by_contra tooSmall
      rw [looped_exhausted form (by omega)] at ended
      cases ended
    obtain ⟨large, rfl⟩ : ∃ more, large = more + 1 := ⟨large - 1, by omega⟩
    rw [evaluate_looped form unassigned unbroken holds] at ended
    refine askNext_refines (fun middle same chosen => ?_) (fun _ _ chosen => chosen) ended
    have stillHolds : middle.environment.lookup loop.enumerator = .ok held := by rw [same, holds]
    refine body_then_refines unassigned (by omega) stillHolds ?_ chosen
    exact fun further found looped => ih (by omega) found looped

/-- Rounds that end, end as the lowered loop does. -/
theorem looped_of_rounds (form : nodes.Form program.arena block loop)
    (unassigned : program.arena.NeverAssigns loop.body loop.enumerator)
    (unbroken : program.arena.NeverBreaks loop.body loop.exit) {bound : Nat}
    {after : Machine} {result : Except Interrupt Value}
    (holds : before.environment.lookup loop.enumerator = .ok held)
    (ended : program.rounds loop held bound before = .ok (result, after)) :
    program.evaluate (bound + 3) nodes.looped before = .ok (result, after) := by
  induction bound generalizing before with
  | zero => cases ended
  | succ bound ih =>
    rw [evaluate_looped form unassigned unbroken holds]
    refine askNext_refines (fun middle same chosen => ?_) (fun _ _ chosen => chosen) ended
    have stillHolds : middle.environment.lookup loop.enumerator = .ok held := by rw [same, holds]
    refine body_then_refines unassigned (by omega) stillHolds ?_ chosen
    exact fun further found ran => ih found ran

end Parts

end Program

end Foreach
