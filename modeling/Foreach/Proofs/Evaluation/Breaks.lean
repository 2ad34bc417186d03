import Foreach.Proofs.Evaluation.Interrupts
import Foreach.Proofs.Evaluation.Sessions
import Foreach.Proofs.Lowering.Sealing

/-!
# Breaks stay inside of their loops

A break travels outwards as an interrupt, through the nodes that evaluation is inside of, up to the
innermost running loop of its label, and every cleanup on its way runs. So it only gets out of a
tree in which a way down to a break passes no loop of its label, and the trees that are made of
`whileLoop`, `foreachLoop` and `useResource` are not such trees.
-/
namespace Foreach

/-- The node that a call evaluates. -/
def Call.root : Call → NodeId
  | eval root => root
  | invoke function _ => function

namespace Program

variable {program : Program}

/-- Evaluation goes from a node to one of its parts, or to a further round of a loop. The body of a
loop has the loop around it. -/
theorem Enters.node {task part : Task} {frame : Frame} (enters : program.Enters task frame part) :
    part.node = task.node ∨ ∃ kind, program.arena.kind task.node = .ok kind ∧
      part.node ∈ program.arena.children kind ∧
      ∀ body exit, kind = .loop body exit → frame = .loop exit := by
  cases enters with
  | @first _ _ _ kind _ known begins =>
    refine .inr ⟨kind, known, ?_⟩
    cases kind <;> cases begins <;> simp [Arena.children]
  | argument known _ listed _ => exact .inr ⟨_, known, by simp [Arena.children, listed], by simp⟩
  | right known _ => exact .inr ⟨_, known, by simp [Arena.children], by simp⟩
  | statement known listed _ => exact .inr ⟨_, known, by simp [Arena.children, listed], by simp⟩
  | consequence known _ => exact .inr ⟨_, known, by simp [Arena.children], by simp⟩
  | @branch _ _ _ _ _ holds _ _ known _ =>
    refine .inr ⟨_, known, ?_, by simp⟩
    cases holds <;> simp [Arena.children]
  | body known =>
    refine .inr ⟨_, known, by simp [Arena.children], ?_⟩
    rintro _ _ ⟨⟩
    rfl
  | round => exact .inl rfl
  | guarded known => exact .inr ⟨_, known, by simp [Arena.children], by simp⟩
  | cleanup known _ => exact .inr ⟨_, known, by simp [Arena.children], by simp⟩

/-- Where evaluation is at a break that no loop around takes, there is a way down to the break that
passes no loop of its label. -/
theorem Leads.descends {task source : Task} {frames : List Frame} {label : Label}
    (leads : program.Leads task frames source)
    (uncaught : ∀ frame ∈ frames, ¬ frame.Catches (.leaving label))
    (isBreak : program.arena.kind source.node = .ok (.breakTo label)) :
    ∃ path, program.arena.Descends task.node path source.node ∧
      ∀ loop ∈ path, ¬ program.arena.Owns loop label := by
  induction leads with
  | here task =>
    refine ⟨[task.node], .here _, ?_⟩
    rintro _ listed ⟨_, loops⟩
    obtain rfl := List.mem_singleton.mp listed
    rw [isBreak] at loops
    cases loops
  | @inside task part source frame frames enters _ ih =>
    obtain ⟨path, descends, unowned⟩ :=
      ih (fun frame listed => uncaught frame (List.mem_cons_of_mem _ listed)) isBreak
    obtain again | ⟨kind, known, listed, framed⟩ := enters.node
    · rw [again] at descends
      exact ⟨path, descends, unowned⟩
    · refine ⟨task.node :: path, .down known listed descends, ?_⟩
      rintro _ passed ⟨body, loops⟩
      obtain rfl | further := List.mem_cons.mp passed
      · rw [known] at loops
        obtain rfl := framed body label (Except.ok.inj loops)
        exact uncaught _ (List.mem_cons_self ..) (by simp)
      · exact unowned _ further ⟨body, loops⟩

/-- Evaluation of a sealed tree is never left with a break. -/
theorem evaluate_ne_leaving {bound : Nat} {root : NodeId} {label : Label} {before after : Machine}
    (inside : program.arena.Sealed root) :
    program.evaluate bound root before ≠ .ok (.error (.leaving label), after) := by
  intro ended
  have left : Task.run program ⟨bound, root, before⟩ = .ok (.error (.leaving label), after) := ended
  obtain ⟨frames, source, raised, leads, uncaught, raises, -⟩ := exists_raised left
  cases raises with
  | leaving isBreak =>
    obtain ⟨path, descends, unowned⟩ := leads.descends uncaught isBreak
    obtain ⟨loop, passed, owns⟩ := inside path _ label descends isBreak
    exact unowned loop passed owns

/-- Evaluation does not fail with the error of a break that no loop takes, unless the body of a
member does. -/
theorem evaluate_ne_invalidBreak {bound : Nat} {root : NodeId} {before after : Machine}
    (plain : program.natives.NeverBreak) :
    program.evaluate bound root before ≠ .ok (.error (.failure .invalidBreak), after) := by
  intro ended
  have failed : Task.run program ⟨bound, root, before⟩ =
      .ok (.error (.failure .invalidBreak), after) := ended
  obtain ⟨_, _, _, -, -, raises, -⟩ := exists_raised failed
  cases raises with
  | failure own => exact own plain rfl

/-- An evaluation that ends neither with a break nor with the error of one does not end a call with
that error. -/
theorem finish_ne_invalidBreak {work : Evaluation Value} {before after : Machine}
    (unfailed : ∀ last, work before ≠ .ok (.error (.failure .invalidBreak), last))
    (unbroken : ∀ label last, work before ≠ .ok (.error (.leaving label), last)) :
    Evaluation.finish work before ≠ .ok (.error .invalidBreak, after) := by
  intro ended
  obtain ⟨outcome, inside, same⟩ := Evaluation.finish_eq_ok.mp ended
  cases outcome with
  | ok value => cases same
  | error interrupt =>
    cases interrupt with
    | failure error =>
      cases same
      exact unfailed _ inside
    | leaving label => exact unbroken label _ inside

/-- A call that evaluates a sealed tree never ends with the error of a break that no loop takes. -/
theorem run_ne_invalidBreak {call : Call} {bound : Nat} {before after : Machine}
    (plain : program.natives.NeverBreak) (inside : program.arena.Sealed call.root) :
    call.run program bound before ≠ .ok (.error .invalidBreak, after) := by
  cases call with
  | eval root =>
    exact finish_ne_invalidBreak (fun _ => evaluate_ne_invalidBreak plain)
      fun _ _ => evaluate_ne_leaving inside
  | invoke function arguments =>
    intro ended
    obtain ⟨kind, _, looked, ended⟩ | ⟨_, looked, -⟩ := Work.failing_bind_eq_ok.mp ended
    case inr => obtain ⟨_, -, absurd, -⟩ := Work.failing_lift_eq_ok.mp looked; cases absurd
    obtain ⟨_, known, same, rfl⟩ := Work.failing_lift_eq_ok.mp looked
    obtain rfl := Except.ok.inj same
    split at ended
    case h_2 => cases ended
    case h_1 parameters body =>
      dsimp only at ended
      split at ended
      case isTrue => cases ended
      case isFalse =>
        have bodyInside : program.arena.Sealed body :=
          inside.part known (by simp) (by simp [Arena.children])
        obtain ⟨scope, bindings⟩ :=
          bindParameters_enter (program.arena.list parameters) arguments before
        refine finish_ne_invalidBreak ?_ ?_ ended
        · intro last entered
          obtain ⟨_, ran, -⟩ := Evaluation.inScope_eq_ok.mp entered
          rw [Work.failing_bind_of_ok bindings] at ran
          exact evaluate_ne_invalidBreak plain ran
        · intro label last entered
          obtain ⟨_, ran, -⟩ := Evaluation.inScope_eq_ok.mp entered
          rw [Work.failing_bind_of_ok bindings] at ran
          exact evaluate_ne_leaving bodyInside ran

/-- How a loop ends when evaluation, inside of its body and of further frames, is on the way out to
it. All that happens is what happens in `Program.cleanAll`. -/
structure EndsLoop (program : Program) (loop body : Task) (frames : List Frame) (raised : Machine) :
    Prop where
  /-- When every cleanup on the way has completed, the innermost first, the loop ends. -/
  completed : ∀ after, program.cleanAll frames raised = .ok (.ok (), after) →
    loop.run program = .ok (.ok .void, after)
  /-- When one of the cleanups is interrupted, after those further inside have completed, its
  statement ends with that interrupt, which is then what is on its way out. -/
  replaced : ∀ other after, program.cleanAll frames raised = .ok (.error other, after) →
    ∃ around within bound cleanup guarded middle,
      frames = around ++ .cleanup bound cleanup :: within ∧
      program.cleanAll within raised = .ok (.ok (), middle) ∧
      program.evaluate bound cleanup middle = .ok (.error other, after) ∧
      program.Leads body around guarded ∧
      (∃ part, program.arena.kind guarded.node = .ok (.tryFinally part cleanup)) ∧
      guarded.run program = .ok (.error other, after) ∧
      ∀ last, (∀ frame ∈ around, ¬ frame.Catches other) →
        program.cleanAll around after = .ok (.ok (), last) →
        body.run program = .ok (.error other, last)
  /-- When one of the cleanups does not end, neither does the loop. -/
  stopped : ∀ stop, program.cleanAll frames raised = .error stop →
    loop.run program = .error stop

/-- A loop was ended by a break of its label: in its last round, evaluation was at such a break with
no loop of the label in between, and every cleanup on the way has completed. -/
def EndedByBreak (program : Program) (loop : Task) (label : Label) (after : Machine) : Prop :=
  ∃ rounds last body frames source,
    program.Leads loop (List.replicate rounds .pass) last ∧ last.node = loop.node ∧
    program.Enters last (.loop label) body ∧ program.Leads body frames source ∧
    .loop label ∉ frames ∧ program.arena.kind source.node = .ok (.breakTo label) ∧
    program.cleanAll frames source.machine = .ok (.ok (), after)

/-- Frames let a break pass if no loop of its label is among them. -/
theorem uncaught_iff {frames : List Frame} {label : Label} :
    (∀ frame ∈ frames, ¬ frame.Catches (.leaving label)) ↔ .loop label ∉ frames := by
  constructor
  · exact fun uncaught listed => uncaught _ listed ⟨label, rfl, rfl⟩
  · rintro unlisted frame listed ⟨exit, rfl, left⟩
    cases left
    exact unlisted listed

/-- A break is on its way out from where evaluation is at it. -/
theorem run_of_breakTo {source : Task} {label : Label}
    (isBreak : program.arena.kind source.node = .ok (.breakTo label)) (within : 0 < source.bound) :
    source.run program = .ok (.error (.leaving label), source.machine) := by
  obtain ⟨_ | bound, node, machine⟩ := source
  · exact absurd within (Nat.lt_irrefl 0)
  · rw [Task.run, evaluate_of_kind isBreak]
    rfl

/-- Evaluation that is on its way out of a loop ends it, with what happens on the way. -/
theorem endsLoop {loop body source : Task} {frames : List Frame} {label : Label} {raised : Machine}
    (enters : program.Enters loop (.loop label) body) (leads : program.Leads body frames source)
    (innermost : .loop label ∉ frames)
    (ended : source.run program = .ok (.error (.leaving label), raised)) :
    program.EndsLoop loop body frames raised := by
  have uncaught := uncaught_iff.mpr innermost
  refine ⟨fun after cleaned => ?_, fun other after broken => ?_, fun stop stopped => ?_⟩
  · exact enters.left (leads.interrupted ended uncaught cleaned)
  · obtain ⟨around, within, bound, cleanup, guarded, middle, listed, cleaned, failed, reached,
      known, ends⟩ := leads.replaced ended uncaught broken
    exact ⟨around, within, bound, cleanup, guarded, middle, listed, cleaned, failed, reached,
      known, ends, fun last => reached.interrupted ends⟩
  · exact enters.stopped (leads.stopped ended uncaught stopped)

/-- A loop ends with a value only if a break of its label ends it. -/
theorem endedByBreak {loop : Task} {part : NodeId} {label : Label} {value : Value} {after : Machine}
    (known : program.arena.kind loop.node = .ok (.loop part label))
    (ended : loop.run program = .ok (.ok value, after)) :
    program.EndedByBreak loop label after := by
  obtain ⟨bound, id, before⟩ := loop
  induction bound generalizing before with
  | zero => cases ended
  | succ bound ih =>
    unfold Task.run at ended
    rw [evaluate_of_kind known] at ended
    obtain ⟨outcome, middle, head, rest⟩ := Evaluation.attempt_bind_eq_ok.mp ended
    cases outcome with
    | ok given =>
      obtain ⟨rounds, last, body, frames, source, leads, again, rest⟩ := ih middle known rest
      exact ⟨rounds + 1, last, body, frames, source, .inside (.round known head) leads, again, rest⟩
    | error interrupt =>
      by_cases left : interrupt = .leaving label
      · simp only [left, if_true] at rest
        cases rest
        subst left
        have atBody : Task.run program ⟨bound, part, before⟩ =
            .ok (.error (.leaving label), after) := head
        obtain ⟨frames, source, raised, leads, uncaught, raises, cleaned⟩ := exists_raised atBody
        cases raises with
        | leaving isBreak =>
          exact ⟨0, _, _, frames, source, .here _, rfl, .body known, leads,
            uncaught_iff.mp uncaught, isBreak, cleaned⟩
      · simp only [left, if_false] at rest
        cases rest

/-- A condition that never holds, and something to run while it does. -/
def loopParts : Arena := ⟨#[⟨.bool false, .bool⟩, ⟨.int 7, .int⟩], #[], 0⟩

/-- A loop inside of another, both of which run as long as a condition holds, and around them a loop
that runs a break of its own, with the two loops as the cleanup. One member has a body. -/
def nestedLoops : Program where
  registry := .initial
  arena :=
    { nodes := #[⟨.bool false, .bool⟩, ⟨.int 7, .int⟩,
        ⟨.breakTo ⟨0⟩, .void⟩, ⟨.ifThenElse ⟨0⟩ ⟨1⟩ ⟨2⟩, .void⟩, ⟨.loop ⟨3⟩ ⟨0⟩, .void⟩,
        ⟨.breakTo ⟨1⟩, .void⟩, ⟨.ifThenElse ⟨0⟩ ⟨4⟩ ⟨5⟩, .void⟩, ⟨.loop ⟨6⟩ ⟨1⟩, .void⟩,
        ⟨.breakTo ⟨2⟩, .void⟩, ⟨.tryFinally ⟨8⟩ ⟨7⟩, .void⟩, ⟨.loop ⟨9⟩ ⟨2⟩, .void⟩]
      lists := #[]
      labels := 3 }
  natives := Natives.empty.define ⟨0⟩ fun _ _ => return .void

end Program

end Foreach
