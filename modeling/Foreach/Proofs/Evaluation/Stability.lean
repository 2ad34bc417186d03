import Foreach.Proofs.Evaluation.Settling

/-!
# Evaluation within larger bounds

Evaluation that ends within a bound ends in the same way within every larger one, also if a broken
precondition ends it (`Program.evaluate_stable`): the bound is only a bound.
-/
namespace Foreach

namespace Evaluation

variable {α β : Type}

/-- Where one evaluation ends, another one ends in the same way. -/
def Below (work more : Evaluation α) : Prop := ∀ before, (work before).Ends →
  more before = work before

/-- An evaluation ends as it does. -/
theorem Below.refl (work : Evaluation α) : Below work work := fun _ _ => rfl

/-- What one evaluation comes to, another one that ends as it does comes to. -/
theorem Below.of_ok {work more : Evaluation α} (below : Below work more) {before : Machine}
    {outcome : Except Interrupt α × Machine} (ended : work before = .ok outcome) :
    more before = .ok outcome :=
  (below before (ended ▸ nofun)).trans ended

/-- Evaluation in sequence ends in the same way if each part does. -/
theorem Below.bind {work more : Evaluation α} {next nextMore : α → Evaluation β}
    (first : Below work more) (rest : ∀ value, Below (next value) (nextMore value)) :
    Below (work >>= next) (more >>= nextMore) := by
  intro before ends
  cases ended : work before with
  | error stop =>
    rw [Work.failing_bind_of_stop ended] at ends ⊢
    have same := first before (ended ▸ ends.of_error)
    rw [Work.failing_bind_of_stop (same.trans ended)]
  | ok outcome =>
    obtain ⟨outcome, middle⟩ := outcome
    have same := first.of_ok ended
    cases outcome with
    | error interrupt =>
      rw [Work.failing_bind_of_error ended, Work.failing_bind_of_error same]
    | ok value =>
      rw [Work.failing_bind_of_ok ended] at ends ⊢
      rw [Work.failing_bind_of_ok same]
      exact rest value middle ends

/-- An attempt ends in the same way if what is attempted does. -/
theorem Below.attempt {work more : Evaluation α} (below : Below work more) :
    Below (attempt work) (attempt more) := by
  intro before ends
  cases ended : work before with
  | error stop =>
    rw [attempt_of_stop ended] at ends ⊢
    have same := below before (ended ▸ ends.of_error)
    rw [attempt_of_stop (same.trans ended)]
  | ok outcome =>
    rw [attempt_of_ok ended, attempt_of_ok (below.of_ok ended)]

/-- What happens in a scope of its own ends in the same way if it does so there. -/
theorem Below.inScope {work more : Evaluation α} (below : Below work more) :
    Below (inScope work) (inScope more) :=
  (refl _).bind fun _ => below.attempt.bind fun _ => refl _

section Lists

variable {work more : NodeId → Evaluation Value} (each : ∀ id, Below (work id) (more id))
include each

/-- The evaluation of several nodes ends in the same way if that of each does. -/
theorem below_mapM (ids : List NodeId) : Below (ids.mapM work) (ids.mapM more) := by
  induction ids with
  | nil => exact .refl _
  | cons id rest ih =>
    rw [List.mapM_cons, List.mapM_cons]
    exact (each id).bind fun _ => ih.bind fun _ => .refl _

/-- Statements in order end in the same way if each does. -/
theorem below_runAll (ids : List NodeId) (last : Value) :
    Below (Program.runAll work last ids) (Program.runAll more last ids) := by
  induction ids generalizing last with
  | nil => exact .refl _
  | cons id rest ih => exact (each id).bind fun value => ih value

end Lists

end Evaluation

namespace Program

variable {program : Program} {id : NodeId} {before : Machine} {small large : Nat}

open Evaluation

/-- A node ends in the same way if the nodes that it is made of do. -/
theorem evaluateNode_below {work more : NodeId → Evaluation Value}
    (nodes : ∀ node, Below (work node) (more node)) (id : NodeId) (kind : NodeKind) :
    Below (program.evaluateNode work id kind) (program.evaluateNode more id kind) := by
  cases kind with
  | parameter | var | int | bool | null | breakTo | lambda => exact .refl _
  | assign _ value | addAssign _ value => exact (nodes value).bind fun _ => .refl _
  | call receiver _ arguments =>
    exact (nodes receiver).bind fun _ => (below_mapM nodes _).bind fun _ => .refl _
  | property receiver _ => exact (nodes receiver).bind fun _ => .refl _
  | convert operand => exact nodes operand
  | notEqual left right => exact (nodes left).bind fun _ => (nodes right).bind fun _ => .refl _
  | block locals statements =>
    exact ((Below.refl _).bind fun _ => below_runAll nodes _ _).inScope
  | ifThen condition consequence =>
    refine (nodes condition).bind fun _ => (Below.refl _).bind fun holds => ?_
    cases holds with
    | true => exact (nodes consequence).bind fun _ => .refl _
    | false => exact .refl _
  | ifThenElse condition =>
    exact (nodes condition).bind fun _ => (Below.refl _).bind fun _ => (nodes _).bind fun _ =>
      .refl _
  | loop body =>
    refine (nodes body).attempt.bind fun outcome => ?_
    cases outcome with
    | ok value => exact nodes id
    | error interrupt => exact .refl _
  | tryFinally body cleanup =>
    exact (nodes body).attempt.bind fun _ => (nodes cleanup).bind fun _ => .refl _

/-- A node that ends within a bound ends in the same way within every larger one. -/
theorem evaluate_below (within : small ≤ large) (id : NodeId) :
    Below (program.evaluate small id) (program.evaluate large id) := by
  induction small generalizing large id with
  | zero => exact fun _ ends => absurd rfl ends
  | succ small ih =>
    obtain ⟨more, rfl⟩ : ∃ more, large = more + 1 := ⟨large - 1, by omega⟩
    refine (Below.refl _).bind fun kind => ?_
    exact evaluateNode_below (ih (by omega)) id kind

/-- Evaluation that exceeds a bound exceeds every smaller one. -/
theorem exhausted_mono (within : small ≤ large)
    (endless : program.evaluate large id before = .error .exhausted) :
    program.evaluate small id before = .error .exhausted := by
  by_contra ends
  exact ends ((evaluate_below within id before ends).symm.trans endless)

end Program

end Foreach
