import Foreach.Proofs.Evaluation.Steady
import Foreach.Types.WellKnown

/-!
# Calls one after another

Evaluation leaves the scopes as it found them, however it ends: as many as before, each with the
bindings that it declared before, and a binding with a value keeps having one. So the scopes of a
machine that runs one call after another are never more than the one empty scope that it started
with (`Program.Session.environment`), and what a call gives depends on its arguments and the heap
alone. Both are stated together as `Program.leaves_environment`.
-/
namespace Foreach

/-- Whether a scope has a value for a binding. -/
def Scope.Assigns (scope : Scope) (binding : NodeId) : Prop :=
  ∃ value, scope.find? binding = some (some value)

/-- What is left of a scope: the same bindings are declared, and those that had a value have one. -/
structure Scope.Lasts (scope changed : Scope) : Prop where
  /-- The same bindings are declared. -/
  declared : ∀ binding, changed.declares binding = scope.declares binding
  /-- A binding that has a value keeps having one. -/
  assigned : ∀ binding, scope.Assigns binding → changed.Assigns binding

/-- What is left of all scopes: as many as there were, each of them as it was but for values. -/
structure Environment.Lasts (before after : Environment) : Prop where
  /-- There are as many scopes as before. -/
  depth : after.depth = before.depth
  /-- Each scope has lasted. -/
  scopes : List.Forall₂ Scope.Lasts before.scopes after.scopes

/-- A binding has a value in a scope if one is found there. -/
theorem Scope.assigns_iff {scope : Scope} {binding : NodeId} :
    scope.Assigns binding ↔ (scope.find? binding).join.isSome := by
  unfold Assigns
  cases scope.find? binding with
  | none => simp
  | some known => cases known <;> simp

/-- The discipline under which bindings last is what lasting scopes are. -/
theorem Scope.lasts_of_keeps {scope changed : Scope}
    (kept : Discipline.lasting.keeps scope changed) :
    scope.Lasts changed where
  declared binding := (kept binding).1
  assigned binding known := assigns_iff.mpr ((kept binding).2 (assigns_iff.mp known))

namespace Environment

/-- Scopes that keep to the discipline under which bindings last have lasted. -/
theorem lasts_of_keeps {before after : Environment} (kept : Discipline.lasting.Keeps before after) :
    before.Lasts after where
  depth := kept.length_eq.symm
  scopes := kept.imp fun _ _ => Scope.lasts_of_keeps

/-- Scopes last if nothing happens. -/
theorem Lasts.refl (environment : Environment) : environment.Lasts environment :=
  lasts_of_keeps (Discipline.keeps_refl environment)

/-- The one empty scope lasts only as itself. -/
theorem Lasts.of_empty {environment : Environment} (kept : empty.Lasts environment) :
    environment = empty := by
  obtain ⟨current, enclosing⟩ := environment
  obtain ⟨first, rest⟩ := List.forall₂_cons.mp kept.scopes
  obtain rfl := List.forall₂_nil_left_iff.mp rest
  have unknown : ∀ binding, Scope.declares current binding = false := first.declared
  cases current with
  | nil => rfl
  | cons entry others =>
    have declared : Scope.declares (entry :: others) entry.1 = true := by
      simp [Scope.declares, Scope.find?]
    rw [unknown] at declared
    cases declared

end Environment

/-- Evaluation of a whole tree ends where evaluation of its root ends. -/
theorem Evaluation.finish_eq_ok {α : Type} {work : Evaluation α} {before after : Machine}
    {result : Except EvaluationError α} :
    finish work before = .ok (result, after) ↔
      ∃ outcome, work before = .ok (outcome, after) ∧
        outcome.mapError Interrupt.error = result := by
  unfold finish
  cases work before with
  | error stop => simp [bind, Except.bind]
  | ok ended =>
    obtain ⟨outcome, machine⟩ := ended
    cases outcome <;> simp [bind, Except.bind, pure, Except.pure, and_comm]

/-- Giving parameters their values in a scope of its own leaves the scopes around it. -/
theorem Program.bindParameters_enter (parameters : List NodeId) (arguments : List Value)
    (before : Machine) :
    ∃ scope, bindParameters parameters arguments before.enter =
      .ok (.ok (), { before with environment := ⟨scope, before.environment.scopes⟩ }) := by
  have binds : ∀ (pairs : List (NodeId × Value)) (scope : Scope), ∃ defined,
      (pairs.forM fun pair => Evaluation.changeScopes fun environment =>
        environment.define pair.1 pair.2 : Evaluation Unit)
          { before with environment := ⟨scope, before.environment.scopes⟩ } =
        .ok (.ok (), { before with environment := ⟨defined, before.environment.scopes⟩ }) := by
    intro pairs
    induction pairs with
    | nil => exact fun scope => ⟨scope, rfl⟩
    | cons pair rest ih => exact fun scope => ih (scope.put pair.1 (some pair.2))
  exact binds (parameters.zip arguments) []

/-- What one can ask of a machine. -/
inductive Call where
  /-- The value of a tree. -/
  | eval (root : NodeId)
  /-- The value of a function for some arguments. -/
  | invoke (function : NodeId) (arguments : List Value)

/-- Run a call within a bound. -/
def Call.run (program : Program) (bound : Nat) : Call → Run Value
  | eval root => program.eval bound root
  | invoke function arguments => program.invoke bound function arguments

namespace Program

variable {program : Program}

/-- Evaluation leaves the scopes as it found them. -/
theorem evaluate_lasts {bound : Nat} {root : NodeId} {before after : Machine}
    {result : Except Interrupt Value}
    (ended : program.evaluate bound root before = .ok (result, after)) :
    before.environment.Lasts after.environment := by
  have allowed := Discipline.allows_lasting program.arena root
  obtain ⟨-, kept, -⟩ := evaluate_follows (Nat.le_refl bound) allowed _ _ _ ended
  exact Environment.lasts_of_keeps kept

/-- A call of a function is refused, or its body is evaluated in a scope of its own. -/
theorem invoke_cases {bound : Nat} {function : NodeId} {arguments : List Value}
    {before after : Machine} {result : Except EvaluationError Value}
    (ended : program.invoke bound function arguments before = .ok (result, after)) :
    after = before ∨ ∃ body scope outcome last,
      program.evaluate bound body
        { before with environment := ⟨scope, before.environment.scopes⟩ } = .ok (outcome, last) ∧
      after = last.leave := by
  obtain ⟨kind, middle, looked, ended⟩ | ⟨_, looked, -⟩ := Work.failing_bind_eq_ok.mp ended
  case inr => obtain ⟨_, -, absurd, -⟩ := Work.failing_lift_eq_ok.mp looked; cases absurd
  obtain ⟨_, -, -, rfl⟩ := Work.failing_lift_eq_ok.mp looked
  split at ended
  case h_2 =>
    cases ended
    exact .inl rfl
  case h_1 parameters body =>
    dsimp only at ended
    split at ended
    case isTrue =>
      cases ended
      exact .inl rfl
    case isFalse =>
      obtain ⟨outcome, inside, -⟩ := Evaluation.finish_eq_ok.mp ended
      obtain ⟨last, entered, rfl⟩ := Evaluation.inScope_eq_ok.mp inside
      obtain ⟨scope, bound⟩ := bindParameters_enter (program.arena.list parameters) arguments before
      rw [Work.failing_bind_of_ok bound] at entered
      exact .inr ⟨body, scope, outcome, last, entered, rfl⟩

/-- A call of a function leaves the scopes as it found them: if it is refused nothing happens, and
if it is not, its own scope is left again. -/
theorem invoke_lasts {bound : Nat} {function : NodeId} {arguments : List Value}
    {before after : Machine} {result : Except EvaluationError Value}
    (ended : program.invoke bound function arguments before = .ok (result, after)) :
    before.environment.Lasts after.environment := by
  rcases invoke_cases ended with rfl | ⟨body, scope, outcome, last, evaluated, rfl⟩
  · exact .refl _
  · have allowed := Discipline.allows_lasting program.arena body
    obtain ⟨-, kept, -⟩ := evaluate_follows (Nat.le_refl _) allowed _ _ _ evaluated
    exact Environment.lasts_of_keeps (Discipline.keeps_pop kept)

/-- A call leaves the scopes as it found them. -/
theorem run_lasts {bound : Nat} {call : Call} {before after : Machine}
    {result : Except EvaluationError Value}
    (ended : call.run program bound before = .ok (result, after)) :
    before.environment.Lasts after.environment := by
  cases call with
  | eval root =>
    obtain ⟨outcome, inside, -⟩ := Evaluation.finish_eq_ok.mp ended
    exact evaluate_lasts inside
  | invoke function arguments => exact invoke_lasts ended

/-- The machines of a program that have run calls one after another. Whatever a call ended with, the
next one runs where it ended, and the heap may be changed in between. -/
inductive Session (program : Program) : Machine → Prop where
  /-- Nothing was called yet. -/
  | start (heap : Heap) : Session program (.start heap)
  /-- The heap was changed. -/
  | change {machine : Machine} (heap : Heap) (earlier : Session program machine) :
      Session program { machine with heap }
  /-- One more call ended. -/
  | call {bound : Nat} {call : Call} {before after : Machine}
      {result : Except EvaluationError Value} (earlier : Session program before)
      (ended : call.run program bound before = .ok (result, after)) : Session program after

/-- Between calls there is exactly one empty scope. -/
theorem Session.environment {machine : Machine} (session : Session program machine) :
    machine.environment = .empty := by
  induction session with
  | start heap => rfl
  | change heap _ ih => exact ih
  | call _ ended ih => exact Environment.Lasts.of_empty (ih ▸ run_lasts ended)

/-- Every evaluation that ends, with a value, a failure or on its way out of a loop, leaves the
scopes as it found them. So after any calls there is exactly one empty scope again, and the next
call ends as it would on a fresh machine with the same heap. -/
theorem leaves_environment (program : Program) :
    (∀ bound root before result after,
      program.evaluate bound root before = .ok (result, after) →
        before.environment.Lasts after.environment) ∧
    (∀ machine, Session program machine → machine.environment = .empty ∧
      ∀ bound (call : Call),
        call.run program bound machine = call.run program bound (.start machine.heap)) := by
  refine ⟨fun _ _ _ _ _ ended => evaluate_lasts ended, fun machine session => ?_⟩
  have emptied := session.environment
  have fresh : machine = .start machine.heap := by rw [Machine.start, ← emptied]
  exact ⟨emptied, fun bound call => congrArg (call.run program bound) fresh⟩

/-- A function of a parameter `n` whose body, in a block with a variable `x`, gives the variable the
parameter's value in another block, and breaks out of both. -/
def escaping : Program where
  registry := .initial
  arena :=
    { nodes := #[⟨.parameter "n", .int⟩, ⟨.var "x", .int⟩, ⟨.var "y", .int⟩,
        ⟨.assign ⟨1⟩ ⟨0⟩, .int⟩, ⟨.assign ⟨2⟩ ⟨1⟩, .int⟩, ⟨.breakTo ⟨0⟩, .void⟩,
        ⟨.block ⟨0, 1⟩ ⟨1, 3⟩, .void⟩, ⟨.block ⟨4, 1⟩ ⟨5, 1⟩, .void⟩,
        ⟨.lambda ⟨6, 1⟩ ⟨7⟩, .object⟩]
      lists := #[⟨2⟩, ⟨3⟩, ⟨4⟩, ⟨5⟩, ⟨1⟩, ⟨6⟩, ⟨0⟩]
      labels := 1 }
  natives := .empty

/-- The break leaves the inner block and nothing of it stays but the value of the variable outside.
A call of the function fails, because no loop takes the break, and leaves one empty scope. -/
theorem escaping_leaves_environment :
    (∃ before after : Machine,
      escaping.evaluate 3 ⟨6⟩ before = .ok (.error (.leaving ⟨0⟩), after) ∧
      after.environment.lookup ⟨1⟩ = .ok (.int 7) ∧
      before.environment.Lasts after.environment) ∧
    ∃ after : Machine,
      escaping.invoke 5 ⟨8⟩ [.int 7] (.start .empty) = .ok (.error .invalidBreak, after) ∧
      after.environment = .empty ∧
      ∀ bound (call : Call),
        call.run escaping bound after = call.run escaping bound (.start after.heap) := by
  constructor
  · have ended : escaping.evaluate 3 ⟨6⟩ ⟨⟨[(⟨1⟩, none)], [[(⟨0⟩, some (.int 7))]]⟩, .empty⟩ =
        .ok (.error (.leaving ⟨0⟩),
          ⟨⟨[(⟨1⟩, some (.int 7))], [[(⟨0⟩, some (.int 7))]]⟩, .empty⟩) := by rfl
    exact ⟨_, _, ended, rfl, (leaves_environment escaping).1 _ _ _ _ _ ended⟩
  · have ended : (Call.invoke ⟨8⟩ [.int 7]).run escaping 5 (.start .empty) =
        .ok (.error .invalidBreak, .start .empty) := by rfl
    have session : Session escaping _ := .call (.start .empty) ended
    exact ⟨_, ended, (leaves_environment escaping).2 _ session⟩

end Program

end Foreach
