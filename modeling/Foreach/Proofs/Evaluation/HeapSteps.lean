import Mathlib.Logic.Relation
import Foreach.Proofs.Evaluation.Sessions

/-!
# What evaluation does to the heap

Evaluation works on the heap by running the bodies of members, and in no other way: whatever the
tree, however it is evaluated and however evaluation ends, the heap afterwards is what bodies that
ran one after the other made of the heap before (`Program.call_steps`). So what every body keeps,
evaluation keeps.

A body is work on the heap, most of which only looks at it (`HeapAction.Looks`).
-/
namespace Foreach

/-- A body ran: on one heap it ended with another, with a value or an error. -/
def Natives.Ran (natives : Natives) (before after : Heap) : Prop :=
  ∃ member body receiver arguments result, natives.body? member = some body ∧
    body receiver arguments before = .ok (result, after)

/-- Bodies ran one after the other. -/
abbrev Natives.Steps (natives : Natives) : Heap → Heap → Prop := Relation.ReflTransGen natives.Ran

/-- However an evaluation ends, bodies ran one after the other, and nothing else was done to the
heap. -/
def Natives.Drives {α : Type} (natives : Natives) (work : Evaluation α) : Prop :=
  ∀ before result after, work before = .ok (result, after) → natives.Steps before.heap after.heap

namespace Natives

variable {natives : Natives} {α β : Type} {work : Evaluation α}

/-- What leaves the heap runs no body. -/
theorem drives_still (still : ∀ before result after, work before = .ok (result, after) →
    after.heap = before.heap) : natives.Drives work := by
  intro before result after ended
  rw [still before result after ended]

/-- Evaluations in sequence run the bodies of one and then those of the other. -/
theorem drives_bind {next : α → Evaluation β} (first : natives.Drives work)
    (rest : ∀ value, natives.Drives (next value)) : natives.Drives (work >>= next) := by
  intro before result after ended
  obtain ⟨value, middle, head, tail⟩ | ⟨interrupt, head, -⟩ := Work.failing_bind_eq_ok.mp ended
  · exact (first _ _ _ head).trans (rest value _ _ _ tail)
  · exact first _ _ _ head

/-- What comes after an attempt runs further bodies, however the attempt ended. -/
theorem drives_attempt {next : Except Interrupt α → Evaluation β} (first : natives.Drives work)
    (rest : ∀ outcome, natives.Drives (next outcome)) :
    natives.Drives (Evaluation.attempt work >>= next) := by
  intro before result after ended
  obtain ⟨outcome, middle, head, tail⟩ := Evaluation.attempt_bind_eq_ok.mp ended
  exact (first _ _ _ head).trans (rest outcome _ _ _ tail)

/-- A scope of its own is nothing to the heap. -/
theorem drives_inScope (inner : natives.Drives work) :
    natives.Drives (Evaluation.inScope work) := by
  intro before result after ended
  obtain ⟨last, inside, rfl⟩ := Evaluation.inScope_eq_ok.mp ended
  have steps := inner _ _ _ inside
  exact steps

/-- A value alone runs no body. -/
theorem drives_pure (value : α) : natives.Drives (pure value : Evaluation α) := by
  refine drives_still fun before result after ended => ?_
  cases ended
  rfl

/-- An interrupt alone runs no body. -/
theorem drives_throw (interrupt : Interrupt) :
    natives.Drives (throw interrupt : Evaluation α) := by
  refine drives_still fun before result after ended => ?_
  cases ended
  rfl

/-- A given result runs no body. -/
theorem drives_given (given : Except EvaluationError α) :
    natives.Drives (Evaluation.given given) := by
  refine drives_still fun before result after ended => ?_
  obtain ⟨-, rfl⟩ := Evaluation.given_eq_ok.mp ended
  rfl

/-- An answer taken up again runs no body. -/
theorem drives_resume (outcome : Except Interrupt α) :
    natives.Drives (Evaluation.resume outcome) := by
  refine drives_still fun before result after ended => ?_
  rw [Evaluation.resume_apply] at ended
  cases ended
  rfl

/-- Declaring bindings runs no body. -/
theorem drives_declareAll (bindings : List NodeId) :
    natives.Drives (Program.declareAll bindings) := by
  refine drives_still fun before result after ended => ?_
  rw [Program.declareAll_apply] at ended
  cases ended
  rfl

/-- Reading a binding runs no body. -/
theorem drives_read (program : Program) (binding : NodeId) :
    natives.Drives (program.read binding) := by
  refine drives_still fun before result after ended => ?_
  rw [(Program.read_steady ended).1]

/-- Assigning to a binding runs no body. -/
theorem drives_write (program : Program) (binding : NodeId) (value : Value) :
    natives.Drives (program.write binding value) := by
  refine drives_still fun before result after ended => ?_
  obtain ⟨environment, -, -, rfl⟩ | ⟨_, _, -, -, -, rfl⟩ := Program.write_eq_ok.mp ended <;> rfl

/-- Evaluations of a list of arguments run the bodies of one after those of another. -/
theorem drives_mapM {evaluate : NodeId → Evaluation Value}
    (each : ∀ id, natives.Drives (evaluate id)) (ids : List NodeId) :
    natives.Drives (ids.mapM evaluate) := by
  induction ids with
  | nil => exact drives_pure []
  | cons id rest ih =>
    rw [List.mapM_cons]
    exact drives_bind (each id) fun value => drives_bind ih fun values => drives_pure _

/-- Evaluations of a list of statements run the bodies of one after those of another. -/
theorem drives_runAll {evaluate : NodeId → Evaluation Value}
    (each : ∀ id, natives.Drives (evaluate id)) (ids : List NodeId) (last : Value) :
    natives.Drives (Program.runAll evaluate last ids) := by
  induction ids generalizing last with
  | nil => exact drives_pure last
  | cons id rest ih => exact drives_bind (each id) fun value => ih value

end Natives

namespace Program

variable {program : Program}

open Natives

/-- A call of a member runs one body, or none if it fails before. -/
theorem drives_callMember (receiver : Value) (member : MemberId) (arguments : List Value) :
    program.natives.Drives (program.callMember receiver member arguments) := by
  intro before result after ended
  obtain ⟨given, calls, -⟩ := callMember_eq_ok.mp ended
  cases calls with
  | onNull | bodiless => exact .refl
  | runs present dispatched found ran =>
    exact .single ⟨_, _, receiver, arguments, given, found, ran⟩

/-- A node does to the heap what the nodes that it is made of do, and calls of members. -/
theorem drives_evaluateNode {evaluate : NodeId → Evaluation Value}
    (nodes : ∀ node, program.natives.Drives (evaluate node)) (id : NodeId) (kind : NodeKind) :
    program.natives.Drives (program.evaluateNode evaluate id kind) := by
  cases kind with
  | parameter | var => exact drives_read program id
  | int | bool | null => exact drives_pure _
  | assign target value =>
    refine drives_bind (nodes value) fun given => ?_
    exact drives_bind (drives_write program target given) fun _ => drives_pure given
  | addAssign target value =>
    refine drives_bind (nodes value) fun given => ?_
    refine drives_bind (drives_given _) fun increment => ?_
    refine drives_bind (drives_read program target) fun held => ?_
    refine drives_bind (drives_given _) fun before => ?_
    exact drives_bind (drives_write program target _) fun _ => drives_pure _
  | call receiver method arguments =>
    refine drives_bind (nodes receiver) fun value => ?_
    refine drives_bind (drives_mapM nodes _) fun values => ?_
    exact drives_callMember value method values
  | property receiver member =>
    exact drives_bind (nodes receiver) fun value => drives_callMember value member []
  | convert operand => exact nodes operand
  | notEqual left right =>
    exact drives_bind (nodes left) fun first => drives_bind (nodes right) fun second =>
      drives_pure _
  | block locals statements =>
    exact drives_inScope (drives_bind (drives_declareAll _) fun _ => drives_runAll nodes _ _)
  | ifThen condition consequence =>
    refine drives_bind (nodes condition) fun value => ?_
    refine drives_bind (drives_given _) fun holds => ?_
    cases holds with
    | true => exact drives_bind (nodes consequence) fun _ => drives_pure _
    | false => exact drives_pure _
  | ifThenElse condition consequence alternative =>
    refine drives_bind (nodes condition) fun value => ?_
    refine drives_bind (drives_given _) fun holds => ?_
    exact drives_bind (nodes _) fun _ => drives_pure _
  | loop body exit =>
    refine drives_attempt (nodes body) fun outcome => ?_
    cases outcome with
    | ok value => exact nodes id
    | error interrupt =>
      by_cases left : interrupt = .leaving exit
      · simp only [left, if_true]
        exact drives_pure _
      · simp only [left, if_false]
        exact drives_throw _
  | breakTo label => exact drives_throw _
  | tryFinally body cleanup =>
    exact drives_attempt (nodes body) fun outcome => drives_bind (nodes cleanup) fun _ =>
      drives_resume outcome
  | lambda => exact drives_throw _

/-- Evaluation of a node does to the heap what bodies do that run one after the other. -/
theorem drives_evaluate (bound : Nat) (id : NodeId) :
    program.natives.Drives (program.evaluate bound id) := by
  induction bound generalizing id with
  | zero =>
    intro before result after ended
    cases ended
  | succ bound ih =>
    intro before result after ended
    obtain ⟨kind, known⟩ := kind_of_evaluate ended
    rw [evaluate_of_kind known] at ended
    exact drives_evaluateNode ih id kind before result after ended

/-- A call does to the heap what bodies do that run one after the other, whatever is called and
however it ends. -/
theorem call_steps {bound : Nat} {call : Call} {before after : Machine}
    {result : Except EvaluationError Value}
    (ended : call.run program bound before = .ok (result, after)) :
    program.natives.Steps before.heap after.heap := by
  cases call with
  | eval root =>
    obtain ⟨outcome, inside, -⟩ := Evaluation.finish_eq_ok.mp ended
    exact drives_evaluate bound root _ _ _ inside
  | invoke function arguments =>
    rcases invoke_cases ended with rfl | ⟨body, scope, outcome, last, evaluated, rfl⟩
    · exact .refl
    · have steps := drives_evaluate _ body _ _ _ evaluated
      exact steps

end Program

namespace HeapAction

variable {α β : Type} {before after : Heap}

/-- Work that leaves the heap, however it ends. -/
def Looks (work : HeapAction α) : Prop :=
  ∀ ⦃before result after⦄, work before = .ok (result, after) → after = before

/-- A given result leaves the heap. -/
theorem given_eq_ok {given result : Except EvaluationError α} :
    HeapAction.given given before = .ok (result, after) ↔ given = result ∧ before = after := by
  have ended : HeapAction.given given before = .ok (given, before) := rfl
  simp [ended]

/-- An answer that the heap gives leaves it. -/
theorem ask_eq_ok {question : Heap → Except EvaluationError α} {result : Except EvaluationError α} :
    HeapAction.ask question before = .ok (result, after) ↔
      question before = result ∧ before = after := by
  have ended : HeapAction.ask question before = .ok (question before, before) := rfl
  simp [ended]

/-- To give a result is to look. -/
theorem looks_given (given : Except EvaluationError α) : Looks (HeapAction.given given) :=
  fun _ _ _ ended => (given_eq_ok.mp ended).2.symm

/-- To ask is to look. -/
theorem looks_ask (question : Heap → Except EvaluationError α) :
    Looks (HeapAction.ask question) :=
  fun _ _ _ ended => (ask_eq_ok.mp ended).2.symm

/-- What comes after a look goes on from the same heap, unless the look failed. -/
theorem Looks.bind_cases {work : HeapAction α} (looks : Looks work) {next : α → HeapAction β}
    {result : Except EvaluationError β} (ended : (work >>= next) before = .ok (result, after)) :
    after = before ∧ (∃ error, result = .error error) ∨
      ∃ value, work before = .ok (.ok value, before) ∧ next value before = .ok (result, after) := by
  obtain ⟨value, middle, head, tail⟩ | ⟨error, head, failed⟩ := Work.failing_bind_eq_ok.mp ended
  · obtain rfl := looks head
    exact .inr ⟨value, head, tail⟩
  · exact .inl ⟨looks head, error, failed⟩

/-- Work that begins with a look leaves the heap, or has an effect that comes after the look. -/
theorem Looks.bind_or {work : HeapAction α} (looks : Looks work) {next : α → HeapAction β}
    {result : Except EvaluationError β} {effect : Prop}
    (ended : (work >>= next) before = .ok (result, after))
    (rest : ∀ value, work before = .ok (.ok value, before) →
      next value before = .ok (result, after) → after = before ∨ effect) :
    after = before ∨ effect := by
  rcases looks.bind_cases ended with ⟨same, -⟩ | ⟨value, looked, further⟩
  · exact .inl same
  · exact rest value looked further

/-- Two looks are a look. -/
theorem Looks.bind {work : HeapAction α} (looks : Looks work) {next : α → HeapAction β}
    (further : ∀ value, Looks (next value)) : Looks (work >>= next) := by
  intro before result after ended
  rcases looks.bind_cases ended with ⟨same, -⟩ | ⟨value, -, rest⟩
  · exact same
  · exact further value rest

/-- To look at a field that holds an array is to look. -/
theorem looks_arrayField (object : ObjectId) (index : Nat) : Looks (arrayField object index) :=
  (looks_ask _).bind fun _ => looks_given _

/-- To look at a field that holds an integer is to look. -/
theorem looks_intField (object : ObjectId) (index : Nat) : Looks (intField object index) :=
  (looks_ask _).bind fun _ => looks_given _

/-- To look at a field that holds an object is to look. -/
theorem looks_objectField (object : ObjectId) (index : Nat) : Looks (objectField object index) :=
  (looks_ask _).bind fun _ => looks_given _

/-- An integer that is looked at in a field is there. -/
theorem field_of_intField {object : ObjectId} {index : Nat} {value : Int64}
    (found : intField object index before = .ok (.ok value, after)) :
    before.field object index = .ok (.int value) := by
  rcases (looks_ask _).bind_cases found with ⟨-, _, impossible⟩ | ⟨held, asked, given⟩
  · cases impossible
  · obtain ⟨isHeld, -⟩ := ask_eq_ok.mp asked
    obtain ⟨isInt, -⟩ := given_eq_ok.mp given
    rw [isHeld]
    cases held <;> cases isInt
    rfl

/-- A field is changed as `Heap.setField` says, or the heap is left. -/
theorem setField_cases {object : ObjectId} {index : Nat} {value : Value}
    {result : Except EvaluationError Unit}
    (ended : HeapAction.setField object index value before = .ok (result, after)) :
    after = before ∧ (∃ error, result = .error error) ∨
      result = .ok () ∧ before.setField object index value = .ok after := by
  rcases (looks_ask _).bind_cases ended with failed | ⟨changed, asked, rest⟩
  · exact .inl failed
  · obtain ⟨isChanged, -⟩ := ask_eq_ok.mp asked
    cases rest
    exact .inr ⟨rfl, isChanged⟩

end HeapAction

end Foreach
