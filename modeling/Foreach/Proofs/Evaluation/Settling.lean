import Foreach.Proofs.Ending
import Foreach.Proofs.Evaluation.Actions

/-!
# Evaluation that settles

Evaluation within a bound stops when the bound is exceeded. It settles if it ends within every bound
that is large enough, each time in the same way (`Evaluation.Settles`). Evaluation in sequence
settles if its parts do. What evaluation does by itself, without evaluating other nodes, does not
depend on the bound and ends, except for a native body that does not.
-/
namespace Foreach

namespace Evaluation

variable {α β : Type}

/-- Evaluation within every bound that is large enough comes to the same. -/
def Gives (work : Nat → Evaluation α) (before : Machine)
    (outcome : Checked (Except Interrupt α × Machine)) : Prop :=
  ∃ enough, ∀ bound, enough ≤ bound → work bound before = outcome

/-- Evaluation ends within every bound that is large enough, in the same way. -/
def Settles (work : Nat → Evaluation α) (before : Machine) : Prop :=
  ∃ outcome : Checked (Except Interrupt α × Machine), outcome.Ends ∧ Gives work before outcome

section Bounds

variable {work other : Nat → Evaluation α} {next : Nat → α → Evaluation β}
  {before middle : Machine} {value : α} {outcome : Checked (Except Interrupt α × Machine)}

/-- Two evaluations come to what they come to within one bound. -/
theorem Gives.both {others : Nat → Evaluation β} {start : Machine}
    {comes : Checked (Except Interrupt β × Machine)} (gives : Gives work before outcome)
    (givesToo : Gives others start comes) :
    ∃ bound, work bound before = outcome ∧ others bound start = comes := by
  obtain ⟨enough, same⟩ := gives
  obtain ⟨enoughToo, sameToo⟩ := givesToo
  exact ⟨max enough enoughToo, same _ (Nat.le_max_left _ _), sameToo _ (Nat.le_max_right _ _)⟩

/-- Evaluation comes to what it comes to within some bound. -/
theorem Gives.within (gives : Gives work before outcome) : ∃ bound, work bound before = outcome :=
  gives.imp fun enough same => same enough (Nat.le_refl enough)

/-- Evaluation in sequence comes to what its second part comes to. -/
theorem Gives.bind {comes : Checked (Except Interrupt β × Machine)}
    (first : Gives work before (.ok (.ok value, middle)))
    (second : Gives (fun bound => next bound value) middle comes) :
    Gives (fun bound => work bound >>= next bound) before comes := by
  obtain ⟨enough, same⟩ := first
  obtain ⟨enoughToo, sameToo⟩ := second
  refine ⟨max enough enoughToo, fun bound inside => ?_⟩
  show (work bound >>= next bound) before = comes
  rw [Work.failing_bind_of_ok (same bound (Nat.le_trans (Nat.le_max_left _ _) inside))]
  exact sameToo bound (Nat.le_trans (Nat.le_max_right _ _) inside)

/-- What does not depend on the bound and ends, settles. -/
theorem settles_of_ends {action : Evaluation α} (ends : (action before).Ends) :
    Settles (fun _ => action) before :=
  ⟨action before, ends, 0, fun _ _ => rfl⟩

/-- What does not depend on the bound and comes to something, settles. -/
theorem settles_of_ok {action : Evaluation α} {comes : Except Interrupt α × Machine}
    (ended : action before = .ok comes) : Settles (fun _ => action) before :=
  settles_of_ends (ended ▸ Checked.ends_ok comes)

/-- Evaluation in sequence settles if its first part does, and its second part from there. -/
theorem Settles.bind (first : Settles work before)
    (second : ∀ value middle, Gives work before (.ok (.ok value, middle)) →
      Settles (fun bound => next bound value) middle) :
    Settles (fun bound => work bound >>= next bound) before := by
  obtain ⟨outcome, ends, enough, same⟩ := first
  match outcome, ends, same with
  | .error stop, ends, same =>
    exact ⟨.error stop, ends.of_error, enough, fun bound inside =>
      Work.failing_bind_of_stop (same bound inside)⟩
  | .ok (.error interrupt, middle), _, same =>
    exact ⟨.ok (.error interrupt, middle), Checked.ends_ok _, enough, fun bound inside =>
      Work.failing_bind_of_error (same bound inside)⟩
  | .ok (.ok value, middle), _, same =>
    have gives : Gives work before (.ok (.ok value, middle)) := ⟨enough, same⟩
    obtain ⟨outcome, ends, comes⟩ := second value middle gives
    exact ⟨outcome, ends, gives.bind comes⟩

/-- What comes after an attempt settles from where the attempted evaluation ended. -/
theorem Settles.attempt_bind {next : Nat → Except Interrupt α → Evaluation β}
    (first : Settles work before)
    (second : ∀ outcome middle, Gives work before (.ok (outcome, middle)) →
      Settles (fun bound => next bound outcome) middle) :
    Settles (fun bound => attempt (work bound) >>= next bound) before := by
  have attempted : Settles (fun bound => attempt (work bound)) before := by
    obtain ⟨outcome, ends, enough, same⟩ := first
    match outcome, ends, same with
    | .error stop, ends, same =>
      exact ⟨.error stop, ends.of_error, enough, fun bound inside =>
        attempt_of_stop (same bound inside)⟩
    | .ok (outcome, middle), _, same =>
      exact ⟨.ok (.ok outcome, middle), Checked.ends_ok _, enough, fun bound inside =>
        attempt_of_ok (same bound inside)⟩
  refine attempted.bind fun outcome middle gives => second outcome middle ?_
  obtain ⟨enough, same⟩ := gives
  refine ⟨enough, fun bound inside => ?_⟩
  obtain ⟨_, attempted, ⟨⟩⟩ := attempt_eq_ok.mp (same bound inside)
  exact attempted

/-- Evaluation in a scope of its own settles if it does so there. -/
theorem Settles.inScope (settles : Settles work before.enter) :
    Settles (fun bound => inScope (work bound)) before := by
  have entered : changeScopes Environment.push before = .ok (.ok (), before.enter) := rfl
  have left : Settles (fun bound => attempt (work bound) >>= fun result => do
      changeScopes Environment.pop
      resume result) before.enter :=
    settles.attempt_bind fun _ _ _ => settles_of_ok rfl
  obtain ⟨outcome, ends, enough, same⟩ := left
  exact ⟨outcome, ends, enough, fun bound inside =>
    (Work.failing_bind_of_ok entered).trans (same bound inside)⟩

end Bounds

section Lists

variable {work : Nat → NodeId → Evaluation Value} {before : Machine} {ids : List NodeId}

/-- The evaluation of several nodes settles if that of each does, after those before it. -/
theorem settles_mapM
    (each : ∀ earlier part later values middle, ids = earlier ++ part :: later →
      Gives (fun bound => earlier.mapM (work bound)) before (.ok (.ok values, middle)) →
      Settles (work · part) middle) :
    Settles (fun bound => ids.mapM (work bound)) before := by
  induction ids generalizing before with
  | nil => exact settles_of_ok rfl
  | cons id rest ih =>
    have first : Settles (work · id) before := each [] id rest [] before rfl ⟨0, fun _ _ => rfl⟩
    simp only [List.mapM_cons]
    refine first.bind fun value middle gives => Settles.bind (ih ?_) fun _ _ _ =>
      settles_of_ok rfl
    rintro earlier part later values inner rfl givesToo
    refine each (id :: earlier) part later (value :: values) inner rfl ?_
    simp only [List.mapM_cons]
    exact gives.bind (givesToo.bind ⟨0, fun _ _ => rfl⟩)

/-- Statements in order settle if each does, after those before it. -/
theorem settles_runAll {last : Value}
    (each : ∀ earlier part later value middle, ids = earlier ++ part :: later →
      Gives (fun bound => Program.runAll (work bound) last earlier) before
        (.ok (.ok value, middle)) →
      Settles (work · part) middle) :
    Settles (fun bound => Program.runAll (work bound) last ids) before := by
  induction ids generalizing before last with
  | nil => exact settles_of_ok rfl
  | cons id rest ih =>
    have first : Settles (work · id) before := each [] id rest last before rfl ⟨0, fun _ _ => rfl⟩
    refine first.bind fun value middle gives => ih ?_
    rintro earlier part later reached inner rfl givesToo
    exact each (id :: earlier) part later reached inner rfl (gives.bind givesToo)

end Lists

end Evaluation

namespace Work

variable {σ ε α β : Type} {before : σ}

/-- Work that may fail ends if its first part does, and its second part from there. -/
theorem failing_bind_ends {work : ExceptT ε (StateT σ Checked) α}
    {next : α → ExceptT ε (StateT σ Checked) β} (first : Checked.Ends (work before))
    (second : ∀ value middle, work before = .ok (.ok value, middle) →
      Checked.Ends (next value middle)) : Checked.Ends ((work >>= next) before) := by
  cases ended : work before with
  | error stop =>
    rw [Checked.Ends, ended] at first
    rw [failing_bind_of_stop ended]
    exact Checked.Ends.of_error first
  | ok outcome =>
    obtain ⟨outcome, middle⟩ := outcome
    cases outcome with
    | error error =>
      rw [failing_bind_of_error ended]
      exact Checked.ends_ok _
    | ok value =>
      rw [failing_bind_of_ok ended]
      exact second value middle ended

/-- A result that does not depend on the state ends as it is. -/
theorem failing_lift_ends {checked : Checked α} (ends : checked.Ends) :
    Checked.Ends ((liftM checked : ExceptT ε (StateT σ Checked) α) before) := by
  cases checked with
  | ok value => exact Checked.ends_ok _
  | error stop => exact ends.of_error

end Work

/-- A search along bases ends, or they are not all registered. -/
theorem Walk.search_ends {α : Type} (walk : Walk) (answer : TypeId → Option α) :
    (walk.search answer).Ends := by
  rw [search]
  split
  · exact Checked.ends_ok _
  · split
    · exact Checked.ends_ok _
    · exact Checked.ends_violation

namespace Registry

variable (registry : Registry)

/-- Whether a type is a contract is found or not. -/
theorem isInterface_ends (type : TypeId) : (registry.isInterface type).Ends :=
  (Checked.ends_ofOption _).bind fun _ _ => Checked.ends_ok _

/-- The bases of a type end, or they are not all registered. -/
theorem baseChain_ends (type : TypeId) : (registry.baseChain type).Ends := by
  rw [baseChain, Walk.toList]
  split
  · exact Checked.ends_ok _
  · exact Checked.ends_violation

/-- The contracts of a type are found or not. -/
theorem allInterfaces_ends (type : TypeId) : (registry.allInterfaces type).Ends := by
  refine Checked.Ends.bind ?_ fun _ _ => Checked.ends_ok _
  refine (registry.isInterface_ends type).bind fun isInterface _ => ?_
  cases isInterface with
  | true => exact Checked.ends_ok _
  | false => exact registry.baseChain_ends type

/-- The public member that passes a test is found or not. -/
theorem findPublic?_ends (type : TypeId) (test : MemberEntry → Bool) :
    (registry.findPublic? type test).Ends := by
  refine Checked.Ends.bind ?_ fun _ _ => Checked.ends_ok _
  refine (registry.isInterface_ends type).bind fun isInterface _ => ?_
  cases isInterface with
  | true => exact (registry.allInterfaces_ends type).bind fun _ _ => Checked.ends_ok _
  | false => exact registry.baseChain_ends type

/-- The member that runs is found or not. -/
theorem findImplementation?_ends (type : TypeId) (member : MemberId) :
    (registry.findImplementation? type member).Ends := by
  refine (Checked.ends_ofOption _).bind fun target _ => ?_
  refine (registry.isInterface_ends target.owner).bind fun isInterface _ => ?_
  have namesake : (registry.findNamesake? type target).Ends := by
    rw [findNamesake?]
    cases target.kind <;> exact registry.findPublic?_ends type _
  cases isInterface with
  | true =>
    refine (Walk.search_ends _ _).bind fun found _ => ?_
    cases found with
    | some member => exact Checked.ends_ok _
    | none => exact namesake
  | false => exact namesake

end Registry

namespace Program

variable {program : Program}

/-- The name of a member is found or not. -/
theorem memberName_ends (closed : program.registry.Closed) (member : MemberId) :
    (program.memberName member).Ends :=
  (program.registry.member_ends member).bind fun _ _ =>
    (closed.displayName_ends _).bind fun _ _ => Checked.ends_ok _

/-- What is wrong with a binding is found or not. -/
theorem bindingFailure_ends (program : Program) (binding : NodeId) (error : BindingError) :
    (program.bindingFailure binding error).Ends :=
  (program.arena.kind_ends binding).bind fun _ _ => Checked.ends_ok _

/-- The member that runs is found or not. -/
theorem dispatch_ends (program : Program) (heap : Heap) (receiver : Value) (member : MemberId) :
    (program.dispatch heap receiver member).Ends := by
  rw [dispatch]
  split
  · exact Checked.ends_ok _
  · exact (program.registry.findImplementation?_ends _ _).bind fun _ _ => Checked.ends_ok _

section Actions

variable {before : Machine}

/-- Reading a binding ends. -/
theorem read_ends (program : Program) (binding : NodeId) (before : Machine) :
    (program.read binding before).Ends := by
  refine Work.failing_bind_ends (Checked.ends_ok _) fun machine _ got => ?_
  cases got
  cases before.environment.lookup binding with
  | ok value => exact Checked.ends_ok _
  | error error =>
    exact Work.failing_bind_ends
      (Work.failing_lift_ends (program.bindingFailure_ends binding error))
      fun _ _ _ => Checked.ends_ok _

/-- Assigning to a binding ends. -/
theorem write_ends (program : Program) (binding : NodeId) (value : Value) (before : Machine) :
    (program.write binding value before).Ends := by
  refine Work.failing_bind_ends (Checked.ends_ok _) fun machine _ got => ?_
  cases got
  cases before.environment.assign binding value with
  | ok environment => exact Checked.ends_ok _
  | error error =>
    exact Work.failing_bind_ends
      (Work.failing_lift_ends (program.bindingFailure_ends binding error))
      fun _ _ _ => Checked.ends_ok _

/-- Taking a value as one of a kind ends. -/
theorem given_ends {α : Type} (given : Except EvaluationError α) (before : Machine) :
    (Evaluation.given given before).Ends := by
  cases given <;> exact Checked.ends_ok _

/-- Calling a member ends unless its native body does not. -/
theorem callMember_ends (closed : program.registry.Closed) {receiver : Value} {member : MemberId}
    {arguments : List Value}
    (bodies : ∀ target body, receiver.isNull = false →
      program.dispatch before.heap receiver member = .ok target →
      program.natives.body? target = some body →
      Checked.Ends (body receiver arguments before.heap)) :
    (program.callMember receiver member arguments before).Ends := by
  have noName (member : MemberId) (error : String → EvaluationError) :
      Checked.Ends ((liftM (program.memberName member) >>= fun name =>
        throw (.failure (error name)) : Evaluation Value) before) :=
    Work.failing_bind_ends (Work.failing_lift_ends (memberName_ends closed member))
      fun _ _ _ => Checked.ends_ok _
  rw [callMember]
  cases isNull : receiver.isNull with
  | true => exact noName member _
  | false =>
    refine Work.failing_bind_ends (Checked.ends_ok _) fun machine _ got => ?_
    cases got
    refine Work.failing_bind_ends (Work.failing_lift_ends
      (program.dispatch_ends before.heap receiver member)) fun target middle dispatched => ?_
    obtain ⟨_, found, ⟨⟩, rfl⟩ := Work.failing_lift_eq_ok.mp dispatched
    cases isBody : program.natives.body? target with
    | none => exact noName target _
    | some body =>
      exact (bodies target body isNull found isBody).bind fun _ _ => Checked.ends_ok _

end Actions

end Program

end Foreach
