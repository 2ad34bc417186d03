import Mathlib.Data.List.Forall2
import Foreach.Checked

/-!
# Sequenced work

Registration and construction are work on a state that either stops or gives a value. Evaluation and
work on a heap may also fail with an error of the domain, and keep the state that they reached.
Whatever such work gives, it gives because each of its parts gave something: `bind_eq_ok` reads the
parts off the whole, and `forM_induct` does so for a list of parts.
-/
namespace Foreach.Work

/-- Results can be compared if values and errors can. -/
instance decidableEqExcept {ε α : Type} [DecidableEq ε] [DecidableEq α] :
    DecidableEq (Except ε α)
  | .ok value, .ok other => decidable_of_iff (value = other) (by simp)
  | .error error, .error other => decidable_of_iff (error = other) (by simp)
  | .ok _, .error _ => isFalse (by simp)
  | .error _, .ok _ => isFalse (by simp)

/-- Results in sequence are a result if each of them is. -/
theorem checked_bind_eq_ok {α β : Type} {checked : Checked α} {next : α → Checked β} {result : β} :
    checked >>= next = .ok result ↔ ∃ value, checked = .ok value ∧ next value = .ok result := by
  cases checked <;> simp [bind, Except.bind]

/-- What follows on a result is what comes next. -/
theorem checked_bind_of_ok {α β : Type} {checked : Checked α} {next : α → Checked β} {value : α}
    (given : checked = .ok value) : checked >>= next = next value := by
  rw [given]
  rfl

/-- Parts that each have a result have results together. -/
theorem exists_mapM_eq_ok {α β : Type} {parts : List α} {checked : α → Checked β}
    (each : ∀ part ∈ parts, ∃ result, checked part = .ok result) :
    ∃ results, parts.mapM checked = .ok results := by
  induction parts with
  | nil => exact ⟨[], rfl⟩
  | cons part rest ih =>
    obtain ⟨first, found⟩ := each part (List.mem_cons_self ..)
    obtain ⟨others, listed⟩ := ih fun other inRest => each other (List.mem_cons_of_mem _ inRest)
    refine ⟨first :: others, ?_⟩
    rw [List.mapM_cons, found, listed]
    rfl

/-- Parts have results together exactly if each of them has its result. -/
theorem mapM_eq_ok {α β : Type} {parts : List α} {checked : α → Checked β} {results : List β} :
    parts.mapM checked = .ok results ↔
      List.Forall₂ (fun part result => checked part = .ok result) parts results := by
  induction parts generalizing results with
  | nil =>
    rw [List.forall₂_nil_left_iff, List.mapM_nil]
    exact ⟨fun same => (Except.ok.inj same).symm, fun same => congrArg Except.ok same.symm⟩
  | cons part rest ih =>
    rw [List.mapM_cons, List.forall₂_cons_left_iff]
    constructor
    · intro listed
      obtain ⟨result, first, listed⟩ := checked_bind_eq_ok.mp listed
      obtain ⟨others, later, listed⟩ := checked_bind_eq_ok.mp listed
      exact ⟨result, others, first, ih.mp later, (Except.ok.inj listed).symm⟩
    · rintro ⟨result, others, first, later, rfl⟩
      exact checked_bind_eq_ok.mpr ⟨result, first,
        checked_bind_eq_ok.mpr ⟨others, ih.mpr later, rfl⟩⟩

/-- What is among the results of parts is the result of one of them. -/
theorem exists_of_mem_mapM {α β : Type} {parts : List α} {checked : α → Checked β}
    {results : List β} {result : β} (listed : parts.mapM checked = .ok results)
    (isListed : result ∈ results) : ∃ part ∈ parts, checked part = .ok result := by
  have each := mapM_eq_ok.mp listed
  clear listed
  induction each with
  | nil => cases isListed
  | cons first _ ih =>
    obtain rfl | inRest := List.mem_cons.mp isListed
    · exact ⟨_, List.mem_cons_self, first⟩
    · obtain ⟨part, isPart, comes⟩ := ih inRest
      exact ⟨part, List.mem_cons_of_mem _ isPart, comes⟩

section Errors

variable {ε φ α : Type} (change : ε → φ)

/-- A value has no error to change. -/
@[simp] theorem mapError_ok (value : α) : (Except.ok value).mapError change = .ok value := rfl

/-- An error is changed. -/
@[simp] theorem mapError_error (error : ε) :
    (Except.error error : Except ε α).mapError change = .error (change error) := rfl

end Errors

section State

variable {σ α β : Type}

/-- Work in sequence gives what its second part gives from where its first part ended. -/
theorem bind_eq_ok {work : StateT σ Checked α} {next : α → StateT σ Checked β} {before after : σ}
    {result : β} :
    (work >>= next) before = .ok (result, after) ↔
      ∃ value middle, work before = .ok (value, middle) ∧
        next value middle = .ok (result, after) := by
  simp only [bind, StateT.bind, Except.bind]
  cases work before with
  | error stop => simp
  | ok ended =>
    obtain ⟨value, middle⟩ := ended
    simp only [Except.ok.injEq, Prod.mk.injEq]
    constructor
    · exact fun same => ⟨value, middle, ⟨rfl, rfl⟩, same⟩
    · rintro ⟨_, _, ⟨rfl, rfl⟩, same⟩
      exact same

/-- Work with another answer ends where the work ends. -/
theorem map_eq_ok {work : StateT σ Checked α} {answer : α → β} {before after : σ} {result : β} :
    (answer <$> work) before = .ok (result, after) ↔
      ∃ value, work before = .ok (value, after) ∧ answer value = result := by
  rw [map_eq_pure_bind, bind_eq_ok]
  constructor
  · rintro ⟨value, middle, ended, same⟩
    obtain ⟨rfl, rfl⟩ := Prod.mk.inj (Except.ok.inj same)
    exact ⟨value, ended, rfl⟩
  · rintro ⟨value, ended, rfl⟩
    exact ⟨value, after, ended, rfl⟩

/-- A value alone leaves the state. -/
theorem pure_eq_ok {value result : α} {before after : σ} :
    (pure value : StateT σ Checked α) before = .ok (result, after) ↔
      value = result ∧ before = after := by
  have ended : (pure value : StateT σ Checked α) before = .ok (value, before) := rfl
  simp [ended]

/-- Reading the state gives it and leaves it. -/
theorem get_eq_ok {before after result : σ} :
    (get : StateT σ Checked σ) before = .ok (result, after) ↔ before = result ∧ before = after := by
  simp [get, getThe, MonadStateOf.get, StateT.get, pure, Except.pure]

/-- Changing the state gives the changed state. -/
theorem modify_eq_ok {change : σ → σ} {before after : σ} {result : PUnit} :
    (modify change : StateT σ Checked PUnit) before = .ok (result, after) ↔
      change before = after := by
  have ended : (modify change : StateT σ Checked PUnit) before = .ok ((), change before) := rfl
  simp [ended]

/-- Changing the state while reading it gives both. -/
theorem modifyGet_eq_ok {change : σ → α × σ} {before after : σ} {result : α} :
    (modifyGet change : StateT σ Checked α) before = .ok (result, after) ↔
      change before = (result, after) := by
  simp [modifyGet, MonadStateOf.modifyGet, StateT.modifyGet, pure, Except.pure]

/-- A result that does not depend on the state leaves it. -/
theorem lift_eq_ok {checked : Checked α} {before after : σ} {result : α} :
    (liftM checked : StateT σ Checked α) before = .ok (result, after) ↔
      checked = .ok result ∧ before = after := by
  cases checked with
  | error stop => simp [liftM, monadLift, MonadLift.monadLift, StateT.lift, bind, Except.bind]
  | ok value =>
    simp [liftM, monadLift, MonadLift.monadLift, StateT.lift, bind, Except.bind, pure, Except.pure]

/-- Work goes on from a result that does not depend on the state. -/
theorem lift_bind_of_ok {checked : Checked α} {next : α → StateT σ Checked β} {before : σ}
    {value : α} (given : checked = .ok value) :
    ((liftM checked : StateT σ Checked α) >>= next) before = next value before := by
  rw [given]
  rfl

/-- A question that the state answers leaves it. -/
theorem ask_eq_ok {question : σ → Checked α} {before after : σ} {result : α} :
    ((get : StateT σ Checked σ) >>= fun state => liftM (question state)) before =
        .ok (result, after) ↔
      question before = .ok result ∧ before = after := by
  simp only [bind_eq_ok, get_eq_ok]
  constructor
  · rintro ⟨_, _, ⟨rfl, rfl⟩, answered⟩
    exact lift_eq_ok.mp answered
  · exact fun answered => ⟨_, _, ⟨rfl, rfl⟩, lift_eq_ok.mpr answered⟩

/-- Work on each of several things is work on the first and then on the others. -/
theorem mapM_cons_eq_ok {action : α → StateT σ Checked β} {first : α} {rest : List α}
    {before after : σ} {results : List β} :
    (first :: rest).mapM action before = .ok (results, after) ↔
      ∃ result others middle, action first before = .ok (result, middle) ∧
        rest.mapM action middle = .ok (others, after) ∧ results = result :: others := by
  rw [List.mapM_cons]
  constructor
  · intro ran
    obtain ⟨result, middle, head, ran⟩ := bind_eq_ok.mp ran
    obtain ⟨others, _, tail, ended⟩ := bind_eq_ok.mp ran
    obtain ⟨rfl, rfl⟩ := pure_eq_ok.mp ended
    exact ⟨result, others, middle, head, tail, rfl⟩
  · rintro ⟨result, others, middle, head, tail, rfl⟩
    exact bind_eq_ok.mpr ⟨result, middle, head, bind_eq_ok.mpr ⟨others, after, tail, rfl⟩⟩

/-- What each part of a list of parts keeps, as the list gets shorter, holds at the end of all. -/
theorem forM_induct {action : α → StateT σ Checked PUnit} (holds : List α → σ → Prop)
    (step : ∀ next rest before after, holds (next :: rest) before →
      action next before = .ok ((), after) → holds rest after)
    {parts : List α} {before after : σ} (start : holds parts before)
    (ended : parts.forM action before = .ok ((), after)) : holds [] after := by
  induction parts generalizing before with
  | nil =>
    obtain ⟨-, rfl⟩ := pure_eq_ok.mp ended
    exact start
  | cons next rest ih =>
    obtain ⟨⟨⟩, middle, head, tail⟩ := bind_eq_ok.mp ended
    exact ih (step next rest before middle start head) tail

end State

section Failing

variable {σ ε α β : Type}

/-- Work in sequence ends as its second part ends from where its first part ended, or fails with its
first part. -/
theorem failing_bind_eq_ok {work : ExceptT ε (StateT σ Checked) α}
    {next : α → ExceptT ε (StateT σ Checked) β} {before after : σ} {result : Except ε β} :
    (work >>= next) before = .ok (result, after) ↔
      (∃ value middle, work before = .ok (.ok value, middle) ∧
        next value middle = .ok (result, after)) ∨
      ∃ error, work before = .ok (.error error, after) ∧ result = .error error := by
  simp only [bind, ExceptT.bind, ExceptT.mk, StateT.bind, ExceptT.bindCont, Except.bind]
  cases work before with
  | error stop => simp
  | ok ended =>
    obtain ⟨outcome, middle⟩ := ended
    cases outcome with
    | error error =>
      simp only [pure_eq_ok, Except.ok.injEq, Prod.mk.injEq, reduceCtorEq, false_and,
        exists_false, false_or, Except.error.injEq]
      constructor
      · rintro ⟨rfl, rfl⟩
        exact ⟨error, ⟨rfl, rfl⟩, rfl⟩
      · rintro ⟨_, ⟨rfl, rfl⟩, rfl⟩
        exact ⟨rfl, rfl⟩
    | ok value =>
      simp only [Except.ok.injEq, Prod.mk.injEq, reduceCtorEq, false_and, exists_false, or_false]
      constructor
      · exact fun same => ⟨value, middle, ⟨rfl, rfl⟩, same⟩
      · rintro ⟨_, _, ⟨rfl, rfl⟩, same⟩
        exact same

/-- Work in sequence fails with its second part, from where its first part ended, or with its
first part. -/
theorem failing_bind_eq_error {work : ExceptT ε (StateT σ Checked) α}
    {next : α → ExceptT ε (StateT σ Checked) β} {before after : σ} {error : ε} :
    (work >>= next) before = .ok (.error error, after) ↔
      (∃ value middle, work before = .ok (.ok value, middle) ∧
        next value middle = .ok (.error error, after)) ∨
      work before = .ok (.error error, after) := by
  rw [failing_bind_eq_ok]
  refine or_congr_right ⟨?_, fun failed => ⟨error, failed, rfl⟩⟩
  rintro ⟨_, failed, same⟩
  cases same
  exact failed

/-- Work whose first part gives a value goes on from there. -/
theorem failing_bind_of_ok {work : ExceptT ε (StateT σ Checked) α}
    {next : α → ExceptT ε (StateT σ Checked) β} {before middle : σ} {value : α}
    (first : work before = .ok (.ok value, middle)) :
    (work >>= next) before = next value middle := by
  simp only [bind, ExceptT.bind, ExceptT.mk, StateT.bind, ExceptT.bindCont, Except.bind, first]

/-- Work whose first part fails, fails with it. -/
theorem failing_bind_of_error {work : ExceptT ε (StateT σ Checked) α}
    {next : α → ExceptT ε (StateT σ Checked) β} {before middle : σ} {error : ε}
    (first : work before = .ok (.error error, middle)) :
    (work >>= next) before = .ok (.error error, middle) := by
  simp only [bind, ExceptT.bind, ExceptT.mk, StateT.bind, ExceptT.bindCont, Except.bind, first]
  rfl

/-- Work whose first part stops, stops with it. -/
theorem failing_bind_of_stop {work : ExceptT ε (StateT σ Checked) α}
    {next : α → ExceptT ε (StateT σ Checked) β} {before : σ} {stop : Stop}
    (first : work before = .error stop) : (work >>= next) before = .error stop := by
  simp only [bind, ExceptT.bind, ExceptT.mk, StateT.bind, Except.bind, first]

/-- What comes first only matters by how it ends. -/
theorem failing_bind_congr {work other : ExceptT ε (StateT σ Checked) α}
    {next : α → ExceptT ε (StateT σ Checked) β} {before otherBefore : σ}
    (same : work before = other otherBefore) :
    (work >>= next) before = (other >>= next) otherBefore := by
  simp only [bind, ExceptT.bind, ExceptT.mk, StateT.bind, ExceptT.bindCont, Except.bind, same]

/-- A result that does not depend on the state leaves it. -/
theorem failing_lift_eq_ok {checked : Checked α} {before after : σ} {result : Except ε α} :
    (liftM checked : ExceptT ε (StateT σ Checked) α) before = .ok (result, after) ↔
      ∃ value, checked = .ok value ∧ result = .ok value ∧ before = after := by
  cases checked with
  | error stop =>
    simp [liftM, monadLift, MonadLift.monadLift, ExceptT.lift, StateT.lift, ExceptT.mk, bind,
      Except.bind, Functor.map, StateT.map]
  | ok value =>
    simp [liftM, monadLift, MonadLift.monadLift, ExceptT.lift, StateT.lift, ExceptT.mk, bind,
      Except.bind, Functor.map, StateT.map, pure, Except.pure]
    grind

end Failing

end Foreach.Work
