import Foreach.Proofs.Types.Replacement

/-!
# Registration that returns

Registration is given a bound on its depth. It returns if it ends in the same way at every bound
from some bound on, and not by running out of it (`Registration.Returns`). Registration in sequence
returns if each part does, from where the part before ended.
-/
namespace Foreach.Registration

variable {α β : Type} {before : Registry}

/-- From some depth on, work ends with the same result in the same registry. -/
def Returns (work : Nat → Registration α) (before : Registry) : Prop :=
  ∃ least outcome, ∀ depth, least ≤ depth → work depth before = .ok outcome

/-- Work returns if other work does that ends in the same way at one level less. -/
theorem Returns.of_succ {work other : Nat → Registration α} {start : Registry}
    (same : ∀ depth, work (depth + 1) before = other depth start) (returns : Returns other start) :
    Returns work before := by
  obtain ⟨least, outcome, ended⟩ := returns
  refine ⟨least + 1, outcome, fun depth enough => ?_⟩
  obtain ⟨less, rfl⟩ := Nat.exists_eq_add_of_le' enough
  exact (same (less + least)).trans (ended _ (Nat.le_add_left ..))

/-- Work that needs no depth and ends, returns. -/
theorem returns_of_eq_ok {work : Registration α} {outcome : α × Registry}
    (ended : work before = .ok outcome) : Returns (fun _ => work) before :=
  ⟨0, outcome, fun _ _ => ended⟩

/-- A value alone returns. -/
theorem returns_pure (value : α) : Returns (fun _ => pure value) before := by
  have ended : (pure value : Registration α) before = .ok (value, before) := rfl
  exact returns_of_eq_ok ended

/-- Work that returns ends at some depth. -/
theorem Returns.exists_ok {work : Nat → Registration α} (returns : Returns work before) :
    ∃ depth result after, work depth before = .ok (result, after) := by
  obtain ⟨least, ⟨result, after⟩, ended⟩ := returns
  exact ⟨least, result, after, ended least (Nat.le_refl _)⟩

/-- Work in sequence returns if its parts do, the second from wherever the first ends. -/
theorem Returns.bind {work : Nat → Registration α} {next : Nat → α → Registration β}
    (first : Returns work before)
    (second : ∀ {depth value middle}, work depth before = .ok (value, middle) →
      Returns (fun depth => next depth value) middle) :
    Returns (fun depth => work depth >>= next depth) before := by
  obtain ⟨least, ⟨value, middle⟩, ended⟩ := first
  obtain ⟨least', ⟨result, after⟩, ended'⟩ := second (ended least (Nat.le_refl _))
  refine ⟨max least least', (result, after), fun depth enough => ?_⟩
  have enoughFirst := Nat.le_trans (Nat.le_max_left ..) enough
  have enoughSecond := Nat.le_trans (Nat.le_max_right ..) enough
  exact Work.bind_eq_ok.mpr ⟨value, middle, ended depth enoughFirst, ended' depth enoughSecond⟩

/-- Work whose answer is put differently returns if the work does. -/
theorem Returns.map {work : Nat → Registration α} (answer : α → β) (returns : Returns work before) :
    Returns (fun depth => answer <$> work depth) before := by
  obtain ⟨least, ⟨result, after⟩, ended⟩ := returns
  exact ⟨least, (answer result, after), fun depth enough =>
    Work.map_eq_ok.mpr ⟨result, ended depth enough, rfl⟩⟩

/-- A question that has an answer returns. -/
theorem returns_ask {question : Registry → Checked α} {answer : α}
    (answered : question before = .ok answer) : Returns (fun _ => ask question) before :=
  returns_of_eq_ok (ask_eq_ok.mpr ⟨answered, rfl⟩)

/-- Reading the registry returns. -/
theorem returns_get : Returns (fun _ => get) before := by
  have ended : (get : Registration Registry) before = .ok (before, before) := rfl
  exact returns_of_eq_ok ended

/-- The change of a registered type returns. -/
theorem returns_changeType {type : TypeId} {change : TypeEntry → TypeEntry} {entry : TypeEntry}
    (known : before.type? type = some entry) :
    Returns (fun _ => changeType type change) before :=
  returns_of_eq_ok (changeType_eq_ok.mpr ⟨entry, known, rfl⟩)

section Parts

variable {parts : List α} (holds : Registry → Prop)

/-- Work on part after part returns if work on each part does, wherever something holds that each
part keeps, by induction on the parts. -/
theorem returns_mapM {action : Nat → α → Registration β}
    (returns : ∀ part ∈ parts, ∀ between, holds between →
      Returns (fun depth => action depth part) between)
    (keeps : ∀ {part}, part ∈ parts → ∀ {depth between value after}, holds between →
      action depth part between = .ok (value, after) → holds after)
    (start : holds before) : Returns (fun depth => parts.mapM (action depth)) before := by
  induction parts generalizing before with
  | nil => exact returns_pure []
  | cons part rest ih =>
    simp only [List.mapM_cons]
    refine (returns part (List.mem_cons_self ..) before start).bind fun ended => ?_
    have stillHolds := keeps (List.mem_cons_self ..) start ended
    have others := ih (fun other inRest => returns other (List.mem_cons_of_mem _ inRest))
      (fun inRest => keeps (List.mem_cons_of_mem _ inRest)) stillHolds
    exact others.bind fun _ => returns_pure _

/-- Work on part after part returns if work on each part does, wherever something holds that each
part keeps, by induction on the parts. -/
theorem returns_forM {action : Nat → α → Registration Unit}
    (returns : ∀ part ∈ parts, ∀ between, holds between →
      Returns (fun depth => action depth part) between)
    (keeps : ∀ {part}, part ∈ parts → ∀ {depth between after}, holds between →
      action depth part between = .ok ((), after) → holds after)
    (start : holds before) : Returns (fun depth => parts.forM (action depth)) before := by
  induction parts generalizing before with
  | nil => exact returns_pure ()
  | cons part rest ih =>
    show Returns (fun depth => action depth part >>= fun _ => rest.forM (action depth)) before
    refine (returns part (List.mem_cons_self ..) before start).bind fun ended => ?_
    have stillHolds := keeps (List.mem_cons_self ..) start ended
    exact ih (fun other inRest => returns other (List.mem_cons_of_mem _ inRest))
      (fun inRest => keeps (List.mem_cons_of_mem _ inRest)) stillHolds

end Parts

end Foreach.Registration
