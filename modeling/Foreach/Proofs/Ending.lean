import Foreach.Proofs.Types.Named
import Foreach.Tree.Arena

/-!
# Work that ends

Work with a bound ends if it does not exceed the bound: with a value, with an error of the domain,
or because its caller broke a precondition. Work in sequence ends if each of its parts does.

Names of types are looked up with such a bound, which suffices in a closed registry, also for a type
that is not registered there.
-/
namespace Foreach

/-- A result was obtained, or a broken precondition kept it from being obtained. -/
def Checked.Ends {α : Type} (checked : Checked α) : Prop := checked ≠ .error .exhausted

namespace Checked

variable {α β : Type}

/-- A value is an end. -/
theorem ends_ok (value : α) : Ends (.ok value) := nofun

/-- A broken precondition is an end. -/
theorem ends_violation : Ends (.error .violation : Checked α) := nofun

/-- What keeps one result from being obtained is an end of another as well. -/
theorem Ends.of_error {stop : Stop} (ends : Ends (.error stop : Checked α)) :
    Ends (.error stop : Checked β) :=
  fun exhausted => ends (congrArg Except.error (Except.error.inj exhausted))

/-- What may be absent ends. -/
theorem ends_ofOption (found : Option α) : Ends (ofOption found) := by
  cases found <;> exact nofun

/-- What is insisted on ends. -/
theorem ends_require (condition : Bool) : Ends (require condition) := by
  cases condition <;> exact nofun

/-- Results in sequence end if each does. -/
theorem Ends.bind {checked : Checked α} {next : α → Checked β} (first : checked.Ends)
    (second : ∀ value, checked = .ok value → (next value).Ends) : (checked >>= next).Ends := by
  cases checked with
  | ok value => exact second value rfl
  | error stop => exact first.of_error

/-- The results of some parts end if each does. -/
theorem ends_mapM {parts : List α} {checked : α → Checked β}
    (each : ∀ part ∈ parts, (checked part).Ends) : (parts.mapM checked).Ends := by
  induction parts with
  | nil => exact ends_ok []
  | cons part rest ih =>
    obtain ⟨first, others⟩ := List.forall_mem_cons.mp each
    rw [List.mapM_cons]
    exact first.bind fun _ _ => (ih others).bind fun _ _ => ends_ok _

/-- Results one from another end if each does. -/
theorem ends_foldlM {parts : List α} {step : β → α → Checked β} {start : β}
    (each : ∀ before part, (step before part).Ends) : (parts.foldlM step start).Ends := by
  induction parts generalizing start with
  | nil => exact ends_ok start
  | cons part rest ih =>
    rw [List.foldlM_cons]
    exact (each start part).bind fun _ _ => ih

end Checked

namespace Work

variable {σ α β : Type}

/-- Work on a state ends wherever it begins. -/
def Ends (work : StateT σ Checked α) : Prop := ∀ before, (work before).Ends

/-- A value alone ends. -/
theorem ends_pure (value : α) : Ends (pure value : StateT σ Checked α) := fun _ => nofun

/-- Reading the state ends. -/
theorem ends_get : Ends (get : StateT σ Checked σ) := fun _ => nofun

/-- Replacing the state ends. -/
theorem ends_set (state : σ) : Ends (set state : StateT σ Checked PUnit) := fun _ => nofun

/-- Changing the state ends. -/
theorem ends_modify (change : σ → σ) : Ends (modify change : StateT σ Checked PUnit) :=
  fun _ => nofun

/-- Work goes on from a result that does not depend on the state, if there is one. -/
theorem ends_lift_bind {checked : Checked α} {next : α → StateT σ Checked β}
    (ends : checked.Ends) (rest : ∀ value, checked = .ok value → Ends (next value)) :
    Ends (liftM checked >>= next) := by
  cases checked with
  | ok value => exact rest value rfl
  | error stop => exact fun _ => ends.of_error

/-- Work in sequence ends if each part does. -/
theorem Ends.bind {work : StateT σ Checked α} {next : α → StateT σ Checked β} (first : Ends work)
    (second : ∀ value, Ends (next value)) : Ends (work >>= next) := fun before =>
  Checked.Ends.bind (first before) fun ended _ => second ended.1 ended.2

/-- Work on some parts ends if the work on each does. -/
theorem ends_mapM {parts : List α} {work : α → StateT σ Checked β}
    (each : ∀ part ∈ parts, Ends (work part)) : Ends (parts.mapM work) := by
  induction parts with
  | nil => exact ends_pure []
  | cons part rest ih =>
    obtain ⟨first, others⟩ := List.forall_mem_cons.mp each
    rw [List.mapM_cons]
    exact first.bind fun _ => (ih others).bind fun _ => ends_pure _

/-- A search for a part that passes ends if the test of each does. -/
theorem ends_anyM {parts : List α} {test : α → StateT σ Checked Bool}
    (each : ∀ part ∈ parts, Ends (test part)) : Ends (parts.anyM test) := by
  induction parts with
  | nil => exact ends_pure false
  | cons part rest ih =>
    obtain ⟨first, others⟩ := List.forall_mem_cons.mp each
    rw [List.anyM_cons]
    refine first.bind fun passes => ?_
    cases passes with
    | true => exact ends_pure true
    | false => exact ih others

end Work

namespace Arena

variable (arena : Arena) (id : NodeId)

/-- What a node is, is found or not. -/
theorem node_ends : (arena.node id).Ends := Checked.ends_ofOption _

/-- The kind of a node is found or not. -/
theorem kind_ends : (arena.kind id).Ends := (arena.node_ends id).bind fun _ _ => Checked.ends_ok _

/-- The type of a node is found or not. -/
theorem typeOf_ends : (arena.typeOf id).Ends :=
  (arena.node_ends id).bind fun _ _ => Checked.ends_ok _

end Arena

/-- A member is found or not. -/
theorem Registry.member_ends (registry : Registry) (member : MemberId) :
    (registry.member member).Ends := Checked.ends_ofOption _

/-- The search for the name of a type ends. -/
theorem Registry.Closed.displayName_ends {registry : Registry} (closed : registry.Closed)
    (type : TypeId) : (registry.displayName type).Ends := by
  by_cases has : registry.Has type
  · obtain ⟨name, named⟩ := closed.displayName_ok has
    rw [named]
    exact Checked.ends_ok name
  · have unknown : registry.entry type = .error .violation := by
      rw [entry, Option.eq_none_iff_forall_ne_some.mpr fun entry known =>
        has (has_iff.mpr ⟨entry, known⟩)]
      rfl
    rw [displayName, displayNameWithin]
    cases keyword? type with
    | some word => exact Checked.ends_ok word
    | none =>
      rw [unknown]
      exact Checked.ends_violation

end Foreach
