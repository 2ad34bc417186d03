import Foreach.Proofs.Types.Substitution

/-!
# Replacing finds what a type becomes

What a type becomes is read off a registry without making anything. Replacing parameters gives the
same type, at every depth from some depth on, and leaves the registry: everything that it needs is
recorded already. So the two say the same of a registry in which a type becomes something.
-/
namespace Foreach.Registration

open Registry

variable {registry : Registry} {substitution : Substitution}

/-- What holds of each element from some depth on holds of all of them from some depth on. -/
theorem exists_depth_forall {α : Type} {holds : α → Nat → Prop} {elements : List α}
    (each : ∀ element ∈ elements, ∃ least, ∀ depth, least ≤ depth → holds element depth) :
    ∃ least, ∀ depth, least ≤ depth → ∀ element ∈ elements, holds element depth := by
  induction elements with
  | nil => exact ⟨0, fun _ _ _ isElement => nomatch isElement⟩
  | cons first rest ih =>
    obtain ⟨firstLeast, firstHolds⟩ := each first (List.mem_cons_self ..)
    obtain ⟨restLeast, restHolds⟩ :=
      ih fun element isElement => each element (List.mem_cons_of_mem _ isElement)
    refine ⟨max firstLeast restLeast, fun depth enough element isElement => ?_⟩
    cases List.mem_cons.mp isElement with
    | inl isFirst =>
      rw [isFirst]
      exact firstHolds depth (Nat.le_trans (Nat.le_max_left ..) enough)
    | inr inRest => exact restHolds depth (Nat.le_trans (Nat.le_max_right ..) enough) element inRest

/-- Types that are replaced one by one without a change are replaced in sequence. -/
theorem mapM_of_zip {replace : TypeId → Registration TypeId} {types results : List TypeId}
    (sameLength : types.length = results.length)
    (each : ∀ pair ∈ types.zip results, replace pair.1 registry = .ok (pair.2, registry)) :
    types.mapM replace registry = .ok (results, registry) := by
  induction types generalizing results with
  | nil =>
    rw [List.eq_nil_of_length_eq_zero sameLength.symm]
    rfl
  | cons type rest ih =>
    cases results with
    | nil => cases sameLength
    | cons result others =>
      have head := each (type, result) (List.mem_cons_self ..)
      have tail := ih (Nat.succ.inj sameLength)
        fun pair isPair => each pair (List.mem_cons_of_mem _ isPair)
      rw [List.mapM_cons]
      refine Work.bind_eq_ok.mpr ⟨result, registry, head, ?_⟩
      exact Work.bind_eq_ok.mpr ⟨others, registry, tail, rfl⟩

/-- The instance at arguments is there already, so it is given without a change. -/
theorem instantiateWith_of_instanceAt? {replace : Substitution → TypeId → Registration TypeId}
    {definition result : TypeId} {whole : TypeEntry} {arguments : List TypeId}
    (known : registry.type? definition = some whole)
    (generic : whole.flags.genericDefinition = true)
    (arity : whole.parameters.length = arguments.length)
    (found : registry.instanceAt? definition arguments = some result) :
    instantiateWith replace definition arguments registry = .ok (result, registry) := by
  rw [Registry.instanceAt?, known, Option.bind_some] at found
  refine Work.bind_eq_ok.mpr ⟨whole, registry, ask_entry_eq_ok.mpr ⟨known, rfl⟩, ?_⟩
  refine Work.bind_eq_ok.mpr ⟨⟨⟩, registry,
    Work.lift_eq_ok.mpr ⟨Checked.require_eq_ok.mpr generic, rfl⟩, ?_⟩
  refine Work.bind_eq_ok.mpr ⟨⟨⟩, registry,
    Work.lift_eq_ok.mpr ⟨Checked.require_eq_ok.mpr (decide_eq_true arity), rfl⟩, ?_⟩
  by_cases own : whole.parameters = arguments
  · rw [if_pos own] at found ⊢
    exact Work.pure_eq_ok.mpr ⟨Option.some.inj found, rfl⟩
  · rw [if_neg own] at found ⊢
    refine Work.bind_eq_ok.mpr ⟨registry, registry, rfl, ?_⟩
    rw [found]
    rfl

/-- Replacing gives what a type becomes and leaves the registry, at every depth from some depth on,
by induction on how the type becomes it. -/
theorem substitute_of_becomes (formed : registry.WellFormed) {type result : TypeId}
    (becomes : registry.Becomes substitution type result) :
    ∃ least, ∀ depth, least ≤ depth →
      substitute depth substitution type registry = .ok (result, registry) := by
  induction becomes with
  | argument replaced =>
    refine ⟨1, fun depth enough => ?_⟩
    obtain ⟨less, rfl⟩ := Nat.exists_eq_add_of_le' enough
    have notEmpty : ¬ substitution.isEmpty = true := by
      intro isEmpty
      rw [List.isEmpty_iff.mp isEmpty] at replaced
      cases replaced
    rw [substitute, if_neg notEmpty, replaced]
    rfl
  | whole kept known uncopied =>
    refine ⟨1, fun depth enough => ?_⟩
    obtain ⟨less, rfl⟩ := Nat.exists_eq_add_of_le' enough
    rw [substitute]
    by_cases isEmpty : substitution.isEmpty = true
    · rw [if_pos isEmpty]
      rfl
    · rw [if_neg isEmpty, kept]
      refine Work.bind_eq_ok.mpr ⟨_, registry, ask_entry_eq_ok.mpr ⟨known, rfl⟩, ?_⟩
      rw [uncopied]
      rfl
  | @made type definition result entry arguments kept known isCopy sameLength each found ih =>
    obtain ⟨least, replaced⟩ := exists_depth_forall ih
    refine ⟨least + 1, fun depth enough => ?_⟩
    obtain ⟨less, rfl⟩ := Nat.exists_eq_add_of_le' enough
    have isEnough : least ≤ less + least := Nat.le_add_left ..
    rw [← Nat.add_assoc, substitute]
    by_cases isEmpty : substitution.isEmpty = true
    · -- Nothing is replaced, so the arguments are what they become.
      have unchanged : List.Forall₂ Eq entry.arguments arguments := by
        refine List.forall₂_iff_zip.mpr ⟨sameLength, fun {first second} isPair => ?_⟩
        have stays := replaced (less + least + 1) (Nat.le_succ_of_le isEnough) _ isPair
        rw [substitute, if_pos isEmpty] at stays
        exact (Work.pure_eq_ok.mp stays).1
      rw [List.forall₂_eq_eq_eq] at unchanged
      rw [← unchanged] at found
      cases (instanceAt?_of_instance formed known isCopy).symm.trans found
      rw [if_pos isEmpty]
      rfl
    · rw [if_neg isEmpty, kept]
      refine Work.bind_eq_ok.mpr ⟨entry, registry, ask_entry_eq_ok.mpr ⟨known, rfl⟩, ?_⟩
      rw [isCopy]
      have listed := mapM_of_zip sameLength (replaced (less + least) isEnough)
      refine Work.bind_eq_ok.mpr ⟨arguments, registry, listed, ?_⟩
      by_cases unchanged : arguments = entry.arguments
      · rw [unchanged] at found
        cases (instanceAt?_of_instance formed known isCopy).symm.trans found
        rw [if_pos unchanged]
        rfl
      · obtain ⟨-, whole, wholeKnown, -, arity, -, generic⟩ := formed.copied known isCopy
        rw [if_neg unchanged]
        exact instantiateWith_of_instanceAt? wholeKnown generic (arity.trans sameLength) found

/-- A type becomes what replacing gives without a change, at some depth. -/
theorem becomes_iff_substitute {owed : Owed} (sound : registry.Sound owed)
    (proper : substitution ≠ []) {type result : TypeId} :
    registry.Becomes substitution type result ↔
      ∃ depth, substitute depth substitution type registry = .ok (result, registry) := by
  constructor
  · intro becomes
    obtain ⟨least, replaced⟩ := substitute_of_becomes sound.formed becomes
    exact ⟨least, replaced least (Nat.le_refl _)⟩
  · rintro ⟨depth, replaced⟩
    exact (substitute_replaces depth proper sound replaced).2.2

end Foreach.Registration
