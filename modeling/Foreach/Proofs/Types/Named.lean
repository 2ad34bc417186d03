import Foreach.Types.TypeName
import Foreach.Proofs.Types.Closed
import Foreach.Proofs.Work

/-!
# Registered types have names

The name of a type contains the names of other types. In a closed registry these were registered
before it, except that the name of a definition contains those of its parameters, which in turn
contain no names. So a name is nested no deeper than there are types, and every registered type has
one (`Closed.displayName_ok`).
-/
namespace Foreach.Registry

variable {registry : Registry}

/-- A registered type has a simple name. -/
theorem metadataName_ok {type : TypeId} (has : registry.Has type) :
    ∃ name, registry.metadataName type = .ok name := by
  obtain ⟨entry, known⟩ := has_iff.mp has
  exact ⟨arityName entry, Work.checked_bind_eq_ok.mpr
    ⟨entry, Checked.ofOption_eq_ok.mpr known, rfl⟩⟩

/-- A type that is no keyword has a name if the types have names that its name contains. -/
theorem displayNameWithin_ok {type : TypeId} {entry : TypeEntry} {depth : Nat}
    (known : registry.type? type = some entry)
    (outer : ∀ outer ∈ entry.outer, ∃ name, registry.displayNameWithin depth outer = .ok name)
    (inner : ∀ other ∈ (if entry.flags.genericDefinition then entry.parameters
      else entry.arguments), ∃ name, registry.displayNameWithin depth other = .ok name) :
    ∃ name, registry.displayNameWithin (depth + 1) type = .ok name := by
  unfold displayNameWithin
  cases keyword? type with
  | some word => exact ⟨word, rfl⟩
  | none =>
    have entered : registry.entry type = .ok entry := Checked.ofOption_eq_ok.mpr known
    have around : ∃ name, entry.outer.mapM (registry.displayNameWithin depth) = .ok name := by
      cases isOuter : entry.outer with
      | none => exact ⟨none, rfl⟩
      | some outer' =>
        obtain ⟨name, named⟩ := outer outer' isOuter
        refine ⟨some name, ?_⟩
        rw [Option.mapM_some, named]
        rfl
    obtain ⟨around, outerNamed⟩ := around
    obtain ⟨listed, innerNamed⟩ := Work.exists_mapM_eq_ok inner
    simp only [entered, outerNamed, innerNamed, bind, Except.bind]
    exact ⟨_, rfl⟩

/-- The parameter of a definition has a name at every depth. -/
theorem Closed.displayNameWithin_parameter (closed : registry.Closed) {type : TypeId}
    {entry : TypeEntry} (known : registry.type? type = some entry)
    (isParameter : entry.flags.genericParameter = true) (depth : Nat) :
    ∃ name, registry.displayNameWithin (depth + 1) type = .ok name := by
  obtain ⟨flags, -⟩ := closed.placeholders known isParameter
  obtain ⟨outside, bare⟩ := closed.leaves known isParameter
  apply displayNameWithin_ok known
  · intro outer isOuter
    rw [outside] at isOuter
    cases isOuter
  · intro other isInner
    rw [flags, bare] at isInner
    cases isInner

/-- A type has a name nested one deeper than the number of types before it. The induction is on that
number; the parameters of a definition come after it and are named apart. -/
theorem Closed.displayNameWithin_of_lt (closed : registry.Closed) {depth : Nat} {type : TypeId}
    (has : registry.Has type) (deep : type.index + 1 < depth) :
    ∃ name, registry.displayNameWithin depth type = .ok name := by
  induction depth generalizing type with
  | zero => omega
  | succ depth ih =>
    obtain ⟨entry, known⟩ := has_iff.mp has
    have earlier : ∀ other : TypeId, other.index < type.index →
        ∃ name, registry.displayNameWithin depth other = .ok name := by
      intro other before
      exact ih (Nat.lt_trans before has) (by omega)
    apply displayNameWithin_ok known
    · exact fun outer isOuter => earlier outer (closed.outers known isOuter)
    · intro other isInner
      split at isInner
      case isFalse => exact earlier other (closed.older known isInner)
      case isTrue =>
        obtain ⟨placed, placedKnown, isParameter⟩ := closed.parameters known isInner
        obtain ⟨less, rfl⟩ : ∃ less, depth = less + 1 := ⟨depth - 1, by omega⟩
        exact closed.displayNameWithin_parameter placedKnown isParameter.flags less

/-- Every registered type has a name in source text. -/
theorem Closed.displayName_ok (closed : registry.Closed) {type : TypeId}
    (has : registry.Has type) : ∃ name, registry.displayName type = .ok name :=
  closed.displayNameWithin_of_lt has (Nat.succ_lt_succ has)

end Foreach.Registry
