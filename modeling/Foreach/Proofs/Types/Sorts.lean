import Foreach.Proofs.Types.Ancestry
import Foreach.Proofs.Types.Handles

/-!
# What kind a type is and how it is flagged

The kind and the flags of a type are set once: by its declaration, or for an instance by its
definition, whose flags it has but for those that tell definitions and instances apart. So what
holds of every declaration, and of an instance if of its definition, holds of every type of a
registry that is built (`Registry.Built.sorted_induct`). Contracts are flagged as such, and values
that live on the stack alone are values of structs (`Registry.Built.sorted`).
-/
namespace Foreach

namespace Registry

/-- Something holds of the kind and the flags of every type. -/
def AllSorted (registry : Registry) (holds : TypeKind → TypeFlags → Prop) : Prop :=
  ∀ type entry, registry.type? type = some entry → holds entry.kind entry.flags

variable {holds : TypeKind → TypeFlags → Prop} {scope : EditScope} {before after : Registry}

/-- A change keeps what instances have from their definitions. -/
theorem Change.allSorted (change : Change scope before after)
    (copies : ∀ kind flags, holds kind flags → holds kind flags.forInstance)
    (all : before.AllSorted holds) : after.AllSorted holds := by
  intro type entry known
  cases change with
  | @instantiate definition arguments whole wholeKnown =>
    rcases type?_withInstance_cases _ _ _ _ known with ⟨-, rfl⟩ | former
    · exact copies _ _ (all _ _ wholeKnown)
    · exact all _ _ former
  | @grant owner former grant formerKnown belongs reason =>
    rcases Grant.type?_enter_cases known with ⟨-, entry', known', rfl⟩ | ⟨-, known'⟩
    · have continued := grant.extend_continues ⟨before.members.size⟩ entry'
      rw [continued.kind, continued.flags]
      exact all _ _ known'
    · exact all _ _ known'

/-- Changes keep what instances have from their definitions. -/
theorem Changes.allSorted (changes : Changes scope before after)
    (copies : ∀ kind flags, holds kind flags → holds kind flags.forInstance)
    (all : before.AllSorted holds) : after.AllSorted holds := by
  induction changes with
  | refl => exact all
  | tail _ change ih => exact change.allSorted copies ih

variable {mayEdit : TypeEntry → Prop} {registry : Registry}

/-- What holds of the well-known types, of every declaration and of every generic parameter, and of
an instance if of its definition, holds of every type of a registry that is built. -/
theorem Built.sorted_induct (built : Built mayEdit registry)
    (start : Registry.initial.AllSorted holds)
    (declared : ∀ declaration : TypeDeclaration, holds declaration.sort.kind declaration.flags)
    (parameters : ∀ owner position,
      holds (.parameter owner position) { genericParameter := true })
    (copies : ∀ kind flags, holds kind flags → holds kind flags.forInstance) :
    registry.AllSorted holds := by
  induction built with
  | initial => exact start
  | @edit before after earlier edit ih =>
    have formed := earlier.complete.toWellFormed
    cases edit with
    | declare outers ran =>
      intro type entry known
      obtain ⟨-, -, entries⟩ := Registration.declare_entries ran
      rcases entries known with former | ⟨-, listed, rfl⟩ | ⟨-, position, name, rfl⟩
      · exact ih _ _ former
      · exact declared _
      · exact parameters _ _
    | setBase _ _ _ ran => exact (Registration.setBase_changes formed ran).allSorted copies ih
    | addInterface _ _ ran =>
      exact (Registration.addInterface_changes formed ran).allSorted copies ih
    | addMember _ _ _ _ ran =>
      exact (Registration.addDeclaredMember_changes formed ran).allSorted copies ih
    | instantiate _ ran => exact (Registration.instantiate_changes ran).allSorted copies ih

end Registry

/-- The flags of a type fit its kind. -/
structure TypeKind.Fits (kind : TypeKind) (flags : TypeFlags) : Prop where
  /-- Exactly the contracts are flagged as such. -/
  contract : flags.isInterface = true ↔ kind = .interfaceType
  /-- Values that live on the stack alone are those of structs. -/
  stackOnly : flags.byRefLike = true → kind = .structType
  /-- The values of structs are copied. -/
  copied : kind = .structType → flags.valueType = true

/-- The flags of a declaration fit its kind. -/
theorem TypeDeclaration.fits (declaration : TypeDeclaration) :
    declaration.sort.kind.Fits declaration.flags := by
  cases sort : declaration.sort <;>
    constructor <;> simp [TypeDeclaration.flags, TypeSort.flags, TypeSort.kind, sort]

namespace Registry

/-- In every registry that is built, whatever may be edited, the flags of types fit their kinds. -/
theorem Built.sorted {mayEdit : TypeEntry → Prop} {registry : Registry}
    (built : Built mayEdit registry) : registry.AllSorted TypeKind.Fits := by
  refine built.sorted_induct ?_ TypeDeclaration.fits ?_ ?_
  · intro type entry known
    constructor
    case contract =>
      exact initial_type?
        (fun _ entry => entry.flags.isInterface = true ↔ entry.kind = .interfaceType)
        (by decide) known
    case stackOnly =>
      exact initial_type?
        (fun _ entry => entry.flags.byRefLike = true → entry.kind = .structType) (by decide) known
    case copied =>
      exact initial_type?
        (fun _ entry => entry.kind = .structType → entry.flags.valueType = true) (by decide) known
  · intro owner position
    exact ⟨by simp, by simp, by simp⟩
  · intro kind flags fits
    exact ⟨fits.contract, fits.stackOnly, fits.copied⟩

/-- No contract has values that live on the stack alone. -/
theorem Built.isInterface_of_byRefLike {mayEdit : TypeEntry → Prop} {registry : Registry}
    (built : Built mayEdit registry) {type : TypeId} (has : registry.Has type)
    (stackOnly : (registry.flagsOf type).byRefLike = true) :
    (registry.flagsOf type).isInterface = false ∧ (registry.flagsOf type).valueType = true := by
  obtain ⟨entry, -, known, flags⟩ := exists_entry has
  have fits := built.sorted _ _ known
  rw [← flags] at stackOnly ⊢
  have isStruct := fits.stackOnly stackOnly
  refine ⟨Bool.eq_false_iff.mpr fun flagged => ?_, fits.copied isStruct⟩
  cases isStruct.symm.trans (fits.contract.mp flagged)

end Registry

end Foreach
