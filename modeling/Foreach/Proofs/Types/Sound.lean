import Mathlib.Logic.Function.Basic
import Foreach.Proofs.Types.Mirror

/-!
# Sound registries

While a definition's content is being copied to its instances, some of them lag behind. What an
instance that lags has to mirror instead is owed to it; a registry is sound when it is well-formed
and each instance mirrors what is owed to it or, if nothing is, all that its definition has.
`Copying` is the state in the middle of copying to one instance: what was given so far is owed to
it.
-/
namespace Foreach.Registry

/-- What the instances that lag behind their definitions mirror for now. -/
abbrev Owed := TypeId → Option Content

/-- A registry in which each instance mirrors what is owed to it. -/
structure Sound (registry : Registry) (owed : Owed) : Prop where
  /-- The tables are well-formed. -/
  formed : registry.WellFormed
  /-- Only registered types are owed anything. -/
  pending : ∀ {type content}, owed type = some content → ∃ entry, registry.type? type = some entry
  /-- An instance mirrors what is owed to it, or what its definition has. -/
  mirrors : ∀ {type entry definition whole}, registry.type? type = some entry →
    entry.definition = some definition → registry.type? definition = some whole →
      registry.Mirrors (whole.parameters.zip entry.arguments) type
        ((owed type).getD whole.content) entry.content

/-- The definition of an instance stays in a registry that grows. -/
theorem WellFormed.definition_of_grows {later earlier : Registry} (formed : earlier.WellFormed)
    (grown : later.Grows earlier) {type definition : TypeId} {entry now : TypeEntry}
    (known : earlier.type? type = some entry) (isCopy : entry.definition = some definition)
    (reached : later.type? definition = some now) :
    ∃ whole, earlier.type? definition = some whole ∧ whole.definition = none ∧
      now.parameters = whole.parameters := by
  obtain ⟨-, whole, wholeKnown, uncopied, -⟩ := formed.copied known isCopy
  obtain ⟨now', reached', parameters, -⟩ := grown.types wholeKnown
  cases reached.symm.trans reached'
  exact ⟨whole, wholeKnown, uncopied, parameters⟩

/-- An instance that was there mirrors what it did when a registry is extended. -/
theorem Sound.mirrors_extend {later earlier : Registry} {owed : Owed}
    (sound : earlier.Sound owed) (extended : later.Extends earlier) {type definition : TypeId}
    {entry whole : TypeEntry} (known : earlier.type? type = some entry)
    (isCopy : entry.definition = some definition)
    (wholeKnown : later.type? definition = some whole) :
    later.Mirrors (whole.parameters.zip entry.arguments) type
      ((owed type).getD whole.content) entry.content := by
  obtain ⟨former, formerKnown, isWhole, -⟩ :=
    sound.formed.definition_of_grows extended.toGrows known isCopy wholeKnown
  cases wholeKnown.symm.trans (extended.definitions formerKnown isWhole)
  exact (sound.mirrors known isCopy formerKnown).grow extended.toGrows

/-- An instance that is owed all that its definition has is owed nothing. -/
theorem Sound.settle {registry : Registry} {owed : Owed} {type definition : TypeId}
    {entry whole : TypeEntry}
    (sound : registry.Sound (Function.update owed type (some whole.content)))
    (known : registry.type? type = some entry) (isCopy : entry.definition = some definition)
    (wholeKnown : registry.type? definition = some whole) :
    registry.Sound (Function.update owed type none) where
  formed := sound.formed
  pending {other content} isOwed := by
    by_cases same : other = type
    · exact ⟨entry, same ▸ known⟩
    · rw [Function.update_of_ne same] at isOwed
      exact sound.pending ((Function.update_of_ne same ..).trans isOwed)
  mirrors {other found origin source} reached isInstance sourceKnown := by
    have holds := sound.mirrors reached isInstance sourceKnown
    by_cases same : other = type
    · rw [same] at reached holds ⊢
      cases reached.symm.trans known
      cases isInstance.symm.trans isCopy
      cases sourceKnown.symm.trans wholeKnown
      rw [Function.update_self] at holds ⊢
      exact holds
    · rw [Function.update_of_ne same] at holds ⊢
      exact holds

/-- Something is replaced in each instance, since not all parameters are equal to the arguments. -/
theorem WellFormed.zip_ne_nil {registry : Registry} (formed : registry.WellFormed)
    {type definition : TypeId} {entry whole : TypeEntry} (known : registry.type? type = some entry)
    (isCopy : entry.definition = some definition)
    (wholeKnown : registry.type? definition = some whole) :
    whole.parameters.zip entry.arguments ≠ [] := by
  obtain ⟨-, whole', wholeKnown', -, arity, different, -⟩ := formed.copied known isCopy
  cases wholeKnown.symm.trans wholeKnown'
  intro isEmpty
  cases List.zip_eq_nil_iff.mp isEmpty with
  | inl noParameters =>
    rw [noParameters] at arity different
    exact different (List.length_eq_zero_iff.mp arity.symm).symm
  | inr noArguments =>
    rw [noArguments] at arity different
    exact different (List.length_eq_zero_iff.mp arity)

/-- A registry in the middle of copying what a definition has to an instance. -/
structure Copying (registry : Registry) (owed : Owed) (type definition : TypeId)
    (whole : TypeEntry) (substitution : Substitution) (given : Content) : Prop where
  /-- The registry is sound, with what was given so far owed to the instance. -/
  sound : registry.Sound (Function.update owed type (some given))
  /-- The definition is registered. -/
  source : registry.type? definition = some whole
  /-- The instance is registered, with arguments that the substitution is made from. -/
  target : ∃ entry, registry.type? type = some entry ∧ entry.definition = some definition ∧
    whole.parameters.zip entry.arguments = substitution

namespace Copying

variable {registry later : Registry} {owed : Owed} {type definition : TypeId} {whole : TypeEntry}
  {substitution : Substitution} {given : Content}

/-- A definition is no instance. -/
theorem uncopied (copying : registry.Copying owed type definition whole substitution given) :
    whole.definition = none := by
  obtain ⟨entry, known, isCopy, -⟩ := copying.target
  obtain ⟨-, whole', wholeKnown, uncopied, -⟩ := copying.sound.formed.copied known isCopy
  cases copying.source.symm.trans wholeKnown
  exact uncopied

/-- The instance mirrors what was given to it. -/
theorem mirrors {entry : TypeEntry}
    (copying : registry.Copying owed type definition whole substitution given)
    (known : registry.type? type = some entry) :
    registry.Mirrors substitution type given entry.content := by
  obtain ⟨entry', known', isCopy, rfl⟩ := copying.target
  cases known.symm.trans known'
  have holds := copying.sound.mirrors known isCopy copying.source
  rw [Function.update_self] at holds
  exact holds

/-- Something is replaced in each instance. -/
theorem proper (copying : registry.Copying owed type definition whole substitution given) :
    substitution ≠ [] := by
  obtain ⟨entry, known, isCopy, rfl⟩ := copying.target
  exact copying.sound.formed.zip_ne_nil known isCopy copying.source

/-- Sound additions leave a registry in the middle of copying. -/
theorem extend (copying : registry.Copying owed type definition whole substitution given)
    (sound : later.Sound (Function.update owed type (some given)))
    (extended : later.Extends registry) :
    later.Copying owed type definition whole substitution given where
  sound := sound
  source := extended.definitions copying.source copying.uncopied
  target := by
    obtain ⟨entry, known, isCopy, same⟩ := copying.target
    obtain ⟨changed, reached, -, definitionSame, argumentsSame, -⟩ := extended.types known
    exact ⟨changed, reached, definitionSame.trans isCopy, argumentsSame ▸ same⟩

/-- The instance is given more when its entry is amended so that it mirrors more. -/
theorem amend {entry changed : TypeEntry} {added : Option MemberEntry} (more : Content)
    (copying : registry.Copying owed type definition whole substitution given)
    (amends : later.Amends registry type entry changed added)
    (holds : later.Mirrors substitution type more changed.content) :
    later.Copying owed type definition whole substitution more ∧ later.Extends registry := by
  obtain ⟨entry', known, isCopy, isSubstitution⟩ := copying.target
  cases known.symm.trans amends.before
  have isInstance : changed.definition = some definition := amends.definition.trans isCopy
  have extended : later.Extends registry := by
    refine ⟨amends.grows, fun {other former} reached isWhole => ?_⟩
    by_cases same : other = type
    · rw [same, amends.before] at reached
      cases reached
      cases isCopy.symm.trans isWhole
    · rw [amends.others same]
      exact reached
  have sourceKnown := extended.definitions copying.source copying.uncopied
  refine ⟨⟨⟨amends.wellFormed copying.sound.formed, ?_, ?_⟩, sourceKnown, changed, amends.after,
    isInstance, amends.arguments ▸ isSubstitution⟩, extended⟩
  · intro other content isOwed
    by_cases same : other = type
    · exact ⟨changed, same ▸ amends.after⟩
    · rw [Function.update_of_ne same] at isOwed
      rw [amends.others same]
      exact copying.sound.pending ((Function.update_of_ne same ..).trans isOwed)
  · intro other found origin source reached isCopied originKnown
    by_cases same : other = type
    · rw [same, amends.after] at reached
      cases reached
      cases isCopied.symm.trans isInstance
      cases originKnown.symm.trans sourceKnown
      rw [same, Function.update_self, amends.arguments, isSubstitution]
      exact holds
    · rw [amends.others same] at reached
      have mirrored := copying.sound.mirrors_extend extended reached isCopied originKnown
      rw [Function.update_of_ne same] at mirrored ⊢
      exact mirrored

end Copying

end Foreach.Registry
