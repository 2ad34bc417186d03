import Foreach.Proofs.Lowering.Refusal

/-!
# How lowering ends

For every registry that is built, every tree and every binding of a registered type: what a loop
over the binding and a use of the binding end with, exactly. An error is told by what a search finds
of the binding's type and by how values of a type are disposed of; it leaves the tree as it was, and
no body was built for it. Without an error there is a loop, or a use.

A disposal of the enumerator is asked for twice: when its type is classified, before the first node
is added, and when the loop is closed, after its body was built. A refusal at the second place would
leave nodes behind and come after the body. It never comes, because a strategy that was found for a
type always has a statement (`Construction.dispose_eq_none`, `Construction.closeLoop_ne_error`).
-/
namespace Foreach

open Construction

/-- How a loop over a binding ends, given what was found of the binding's type. -/
structure LoopOutcome (registry : Registry) (policy : Policy) (enumerable : NodeId) (type : TypeId)
    (arena : Arena) (shape : EnumerableShape) : Prop where
  /-- It is no enumerable exactly if nothing gives an enumerator. -/
  notEnumerable : ∀ plan body,
    (∃ name, registry.displayName type = .ok name ∧
      foreachLoop registry policy enumerable plan body arena =
        .ok (.error (.notEnumerable name), arena)) ↔
      shape.getEnumerator = none
  /-- Its enumerator is invalid exactly if something gives one that lacks a member, and the member
  that is told is the one that it lacks. -/
  invalidEnumerator : ∀ plan body missing,
    (∃ enumerator typeName enumeratorName, shape.enumerator.type = some enumerator ∧
      registry.displayName type = .ok typeName ∧
      registry.displayName enumerator = .ok enumeratorName ∧
      foreachLoop registry policy enumerable plan body arena =
        .ok (.error (.invalidEnumerator typeName enumeratorName missing), arena)) ↔
      shape.getEnumerator ≠ none ∧ shape.enumerator.Lacks missing
  /-- Its enumerator is not disposable exactly if it is complete and of a type that has no
  disposal. -/
  notDisposable : ∀ plan body,
    (∃ enumerator name, shape.enumerator.type = some enumerator ∧
      registry.metadataName enumerator = .ok name ∧
      foreachLoop registry policy enumerable plan body arena =
        .ok (.error (.notDisposable name), arena)) ↔
      shape.isComplete = true ∧ ∃ enumerator, shape.enumerator.type = some enumerator ∧
        registry.classifyDisposal enumerator = .ok none
  /-- Otherwise, and only then, it is lowered: if plan and body are as they should be. -/
  lowered : ∀ plan body, plan.Fits arena → BuildsBody registry policy enumerable arena body →
    ((∃ block after,
      foreachLoop registry policy enumerable plan body arena = .ok (.ok block, after)) ↔
      shape.isComplete = true ∧ ∀ enumerator, shape.enumerator.type = some enumerator →
        registry.classifyDisposal enumerator ≠ .ok none)
  /-- Once it is opened it is not refused any more, whatever its body has added. -/
  closes : ∀ opened started, openLoop registry policy enumerable arena = .ok (.ok opened, started) →
    ∀ plan step filled error after,
      closeLoop registry opened plan step filled ≠ .ok (.error error, after)
  /-- An error leaves the tree, and is the same for every plan and every body: none was built. -/
  atomic : ∀ plan body error after,
    foreachLoop registry policy enumerable plan body arena = .ok (.error error, after) →
      after = arena ∧ ∀ otherPlan otherBody,
        foreachLoop registry policy enumerable otherPlan otherBody arena = .ok (.error error, arena)

/-- How the use of a resource ends. -/
structure ResourceOutcome (registry : Registry) (resource : NodeId) (type : TypeId)
    (arena : Arena) : Prop where
  /-- It is not disposable exactly if its type has no disposal. -/
  notDisposable : ∀ body,
    (∃ name, registry.metadataName type = .ok name ∧
      useResource registry resource body arena = .ok (.error (.notDisposable name), arena)) ↔
      registry.classifyDisposal type = .ok none
  /-- Otherwise, and only then, it is used for a body that is a node. -/
  used : ∀ body bodyType, arena.typeOf body = .ok bodyType →
    ((∃ id after, useResource registry resource body arena = .ok (.ok id, after)) ↔
      registry.classifyDisposal type ≠ .ok none)
  /-- An error leaves the tree. -/
  atomic : ∀ body error after,
    useResource registry resource body arena = .ok (.error error, after) → after = arena

namespace Registry

variable {registry : Registry} {policy : Policy} {type : TypeId} {arena : Arena} {node : NodeId}

section Verdicts

variable {shape : EnumerableShape} {verdict : Except LoweringError LoopMembers}
  (comes : LoopVerdict registry type shape verdict)
include comes

/-- Nothing is enumerable without something that gives an enumerator. -/
theorem LoopVerdict.notEnumerable_iff :
    (∃ name, registry.displayName type = .ok name ∧ verdict = .error (.notEnumerable name)) ↔
      shape.getEnumerator = none := by
  cases comes with
  | notEnumerable absent named => exact ⟨fun _ => absent, fun _ => ⟨_, named, rfl⟩⟩
  | invalidEnumerator present => exact ⟨by rintro ⟨_, -, ⟨⟩⟩, fun absent => absurd absent present⟩
  | notDisposable isComplete =>
    have present := (EnumerableShape.of_complete isComplete).1
    exact ⟨by rintro ⟨_, -, ⟨⟩⟩, fun absent => absurd absent present⟩
  | possible isComplete =>
    have present := (EnumerableShape.of_complete isComplete).1
    exact ⟨by rintro ⟨_, -, ⟨⟩⟩, fun absent => absurd absent present⟩

/-- An enumerator is invalid for the member that it lacks. -/
theorem LoopVerdict.invalidEnumerator_iff (missing : MissingMember) :
    (∃ enumerator typeName enumeratorName, shape.enumerator.type = some enumerator ∧
      registry.displayName type = .ok typeName ∧
      registry.displayName enumerator = .ok enumeratorName ∧
      verdict = .error (.invalidEnumerator typeName enumeratorName missing)) ↔
      shape.getEnumerator ≠ none ∧ shape.enumerator.Lacks missing := by
  cases comes with
  | notEnumerable absent =>
    exact ⟨by rintro ⟨_, _, _, -, -, -, ⟨⟩⟩, fun both => absurd absent both.1⟩
  | invalidEnumerator present isEnumerator lacks named enumeratorNamed =>
    constructor
    · rintro ⟨_, _, _, -, -, -, ⟨⟩⟩
      exact ⟨present, lacks⟩
    · rintro ⟨-, lacksOther⟩
      obtain rfl := lacks.unique lacksOther
      exact ⟨_, _, _, isEnumerator, named, enumeratorNamed, rfl⟩
  | notDisposable isComplete =>
    have lacksNothing := (EnumerableShape.of_complete isComplete).2
    exact ⟨by rintro ⟨_, _, _, -, -, -, ⟨⟩⟩, fun both => absurd both.2 (lacksNothing missing)⟩
  | possible isComplete =>
    have lacksNothing := (EnumerableShape.of_complete isComplete).2
    exact ⟨by rintro ⟨_, _, _, -, -, -, ⟨⟩⟩, fun both => absurd both.2 (lacksNothing missing)⟩

/-- A complete enumerator is not disposable if its type has no disposal. -/
theorem LoopVerdict.notDisposable_iff :
    (∃ enumerator name, shape.enumerator.type = some enumerator ∧
      registry.metadataName enumerator = .ok name ∧
      verdict = .error (.notDisposable name)) ↔
      shape.isComplete = true ∧ ∃ enumerator, shape.enumerator.type = some enumerator ∧
        registry.classifyDisposal enumerator = .ok none := by
  cases comes with
  | notEnumerable absent =>
    refine ⟨by rintro ⟨_, _, -, -, ⟨⟩⟩, fun both => ?_⟩
    exact absurd absent (EnumerableShape.of_complete both.1).1
  | invalidEnumerator present isEnumerator lacks =>
    refine ⟨by rintro ⟨_, _, -, -, ⟨⟩⟩, fun both => ?_⟩
    exact absurd lacks ((EnumerableShape.of_complete both.1).2 _)
  | notDisposable isComplete isEnumerator unclassified named =>
    exact ⟨fun _ => ⟨isComplete, _, isEnumerator, unclassified⟩,
      fun _ => ⟨_, _, isEnumerator, named, rfl⟩⟩
  | possible isComplete isEnumerator classified =>
    constructor
    · rintro ⟨_, _, -, -, ⟨⟩⟩
    · rintro ⟨-, enumerator, isEnumerator', unclassified⟩
      cases isEnumerator.symm.trans isEnumerator'
      cases classified.symm.trans unclassified

/-- A loop is possible over a complete enumerator whose type has a disposal. -/
theorem LoopVerdict.possible_iff :
    (∃ members, verdict = .ok members) ↔
      shape.isComplete = true ∧ ∀ enumerator, shape.enumerator.type = some enumerator →
        registry.classifyDisposal enumerator ≠ .ok none := by
  cases comes with
  | notEnumerable absent =>
    refine ⟨by rintro ⟨_, ⟨⟩⟩, fun both => ?_⟩
    exact absurd absent (EnumerableShape.of_complete both.1).1
  | invalidEnumerator present isEnumerator lacks =>
    refine ⟨by rintro ⟨_, ⟨⟩⟩, fun both => ?_⟩
    exact absurd lacks ((EnumerableShape.of_complete both.1).2 _)
  | notDisposable isComplete isEnumerator unclassified =>
    refine ⟨by rintro ⟨_, ⟨⟩⟩, fun both => ?_⟩
    exact absurd unclassified (both.2 _ isEnumerator)
  | possible isComplete isEnumerator classified =>
    refine ⟨fun _ => ⟨isComplete, fun enumerator isEnumerator' unclassified => ?_⟩,
      fun _ => ⟨_, rfl⟩⟩
    cases isEnumerator.symm.trans isEnumerator'
    cases classified.symm.trans unclassified

/-- How a loop ends is what comes of the wish for it. -/
theorem LoopVerdict.outcome (resolved : registry.resolveLoop policy type = .ok verdict)
    (usable : ∀ members, verdict = .ok members → registry.UsableMembers members)
    (typed : arena.typeOf node = .ok type) :
    LoopOutcome registry policy node type arena shape := by
  have ends : ∀ plan body error after,
      foreachLoop registry policy node plan body arena = .ok (.error error, after) ↔
        verdict = .error error ∧ after = arena := by
    intro plan body error after
    rw [foreachLoop_eq_error]
    constructor
    · rintro ⟨_, typed', resolved', rfl⟩
      cases typed.symm.trans typed'
      exact ⟨Except.ok.inj (resolved.symm.trans resolved'), rfl⟩
    · rintro ⟨same, rfl⟩
      exact ⟨type, typed, same ▸ resolved, rfl⟩
  have refused : ∀ plan body error,
      foreachLoop registry policy node plan body arena = .ok (.error error, arena) ↔
        verdict = .error error := by
    intro plan body error
    rw [ends, and_iff_left rfl]
  constructor
  case notEnumerable =>
    intro plan body
    simp only [refused, comes.notEnumerable_iff]
  case invalidEnumerator =>
    intro plan body missing
    simp only [refused, comes.invalidEnumerator_iff]
  case notDisposable =>
    intro plan body
    simp only [refused, comes.notDisposable_iff]
  case lowered =>
    intro plan body fits builds
    rw [← comes.possible_iff]
    constructor
    · rintro ⟨block, after, built⟩
      cases verdict with
      | ok members => exact ⟨members, rfl⟩
      | error error =>
        have failed := (refused plan body error).mpr rfl
        cases built.symm.trans failed
    · rintro ⟨members, rfl⟩
      exact foreachLoop_completes typed resolved (usable members rfl) fits builds
  case closes =>
    intro opened started opens plan step filled error after
    exact closeLoop_ne_error opens
  case atomic =>
    intro plan body error after failed
    obtain ⟨isError, isSame⟩ := (ends plan body error after).mp failed
    exact ⟨isSame, fun otherPlan otherBody => (refused otherPlan otherBody error).mpr isError⟩

end Verdicts

/-- How the use of a resource ends, if its type is registered. -/
theorem Furnished.resourceOutcome (complete : registry.Complete) (has : registry.Has type)
    {kind : NodeKind} (known : arena.kind node = .ok kind) (isBinding : kind.isBinding = true)
    (typed : arena.typeOf node = .ok type) : ResourceOutcome registry node type arena := by
  obtain ⟨name, named⟩ := metadataName_ok has
  have classifies := complete.classifyDisposal_eq_ok has
  generalize (if (registry.flagsOf type).byRefLike then _ else _ :
    Option DisposalStrategy) = classified at classifies
  constructor
  case notDisposable =>
    intro body
    constructor
    · rintro ⟨_, -, failed⟩
      obtain ⟨-, _, _, typed', unclassified, -⟩ := useResource_eq_error.mp failed
      cases typed.symm.trans typed'
      exact unclassified
    · intro unclassified
      exact ⟨name, named, useResource_eq_error.mpr
        ⟨⟨kind, known, isBinding⟩, type, name, typed, unclassified, named, rfl, rfl⟩⟩
  case used =>
    intro body bodyType bodyTyped
    constructor
    · rintro ⟨id, after, built⟩ unclassified
      obtain ⟨-, _, _, _, _, typed', classified, -⟩ := useResource_eq_ok.mp built
      cases typed.symm.trans typed'
      cases unclassified.symm.trans classified
    · intro notNone
      cases classified with
      | none => exact absurd classifies notNone
      | some strategy =>
        obtain ⟨method, source, disposes, sourceKnown, isMethod⟩ :=
          complete.disposes_of_classified has classifies
        obtain ⟨returns, sourceKind⟩ := isMethod.kind
        obtain ⟨disposal, middle, disposed⟩ :=
          disposeBy_completes typed disposes sourceKnown sourceKind
        have bodyThere := (disposeBy_adds disposed).1.typeOf bodyTyped
        obtain ⟨id, after, guarded⟩ := tryFinally_completes disposal bodyThere
        exact ⟨id, after, useResource_eq_ok.mpr ⟨⟨kind, known, isBinding⟩, type, strategy,
          disposal, middle, typed, classifies, disposed, guarded⟩⟩
  case atomic =>
    intro body error after failed
    obtain ⟨-, _, _, -, -, -, -, isSame⟩ := useResource_eq_error.mp failed
    exact isSame

/-- In every registry that is built, whatever may be edited, a loop over a binding of a registered
type and a use of it fail exactly when they should, and if they fail they leave the tree as it
was. -/
theorem Built.lowering_outcome {mayEdit : TypeEntry → Prop} (built : Built mayEdit registry)
    {kind : NodeKind} (known : arena.kind node = .ok kind) (isBinding : kind.isBinding = true)
    (typed : arena.typeOf node = .ok type) (has : registry.Has type) (policy : Policy) :
    (∃ shape, registry.isEnumerable policy type = .ok (shape.isComplete, shape) ∧
      LoopOutcome registry policy node type arena shape) ∧
    ResourceOutcome registry node type arena := by
  have complete := built.complete
  obtain ⟨shape, verdict, found, resolved, comes⟩ := complete.resolveLoop_verdict has policy
  have usable : ∀ members, verdict = .ok members → registry.UsableMembers members := by
    rintro members rfl
    exact complete.usable_of_resolveLoop has policy resolved
  exact ⟨⟨shape, found, comes.outcome resolved usable typed⟩,
    complete.resourceOutcome has known isBinding typed⟩

/-- A tree of two parameters, which hold an untyped and a generic enumerable. -/
def enumerablesArena : Arena :=
  ⟨#[⟨.parameter "untyped", .enumerable⟩, ⟨.parameter "items", .genericEnumerable⟩], #[], 0⟩

/-- The untyped enumerable gives an enumerator that has no disposal, so every loop over it is
refused, and it has no disposal itself. A loop over the generic enumerable is lowered. -/
theorem enumerablesArena_outcome :
    (∀ plan body, foreachLoop initial {} ⟨0⟩ plan body enumerablesArena =
      .ok (.error (.notDisposable "IEnumerator"), enumerablesArena)) ∧
    (∀ body, useResource initial ⟨0⟩ body enumerablesArena =
      .ok (.error (.notDisposable "IEnumerable"), enumerablesArena)) ∧
    ∃ block after, foreachLoop initial {} ⟨1⟩ {} (fun _ => return ⟨1⟩) enumerablesArena =
      .ok (.ok block, after) := by
  have built : Built TypeEntry.IsOriginal initial := .initial
  have untypedNamed : initial.metadataName .enumerable = .ok "IEnumerable" := by decide +kernel
  have enumeratorNamed : initial.metadataName .enumerator = .ok "IEnumerator" := by decide +kernel
  obtain ⟨⟨untyped, untypedFound, untypedLoop⟩, resource⟩ := built.lowering_outcome
    (show enumerablesArena.kind ⟨0⟩ = .ok (.parameter "untyped") from rfl) rfl
    (show enumerablesArena.typeOf ⟨0⟩ = .ok .enumerable from rfl) (by decide) {}
  obtain ⟨⟨generic, genericFound, genericLoop⟩, -⟩ := built.lowering_outcome
    (show enumerablesArena.kind ⟨1⟩ = .ok (.parameter "items") from rfl) rfl
    (show enumerablesArena.typeOf ⟨1⟩ = .ok .genericEnumerable from rfl) (by decide) {}
  have untypedSearched : (initial.isEnumerable {} .enumerable).map
      (fun found => (found.1, found.2.enumerator.type)) = .ok (true, some .enumerator) := by
    decide +kernel
  have genericSearched : (initial.isEnumerable {} .genericEnumerable).map
      (fun found => (found.1, found.2.enumerator.type)) = .ok (true, some ⟨13⟩) := by
    decide +kernel
  rw [untypedFound] at untypedSearched
  rw [genericFound] at genericSearched
  obtain ⟨untypedComplete, isEnumerator⟩ := Prod.mk.inj (Except.ok.inj untypedSearched)
  obtain ⟨genericComplete, isGeneric⟩ := Prod.mk.inj (Except.ok.inj genericSearched)
  refine ⟨fun plan body => ?_, fun body => ?_, ?_⟩
  · obtain ⟨_, _, same, named, refused⟩ := (untypedLoop.notDisposable plan body).mpr
      ⟨untypedComplete, .enumerator, isEnumerator, by decide +kernel⟩
    cases isEnumerator.symm.trans same
    cases enumeratorNamed.symm.trans named
    exact refused
  · obtain ⟨_, named, refused⟩ := (resource.notDisposable body).mpr (by decide +kernel)
    cases untypedNamed.symm.trans named
    exact refused
  · have fits : LoopPlan.Fits {} enumerablesArena :=
      ⟨fun _ isLocal => (nomatch isLocal), fun _ isResult => (nomatch isResult), by decide,
        by decide⟩
    have builds : BuildsBody initial {} ⟨1⟩ enumerablesArena (fun _ => return ⟨1⟩) :=
      fun _ started _ => ⟨⟨1⟩, started, rfl, .refl started⟩
    refine (genericLoop.lowered {} _ fits builds).mpr ⟨genericComplete, fun enumerator same => ?_⟩
    cases isGeneric.symm.trans same
    decide +kernel

end Registry

end Foreach
