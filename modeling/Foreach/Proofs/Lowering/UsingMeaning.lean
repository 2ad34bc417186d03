import Foreach.Proofs.Lowering.LoopBlock
import Foreach.Proofs.Lowering.Outcome
import Foreach.Proofs.Pattern.Disposals

/-!
# What the use of a resource means

A body that uses a resource is evaluated once. However it ended, the value that the binding holds
then is disposed of by one call, which runs the member that the type of the value runs; only where
values are references, null is not disposed of. The whole ends as the body if the disposal
completes, and with the error of the disposal otherwise
(`Registry.Built.useResource_meaning`).
-/
namespace Foreach

namespace Program

/-- The value that a binding holds is disposed of by a strategy that calls a method: by one call, or
by none. -/
inductive Disposes (program : Program) (resource : NodeId) (strategy : DisposalStrategy)
    (method : MemberId) (before : Machine) : Except EvaluationError Unit → Machine → Prop where
  /-- The binding holds no value, and it is an error to read it. -/
  | unheld {error : BindingError} {failure : EvaluationError}
    (absent : before.environment.lookup resource = .error error)
    (told : program.bindingFailure resource error = .ok failure) :
    Disposes program resource strategy method before (.error failure) before
  /-- Where values are references, nothing is done for null. -/
  | spared (isReference : strategy = .referenceType)
    (isNull : before.environment.lookup resource = .ok .null) :
    Disposes program resource strategy method before (.ok ()) before
  /-- The method is called on the value, once. -/
  | called {held : Value} {given : Except EvaluationError Value} {after : Machine}
    (holds : before.environment.lookup resource = .ok held)
    (needed : strategy = .referenceType → held ≠ .null)
    (calls : program.Calls held method [] before given after) :
    Disposes program resource strategy method before (given.map fun _ => ()) after

end Program

/-- How a body ends that a disposal follows: as it ended if the disposal completes, and with the
error of the disposal otherwise. -/
def endAfterDisposal (outcome : Except Interrupt Value) :
    Except EvaluationError Unit → Except Interrupt Value
  | .ok () => outcome
  | .error error => .error (.failure error)

/-- A method disposes of values of a type by a strategy. -/
inductive Registry.DisposesBy (registry : Registry) (type : TypeId) :
    DisposalStrategy → MemberId → Prop where
  /-- Copied values and references are disposed of by the method of the disposal contract. -/
  | contract {strategy : DisposalStrategy} {method : MemberId} {source : MemberEntry}
    (converts : strategy.convertsToInterface = true) (known : registry.member? method = some source)
    (owner : source.owner = .disposable) (isMethod : source.IsPublicMethod contractNames.dispose) :
    DisposesBy registry type strategy method
  /-- A value on the stack alone is disposed of by its type's own method, which runs itself. -/
  | own {method : MemberId} {source : MemberEntry} (known : registry.member? method = some source)
    (owner : source.owner = type) (isMethod : source.IsPublicMethod contractNames.dispose)
    (settled : registry.findImplementation? type method = .ok (some method)) :
    DisposesBy registry type (.byRefLike method) method

namespace Program

section Disposal

variable {program : Program} {resource disposal : NodeId} {strategy : DisposalStrategy}
  {method : MemberId} {kind : NodeKind} {before after : Machine}
  {outcome result : Except Interrupt Value}

/-- A binding that holds no value is told. -/
theorem bindingFailure_ok (known : program.arena.kind resource = .ok kind) (error : BindingError) :
    ∃ failure, program.bindingFailure resource error = .ok failure := by
  rw [bindingFailure, known]
  cases error <;> exact ⟨_, rfl⟩

/-- A disposal of what cannot be evaluated ends like that. -/
theorem evaluate_isDisposal_of_error
    (isDisposal : program.arena.IsDisposal disposal resource method strategy)
    {interrupt : Interrupt}
    (fails : ∀ bound, program.evaluate (bound + 1) resource before =
      .ok (.error interrupt, before)) (bound : Nat) :
    program.evaluate (bound + 4) disposal before = .ok (.error interrupt, before) := by
  cases strategy with
  | valueType =>
    obtain ⟨receiver, converted, isCall⟩ := isDisposal
    rw [evaluate_call isCall, evaluate_convert converted]
    exact Work.failing_bind_of_error (fails _)
  | byRefLike method =>
    rw [evaluate_call isDisposal]
    exact Work.failing_bind_of_error (fails _)
  | referenceType =>
    obtain ⟨present, missing, call, receiver, guarded, compared, -⟩ := isDisposal
    have test : program.evaluate (bound + 3) present before = .ok (.error interrupt, before) := by
      rw [evaluate_of_kind compared]
      exact Work.failing_bind_of_error (fails _)
    rw [evaluate_of_kind guarded]
    exact Work.failing_bind_of_error test

/-- A value is disposed of, and then there is the end of the body, unless the disposal has another
one. -/
theorem disposeHeld_eq_ok {held : Value} (holds : before.environment.lookup resource = .ok held) :
    (program.disposeHeld strategy method held >>= fun _ => Evaluation.resume outcome) before =
        .ok (result, after) ↔
      ∃ disposed, program.Disposes resource strategy method before disposed after ∧
        result = endAfterDisposal outcome disposed := by
  unfold disposeHeld
  by_cases isSpared : strategy = .referenceType ∧ held = .null
  · obtain ⟨isReference, rfl⟩ := isSpared
    rw [if_pos ⟨isReference, rfl⟩]
    constructor
    · intro ended
      cases ended
      exact ⟨.ok (), .spared isReference holds, rfl⟩
    · rintro ⟨disposed, disposes, rfl⟩
      cases disposes with
      | unheld absent => cases holds.symm.trans absent
      | spared => rfl
      | called holds' needed =>
        cases holds.symm.trans holds'
        exact absurd rfl (needed isReference)
  · rw [if_neg isSpared, bind_assoc]
    constructor
    · intro ended
      obtain ⟨value, middle, called, ended⟩ | ⟨interrupt, called, rfl⟩ :=
        Work.failing_bind_eq_ok.mp ended
      all_goals
        obtain ⟨given, calls, same⟩ := callMember_eq_ok.mp called
        have needed : strategy = .referenceType → held ≠ .null :=
          fun isReference isNull => isSpared ⟨isReference, isNull⟩
        cases given <;> cases same
      · cases ended
        exact ⟨_, .called holds needed calls, rfl⟩
      · exact ⟨_, .called holds needed calls, rfl⟩
    · rintro ⟨disposed, disposes, rfl⟩
      cases disposes with
      | unheld absent => cases holds.symm.trans absent
      | spared isReference isNull =>
        cases holds.symm.trans isNull
        exact absurd ⟨isReference, rfl⟩ isSpared
      | @called _ given _ holds' needed calls =>
        cases holds.symm.trans holds'
        have called := callMember_eq_ok.mpr ⟨given, calls, rfl⟩
        cases given with
        | ok value =>
          rw [Work.failing_bind_of_ok called]
          rfl
        | error error => exact Work.failing_bind_of_error called

/-- The disposal of a binding, followed by the end of the body, disposes of what the binding
holds. -/
theorem disposal_eq_ok (isDisposal : program.arena.IsDisposal disposal resource method strategy)
    (known : program.arena.kind resource = .ok kind) (isBinding : kind.isBinding = true)
    (bound : Nat) :
    (program.evaluate (bound + 4) disposal >>= fun _ => Evaluation.resume outcome) before =
        .ok (result, after) ↔
      ∃ disposed, program.Disposes resource strategy method before disposed after ∧
        result = endAfterDisposal outcome disposed := by
  cases looked : before.environment.lookup resource with
  | ok held =>
    have reads (bound : Nat) :
        program.evaluate (bound + 1) resource before = .ok (.ok held, before) := by
      rw [evaluate_binding known isBinding]
      exact read_of_lookup looked
    rw [evaluate_isDisposal isDisposal reads]
    exact disposeHeld_eq_ok looked
  | error error =>
    obtain ⟨failure, told⟩ := bindingFailure_ok known error
    have fails (bound : Nat) : program.evaluate (bound + 1) resource before =
        .ok (.error (.failure failure), before) := by
      rw [evaluate_binding known isBinding]
      exact read_eq_ok.mpr ⟨rfl, .inr ⟨error, failure, looked, told, rfl⟩⟩
    rw [Work.failing_bind_of_error (evaluate_isDisposal_of_error isDisposal fails bound)]
    constructor
    · intro ended
      cases ended
      exact ⟨.error failure, .unheld looked told, rfl⟩
    · rintro ⟨disposed, disposes, rfl⟩
      cases disposes with
      | unheld absent told' =>
        cases looked.symm.trans absent
        cases told.symm.trans told'
        rfl
      | spared _ isNull => cases looked.symm.trans isNull
      | called holds => cases looked.symm.trans holds

/-- A body that is followed by the disposal of a binding is evaluated once, from where the
evaluation starts; where it ended, what the binding holds is disposed of. -/
theorem evaluate_guarded {id body : NodeId}
    (guarded : program.arena.kind id = .ok (.tryFinally body disposal))
    (isDisposal : program.arena.IsDisposal disposal resource method strategy)
    (known : program.arena.kind resource = .ok kind) (isBinding : kind.isBinding = true) :
    (∃ bound, program.evaluate bound id before = .ok (result, after)) ↔
      ∃ outcome middle disposed,
        (∃ bound, program.evaluate bound body before = .ok (outcome, middle)) ∧
          program.Disposes resource strategy method middle disposed after ∧
            result = endAfterDisposal outcome disposed := by
  have opened (bound : Nat) : program.evaluate (bound + 5) id before = .ok (result, after) ↔
      ∃ outcome middle, program.evaluate (bound + 4) body before = .ok (outcome, middle) ∧
        ∃ disposed, program.Disposes resource strategy method middle disposed after ∧
          result = endAfterDisposal outcome disposed := by
    rw [evaluate_of_kind guarded]
    refine Evaluation.attempt_bind_eq_ok.trans ?_
    simp only [disposal_eq_ok isDisposal known isBinding]
  constructor
  · rintro ⟨bound, ended⟩
    obtain ⟨outcome, middle, ran, disposed, disposes, same⟩ :=
      (opened bound).mp (evaluate_mono (Nat.le_add_right bound 5) ended)
    exact ⟨outcome, middle, disposed, ⟨bound + 4, ran⟩, disposes, same⟩
  · rintro ⟨outcome, middle, disposed, ⟨bound, ran⟩, disposes, same⟩
    exact ⟨bound + 5, (opened bound).mpr
      ⟨outcome, middle, evaluate_mono (Nat.le_add_right bound 4) ran, disposed, disposes, same⟩⟩

end Disposal

end Program

namespace Registry

open Construction

variable {mayEdit : TypeEntry → Prop} {registry : Registry} {type : TypeId}
  {strategy : DisposalStrategy}

/-- A type whose values can be disposed of is registered. -/
theorem has_of_classifyDisposal {classified : Option DisposalStrategy}
    (classifies : registry.classifyDisposal type = .ok classified) : registry.Has type := by
  obtain ⟨_, asked, -⟩ := Work.checked_bind_eq_ok.mp classifies
  obtain ⟨entry, found, -⟩ := Work.checked_bind_eq_ok.mp asked
  exact has_iff.mpr ⟨entry, Checked.ofOption_eq_ok.mp found⟩

/-- The method that a strategy calls is the contract's, or the type's own. -/
theorem Built.disposesBy (built : Built mayEdit registry)
    (classified : registry.classifyDisposal type = .ok (some strategy)) :
    ∃ method, strategy.method registry = .ok method ∧ registry.DisposesBy type strategy method := by
  have complete := built.complete
  have has := has_of_classifyDisposal classified
  have throughContract (converts : strategy.convertsToInterface = true) :
      registry.DisposesBy type strategy ⟨0⟩ :=
    .contract converts (complete.keeps.members rfl) rfl ⟨rfl, ⟨_, rfl⟩, rfl, rfl, rfl⟩
  cases strategy with
  | valueType => exact ⟨⟨0⟩, complete.disposeMethod_eq_ok, throughContract rfl⟩
  | referenceType => exact ⟨⟨0⟩, complete.disposeMethod_eq_ok, throughContract rfl⟩
  | byRefLike dispose =>
    obtain ⟨method, source, same, known, isMethod⟩ := complete.disposes_of_classified has classified
    cases same
    obtain ⟨_, _, -, classified', agrees⟩ := built.disposal_agrees has {}
    cases classified.symm.trans classified'
    obtain ⟨⟨_, source', -, -, known', owner⟩, settled⟩ := agrees.own dispose rfl
    cases known.symm.trans known'
    exact ⟨dispose, rfl, .own known owner isMethod settled⟩

/-- In every registry that is built, whatever may be edited, a use of a binding of a disposable type
is lowered to a node that evaluates the body once, and then disposes once of what the binding holds
at that time: by one call of the contract's method or of the type's own, which is left out only for
null where values are references. It ends as the body if the disposal completes, and with the error
of the disposal otherwise. -/
theorem Built.useResource_meaning (built : Built mayEdit registry) {arena : Arena}
    {resource body : NodeId} {kind : NodeKind} {bodyType : TypeId}
    (known : arena.kind resource = .ok kind) (isBinding : kind.isBinding = true)
    (typed : arena.typeOf resource = .ok type)
    (classified : registry.classifyDisposal type = .ok (some strategy))
    (bodyTyped : arena.typeOf body = .ok bodyType) :
    ∃ node method lowered,
      useResource registry resource body arena = .ok (.ok node, lowered) ∧
        lowered.Extends arena ∧ registry.DisposesBy type strategy method ∧
          ∀ program : Program, program.arena.Extends lowered → ∀ before result after,
            (∃ bound, program.evaluate bound node before = .ok (result, after)) ↔
              ∃ outcome middle disposed,
                (∃ bound, program.evaluate bound body before = .ok (outcome, middle)) ∧
                  program.Disposes resource strategy method middle disposed after ∧
                    result = endAfterDisposal outcome disposed := by
  have has := has_of_classifyDisposal classified
  have outcome := built.complete.resourceOutcome has known isBinding typed
  have notRefused : registry.classifyDisposal type ≠ .ok none := by
    rw [classified]
    nofun
  obtain ⟨node, lowered, used⟩ := (outcome.used body bodyType bodyTyped).mpr notRefused
  obtain ⟨-, _, _, disposal, middle, typed', classified', disposed, guarded⟩ :=
    useResource_eq_ok.mp used
  cases typed.symm.trans typed'
  cases classified.symm.trans classified'
  obtain ⟨disposalGrown, method, disposes, isDisposal⟩ := disposeBy_adds disposed
  obtain ⟨method', disposes', disposesBy⟩ := built.disposesBy classified
  cases disposes.symm.trans disposes'
  obtain ⟨guardGrown, guardKnown⟩ := tryFinally_adds guarded
  refine ⟨node, method, lowered, used, guardGrown.trans disposalGrown, disposesBy, ?_⟩
  intro program grown before result after
  have fromMiddle := grown.trans guardGrown
  exact Program.evaluate_guarded (grown.kind guardKnown) (isDisposal.extend fromMiddle)
    ((fromMiddle.trans disposalGrown).kind known) isBinding

/-- A tree of a parameter that holds something disposable and an integer. -/
def resourceArena : Arena :=
  ⟨#[⟨.parameter "resource", .disposable⟩, ⟨.int 1, .int⟩], #[], 0⟩

/-- Disposals are counted in the first field of what is disposed of. -/
def countedDisposal : Natives := ⟨[(⟨0⟩, Program.countIn 0)]⟩

/-- A machine whose parameter holds an object with one field. -/
def countingMachine (field : Value) : Machine where
  environment := ⟨[(⟨0⟩, some (.object ⟨0⟩))], []⟩
  heap := ⟨#[⟨.disposable, [field]⟩], #[]⟩

/-- A use for the integer is the integer: nothing is called on null, and the disposal of an object
is called once. If it fails, since the field holds no integer, so does the use. -/
theorem resourceArena_meaning : ∃ node lowered,
    useResource initial ⟨0⟩ ⟨1⟩ resourceArena = .ok (.ok node, lowered) ∧
      (∀ natives before, before.environment.lookup ⟨0⟩ = .ok .null →
        ∃ bound, Program.evaluate ⟨initial, lowered, natives⟩ bound node before =
          .ok (.ok (.int 1), before)) ∧
      (∃ bound, Program.evaluate ⟨initial, lowered, countedDisposal⟩ bound node
          (countingMachine (.int 0)) = .ok (.ok (.int 1), countingMachine (.int 1))) ∧
      ∃ bound, Program.evaluate ⟨initial, lowered, countedDisposal⟩ bound node
          (countingMachine .null) =
        .ok (.error (.failure (.typeMismatch "int" "null")), countingMachine .null) := by
  have classified : initial.classifyDisposal .disposable = .ok (some .referenceType) := by decide
  have built : Built TypeEntry.IsOriginal initial := .initial
  have parameter : resourceArena.kind ⟨0⟩ = .ok (.parameter "resource") := rfl
  have typed : resourceArena.typeOf ⟨0⟩ = .ok .disposable := rfl
  have bodyTyped : resourceArena.typeOf ⟨1⟩ = .ok .int := rfl
  obtain ⟨node, method, lowered, used, grown, disposesBy, means⟩ :=
    built.useResource_meaning parameter rfl typed classified bodyTyped
  have integer : lowered.kind ⟨1⟩ = .ok (.int 1) := grown.kind rfl
  have ran (natives : Natives) (before : Machine) :
      Program.evaluate ⟨initial, lowered, natives⟩ 1 ⟨1⟩ before = .ok (.ok (.int 1), before) := by
    rw [Program.evaluate_of_kind integer]
    rfl
  -- The contract has one member, so that is the method.
  obtain rfl : method = ⟨0⟩ := by
    have single : ∀ index < initial.members.size,
        (initial.member? ⟨index⟩).map (·.owner) = some .disposable → index = 0 := by decide +kernel
    cases disposesBy with
    | contract _ known owner =>
      have first := single method.index (index_lt_of_member? known)
        (by rw [known, Option.map_some, owner])
      exact congrArg MemberId.mk first
  -- An object is there to be disposed of, and the disposal ends as it does on the heap.
  have disposed (field : Value) {given : Except EvaluationError Value} {heap : Heap}
      (ended : Program.countIn 0 (.object ⟨0⟩) [] (countingMachine field).heap =
        .ok (given, heap)) :
      Program.Disposes ⟨initial, lowered, countedDisposal⟩ ⟨0⟩ .referenceType ⟨0⟩
        (countingMachine field) (given.map fun _ => ()) { countingMachine field with heap } := by
    have dispatched : Program.dispatch ⟨initial, lowered, countedDisposal⟩
        (countingMachine field).heap (.object ⟨0⟩) ⟨0⟩ = .ok ⟨0⟩ := by
      have own : initial.findImplementation? .disposable ⟨0⟩ = .ok (some ⟨0⟩) := by decide +kernel
      exact Work.checked_bind_eq_ok.mpr ⟨some ⟨0⟩, own, rfl⟩
    exact .called rfl (fun _ => nofun) (.runs nofun dispatched rfl ended)
  refine ⟨node, lowered, used, fun natives before isNull => ?_, ?_, ?_⟩
  · exact (means ⟨initial, lowered, natives⟩ (.refl lowered) _ _ _).mpr
      ⟨_, before, .ok (), ⟨1, ran natives before⟩, .spared rfl isNull, rfl⟩
  · exact (means _ (.refl lowered) _ _ _).mpr
      ⟨_, _, .ok (), ⟨1, ran _ _⟩, disposed (.int 0) rfl, rfl⟩
  · exact (means _ (.refl lowered) _ _ _).mpr
      ⟨_, _, .error _, ⟨1, ran _ _⟩, disposed .null rfl, rfl⟩

end Registry

end Foreach
