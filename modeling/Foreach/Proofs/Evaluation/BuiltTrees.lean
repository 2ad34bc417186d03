import Foreach.Proofs.Evaluation.Exhaustion
import Foreach.Proofs.Lowering.Operations
import Foreach.Proofs.Source.Ending
import Foreach.Proofs.Types.Built

/-!
# Trees that are built

The operations that build trees leave arenas in which nodes are younger than their parts. Therefore
whatever goes from nodes to their parts comes to an end: all of writing, and evaluation as well but
for loops and native bodies.
-/
namespace Foreach

open Construction

namespace Arena

/-- Trees that are built are well-founded, and stay as they are.

* In an arena that was built the children of a node are older than the node, and its lists lie
  inside the table of lists. Every node reads back as what it was made from.
* Whatever is built later, also if it is refused, changes no node, no type and no list.
* Writing any tree ends.
* A call of a function, or evaluation of a tree, exceeds every bound exactly if it comes to a loop
  whose rounds end again and again, or to a native body that does not end. -/
theorem Operations.wellFounded_and_stable {first last : Arena} (built : Operations .empty first)
    (goesOn : Operations first last) :
    first.Grounded ∧ last.Preserves first ∧
    (∀ registry : Registry, registry.Closed →
      (∀ id, (Source.expressionText registry first id).Ends) ∧
      (∀ width root, (Source.bodyText registry first width root).Ends) ∧
      ∀ width ids, (Source.statementsText registry first width ids).Ends) ∧
    ∀ program : Program, program.arena = first → program.registry.Closed →
      ∀ (call : Call) machine,
        (∀ bound, call.run program bound machine = .error .exhausted) ↔
          call.StaysInside program machine := by
  have grounded := built.oneByOne.grounded
  refine ⟨grounded, grounded.preserves goesOn.oneByOne.grown, fun registry closed => ?_, ?_⟩
  · exact ⟨Source.expressionText_terminates closed grounded.older,
      Source.bodyText_terminates closed grounded.older,
      Source.statementsText_terminates closed grounded.older⟩
  · rintro program rfl closed call machine
    exact Call.exhausted_iff closed grounded.older

/-- A parameter that holds a generic enumerable, and a loop that does nothing for as long as true
holds. -/
def endlessLoop : Arena :=
  ⟨#[⟨.parameter "items", .genericEnumerable⟩, ⟨.bool true, .bool⟩, ⟨.block ⟨0, 0⟩ ⟨0, 0⟩, .void⟩,
    ⟨.breakTo ⟨0⟩, .void⟩, ⟨.ifThenElse ⟨1⟩ ⟨2⟩ ⟨3⟩, .void⟩, ⟨.loop ⟨4⟩ ⟨0⟩, .void⟩], #[], 1⟩

/-- The body of a loop over the items: it reads them all again. -/
def readAgain (_ : LoopBinding) : Construction NodeId := do
  match ← foreachLoop .initial {} ⟨0⟩ {} (currentItem .initial) with
  | .ok block => return block
  | .error _ => return ⟨0⟩

/-- The loop inside of the loop is built by operations, also where it is refused. -/
theorem readAgain_operations {binding : LoopBinding} {before after : Arena} {step : NodeId}
    (itemsHas : before.Has ⟨0⟩) (ran : readAgain binding before = .ok (step, after)) :
    Operations before after ∧ after.Has step := by
  obtain ⟨result, _, looped, ended⟩ := Work.bind_eq_ok.mp ran
  cases result with
  | error error =>
    obtain ⟨rfl, rfl⟩ := Work.pure_eq_ok.mp ended
    have refused : Operations before _ := .refusedLoop (.none before) itemsHas looped
    exact ⟨refused, refused.oneByOne.grown.has itemsHas⟩
  | ok block =>
    obtain ⟨rfl, rfl⟩ := Work.pure_eq_ok.mp ended
    obtain ⟨opened, started, item, filled, opens, fills, -⟩ := foreachLoop_eq_ok.mp looped
    have enumeratorHas := (openLoop_fills itemsHas opens).2.1
    obtain ⟨-, itemHas⟩ := oneByOne_of_build .initial
      (.property opened.binding.enumerator opened.binding.current)
      (by simp [Draft.parts, enumeratorHas]) fills
    have inside : Operations started filled := .node (.none started)
      (by simp [Draft.parts, enumeratorHas])
      (show Draft.build .initial (.property opened.binding.enumerator opened.binding.current)
        started = .ok (item, filled) from fills)
    have planHas : ∀ node ∈ LoopPlan.nodes {}, before.Has node := by simp [LoopPlan.nodes]
    exact ⟨.foreachLoop (.none before) itemsHas planHas opens inside fills itemHas looped,
      (foreachLoop_oneByOne itemsHas planHas opens inside.oneByOne fills itemHas looped).2⟩

/-- The endless loop stays as it is while a loop inside of a loop is built after it. It is written
out, and evaluation of it exceeds every bound. -/
theorem endlessLoop_wellFounded_and_stable : ∃ block last,
    foreachLoop .initial {} ⟨0⟩ {} readAgain endlessLoop = .ok (.ok block, last) ∧
    endlessLoop.Grounded ∧ last.Preserves endlessLoop ∧
    (∀ width, (Source.bodyText .initial endlessLoop width ⟨5⟩).Ends) ∧
    ∀ bound, (Call.eval ⟨5⟩).run ⟨.initial, endlessLoop, .empty⟩ bound (.start .empty) =
      .error .exhausted := by
  have built : Operations .empty endlessLoop := by
    have items : Draft.build .initial (.parameter "items" .genericEnumerable) .empty =
      .ok (⟨0⟩, ⟨endlessLoop.nodes.extract 0 1, #[], 0⟩) := by rfl
    have condition : Draft.build .initial (.bool true) ⟨endlessLoop.nodes.extract 0 1, #[], 0⟩ =
      .ok (⟨1⟩, ⟨endlessLoop.nodes.extract 0 2, #[], 0⟩) := by rfl
    have body : Draft.build .initial (.block [] []) ⟨endlessLoop.nodes.extract 0 2, #[], 0⟩ =
      .ok (⟨2⟩, ⟨endlessLoop.nodes.extract 0 3, #[], 0⟩) := by rfl
    have looped : whileLoop ⟨1⟩ ⟨2⟩ ⟨endlessLoop.nodes.extract 0 3, #[], 0⟩ =
      .ok (⟨5⟩, endlessLoop) := by rfl
    exact .whileLoop (.node (.node (.node (.none .empty) (by simp [Draft.parts]) items)
      (by simp [Draft.parts]) condition) (by simp [Draft.parts]) body)
      (by decide) (by decide) looped
  have lowered : (foreachLoop .initial {} ⟨0⟩ {} readAgain endlessLoop).map (·.1.isOk) =
      .ok true := by decide +kernel
  obtain ⟨block, last, ran⟩ : ∃ block last,
      foreachLoop .initial {} ⟨0⟩ {} readAgain endlessLoop = .ok (.ok block, last) := by
    cases ended : foreachLoop .initial {} ⟨0⟩ {} readAgain endlessLoop with
    | error stop =>
      rw [ended] at lowered
      cases lowered
    | ok outcome =>
      obtain ⟨result, last⟩ := outcome
      rw [ended] at lowered
      cases result with
      | error error => cases lowered
      | ok block => exact ⟨block, last, rfl⟩
  have goesOn : Operations endlessLoop last := by
    obtain ⟨opened, started, step, filled, opens, fills, -⟩ := foreachLoop_eq_ok.mp ran
    have itemsHas : endlessLoop.Has ⟨0⟩ := by decide
    have opening := (openLoop_fills itemsHas opens).1
    obtain ⟨inside, stepHas⟩ := readAgain_operations (opening.grown.has itemsHas) fills
    exact .foreachLoop (.none endlessLoop) itemsHas (by simp [LoopPlan.nodes]) opens inside fills
      stepHas ran
  obtain ⟨grounded, preserves, written, evaluated⟩ := built.wellFounded_and_stable goesOn
  refine ⟨block, last, ran, grounded, preserves, fun width =>
    (written .initial Registry.initial_closed).2.1 width ⟨5⟩, ?_⟩
  have rounds (count : Nat) : Program.Rounds ⟨.initial, endlessLoop, .empty⟩ ⟨4⟩ count
      (.start .empty) (.start .empty) := by
    induction count with
    | zero => exact .none _
    | succ count ih =>
      have round : Program.evaluate ⟨.initial, endlessLoop, .empty⟩ 2 ⟨4⟩ (.start .empty) =
        .ok (.ok .void, .start .empty) := by rfl
      exact .next round ih
  exact (evaluated ⟨.initial, endlessLoop, .empty⟩ rfl Registry.initial_closed (.eval ⟨5⟩) _).mpr
    ⟨⟨5⟩, .start .empty, .eval ⟨5⟩ _, ⟨5⟩, .start .empty, .here ⟨5⟩ _,
      .inl ⟨⟨4⟩, ⟨0⟩, rfl, fun count => ⟨_, rounds count⟩⟩⟩

end Arena

end Foreach
