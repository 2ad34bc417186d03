import Foreach.Proofs.Evaluation.Interrupts
import Foreach.Proofs.Tree.Assembled

/-!
# Where a value comes from

The value of a block is that of its last statement, the value of a statement with a cleanup is that
of the statement, and every other node that has a value works it out itself. So there is one node
that gives the value of a node (`Arena.Gives`); it has the type of that node, and whatever value the
node has, evaluation of the one that gives it came to it (`Program.leads_of_gives`).
-/
namespace Foreach

/-- The value of a node is worked out by a node. -/
inductive Arena.Gives (arena : Arena) : NodeId → NodeId → Prop where
  /-- What is no statement works out its own value. -/
  | here {id : NodeId} {kind : NodeKind} (known : arena.kind id = .ok kind)
    (noStatement : kind.isStatement = false) : Gives arena id id
  /-- A statement has the value of one of its parts. -/
  | part {id part source : NodeId} {kind : NodeKind} (known : arena.kind id = .ok kind)
    (isPart : arena.valuePart? kind = some part) (gives : Gives arena part source) :
    Gives arena id source

namespace Arena

variable {arena : Arena} {id source : NodeId}

/-- Only a statement has the value of a part. -/
theorem isStatement_of_valuePart? {kind : NodeKind} {part : NodeId}
    (isPart : arena.valuePart? kind = some part) : kind.isStatement = true := by
  cases kind <;> first | rfl | cases isPart

/-- What works out a value is no statement. -/
theorem Gives.source_kind (gives : arena.Gives id source) :
    ∃ kind, arena.kind source = .ok kind ∧ kind.isStatement = false := by
  induction gives with
  | here known noStatement => exact ⟨_, known, noStatement⟩
  | part _ _ _ ih => exact ih

/-- One node works out the value of a node. -/
theorem Gives.unique {other : NodeId} (gives : arena.Gives id source)
    (givesToo : arena.Gives id other) : source = other := by
  induction gives with
  | here known noStatement =>
    cases givesToo with
    | here => rfl
    | part knownToo isPart =>
      obtain rfl := Except.ok.inj (known.symm.trans knownToo)
      cases noStatement.symm.trans (isStatement_of_valuePart? isPart)
  | part known isPart _ ih =>
    cases givesToo with
    | here knownToo noStatement =>
      obtain rfl := Except.ok.inj (known.symm.trans knownToo)
      cases noStatement.symm.trans (isStatement_of_valuePart? isPart)
    | part knownToo isPartToo further =>
      obtain rfl := Except.ok.inj (known.symm.trans knownToo)
      obtain rfl := Option.some.inj (isPart.symm.trans isPartToo)
      exact ih further

/-- In a formed arena the value of every node that has one is worked out by a node, which has the
same type. -/
theorem Formed.exists_gives {registry : Registry} (formed : arena.Formed registry) {type : TypeId}
    (typed : arena.typeOf id = .ok type) (hasValue : type ≠ .void) :
    ∃ source, arena.Gives id source ∧ arena.typeOf source = .ok type := by
  induction size : id.index using Nat.strongRecOn generalizing id with
  | ind index ih =>
    obtain ⟨node, found, rfl⟩ := typeOf_eq_ok.mp typed
    have known : arena.kind id = .ok node.kind := kind_eq_ok.mpr ⟨node, found, rfl⟩
    have suits := formed id node found
    cases ends : arena.valuePart? node.kind with
    | none =>
      cases isStatement : node.kind.isStatement with
      | true => exact absurd (suits.void isStatement ends) hasValue
      | false => exact ⟨id, .here known isStatement, typed⟩
    | some part =>
      have isChild : part ∈ arena.children node.kind := by
        cases sort : node.kind with
        | block locals statements =>
          rw [sort, valuePart?] at ends
          exact List.mem_append_right _ (List.mem_of_getLast? ends)
        | tryFinally body cleanup =>
          rw [sort] at ends
          cases ends
          exact List.mem_cons_self
        | _ =>
          rw [sort] at ends
          cases ends
      obtain ⟨source, gives, sourceTyped⟩ :=
        ih part.index (size ▸ suits.older part isChild) (suits.value part ends) rfl
      exact ⟨source, .part known ends gives, sourceTyped⟩

end Arena

namespace Program

variable {program : Program} {bound : Nat} {before after : Machine} {value : Value}

/-- The value of statements in order is that of the last one. -/
theorem runAll_concat {earlier : List NodeId} {last : NodeId}
    (ended : runAll (program.evaluate bound) .void (earlier ++ [last]) before =
      .ok (.ok value, after)) :
    ∃ between inner,
      runAll (program.evaluate bound) .void earlier before = .ok (.ok between, inner) ∧
      program.evaluate bound last inner = .ok (.ok value, after) := by
  rw [runAll_append] at ended
  obtain ⟨between, inner, ran, ended⟩ | ⟨_, -, failed⟩ := Work.failing_bind_eq_ok.mp ended
  · refine ⟨between, inner, ran, ?_⟩
    rwa [show (program.evaluate bound last >>=
      fun value => runAll (program.evaluate bound) value []) =
        program.evaluate bound last from bind_pure _] at ended
  · cases failed

/-- A statement that has a value enters the part that gives it, and the part has the value. -/
theorem exists_enters {id part : NodeId} {kind : NodeKind}
    (known : program.arena.kind id = .ok kind) (isPart : program.arena.valuePart? kind = some part)
    (ended : program.evaluate bound id before = .ok (.ok value, after)) :
    ∃ frame inner last, program.Enters ⟨bound, id, before⟩ frame inner ∧ inner.node = part ∧
      inner.run program = .ok (.ok value, last) := by
  cases bound with
  | zero => cases ended
  | succ bound =>
    rw [evaluate_of_kind known] at ended
    cases kind with
    | block locals statements =>
      obtain ⟨earlier, listed⟩ := List.getLast?_eq_some_iff.mp isPart
      obtain ⟨inner, ran, -⟩ := Evaluation.inScope_eq_ok.mp ended
      rw [Work.failing_bind_of_ok (declareAll_apply _), listed] at ran
      obtain ⟨between, inner, ran, final⟩ := runAll_concat ran
      exact ⟨.scope, ⟨bound, part, inner⟩, _, .statement known listed ran, rfl, final⟩
    | tryFinally body cleanup =>
      cases isPart
      obtain ⟨outcome, middle, ran, ended⟩ := Evaluation.attempt_bind_eq_ok.mp ended
      obtain ⟨_, _, cleaned, resumed⟩ | ⟨_, -, failed⟩ := Work.failing_bind_eq_ok.mp ended
      · rw [Evaluation.resume_apply] at resumed
        obtain ⟨rfl, -⟩ := Prod.mk.inj (Except.ok.inj resumed)
        exact ⟨.cleanup bound cleanup, ⟨bound, part, before⟩, middle, .guarded known, rfl, ran⟩
      · cases failed
    | _ => cases isPart

/-- The value of a node is one that evaluation of the node that works it out came to. -/
theorem leads_of_gives {id source : NodeId} (gives : program.arena.Gives id source)
    (ended : program.evaluate bound id before = .ok (.ok value, after)) :
    ∃ frames inner last, program.Leads ⟨bound, id, before⟩ frames inner ∧ inner.node = source ∧
      inner.run program = .ok (.ok value, last) := by
  induction gives generalizing bound before after with
  | here => exact ⟨[], _, after, .here _, rfl, ended⟩
  | part known isPart _ ih =>
    obtain ⟨frame, inner, last, enters, rfl, ran⟩ := exists_enters known isPart ended
    obtain ⟨frames, innermost, final, leads, isSource, isValue⟩ := ih ran
    exact ⟨frame :: frames, innermost, final, .inside enters leads, isSource, isValue⟩

end Program

/-- In every program with some trees, whatever value a node has, evaluation of a node came to it on
the way. -/
def Arena.WorksOut (arena : Arena) (id source : NodeId) : Prop :=
  ∀ program : Program, program.arena = arena → ∀ bound before after value,
    program.evaluate bound id before = .ok (.ok value, after) →
      ∃ frames inner last, program.Leads ⟨bound, id, before⟩ frames inner ∧ inner.node = source ∧
        inner.run program = .ok (.ok value, last)

/-- What gives the value of a node works it out. -/
theorem Arena.Gives.worksOut {arena : Arena} {id source : NodeId} (gives : arena.Gives id source) :
    arena.WorksOut id source := by
  rintro program rfl bound before after value ended
  exact program.leads_of_gives gives ended

end Foreach
