import Foreach.Proofs.Lowering.LoopMeaning

/-!
# The block of a loop means the loop

Both the block that a loop becomes and the loop as it is understood get an enumerator, put it into
its variable, run the preamble, enumerate, and end with the result (`Program.enumeration`). They
differ in how each of these parts is evaluated and within which bound. Part by part, the block and
the loop end in the same way; `foreachLoop_meaning` puts the parts together.
-/
namespace Foreach

namespace Program

variable {program : Program} {loop : ForeachLoop} {nodes : LoopNodes} {block : NodeId}
  {before after : Machine} {result : Except Interrupt Value}

open Discipline

/-- The rounds of a loop whose body spares the enumerator and the loop's label spare them as
well. -/
theorem rounds_follows (unassigned : program.arena.NeverAssigns loop.body loop.enumerator)
    (unbroken : program.arena.NeverBreaks loop.body loop.exit) (held : Value) (bound : Nat) :
    (sparing loop.enumerator (· ≠ loop.exit)).Follows (program.rounds loop held bound)
      (program.rounds loop held bound) := by
  induction bound with
  | zero =>
    intro before result after ended
    cases ended
  | succ bound ih =>
    refine follows_bind (follows_callMember program held _ []) fun answer => ?_
    refine follows_bind (follows_given _) fun more => ?_
    cases more with
    | true =>
      exact follows_bind (evaluate_spares unassigned unbroken (Nat.le_refl bound)) fun _ => ih
    | false => exact follows_pure _

/-- What follows a node follows it within every larger bound. -/
theorem then_mono {id : NodeId} {small large : Nat} (within : small ≤ large)
    {next : Value → Evaluation Value}
    (ended : (program.evaluate small id >>= next) before = .ok (result, after)) :
    (program.evaluate large id >>= next) before = .ok (result, after) := by
  obtain ⟨value, middle, ran, rest⟩ | ⟨interrupt, ran, rfl⟩ := Work.failing_bind_eq_ok.mp ended
  · rw [Work.failing_bind_of_ok (evaluate_mono within ran)]
    exact rest
  · exact Work.failing_bind_of_error (evaluate_mono within ran)

/-- Enumeration with an enumerator that its variable holds. -/
theorem enumerate_of_lookup {held : Value} {bound : Nat}
    (holds : before.environment.lookup loop.enumerator = .ok held) :
    program.enumerate loop bound before =
      (Evaluation.attempt (program.rounds loop held bound) >>= fun ended =>
        program.disposeOf loop held >>= fun _ => Evaluation.resume ended) before :=
  Work.failing_bind_of_ok (read_of_lookup holds)

/-- A lowered loop with its disposal ends as the enumeration does. -/
theorem enumerate_of_guarded (form : nodes.Form program.arena block loop)
    (unassigned : program.arena.NeverAssigns loop.body loop.enumerator)
    (unbroken : program.arena.NeverBreaks loop.body loop.exit) {small large : Nat}
    (within : small ≤ large) (assigned : before.environment.HasValue loop.enumerator)
    (ended : program.evaluate small nodes.guarded before = .ok (result, after)) :
    program.enumerate loop large before = .ok (result, after) := by
  obtain ⟨held, holds⟩ := assigned
  cases small with
  | zero => cases ended
  | succ small =>
    rw [evaluate_of_kind form.guarded] at ended
    obtain ⟨outcome, middle, looped, rest⟩ := Evaluation.attempt_bind_eq_ok.mp ended
    have ran : program.rounds loop held large before = .ok (outcome, middle) :=
      rounds_of_looped form unassigned unbroken (by omega) holds looped
    obtain ⟨-, kept, -⟩ := rounds_follows unassigned unbroken held large _ _ _ ran
    have stillHolds : middle.environment.lookup loop.enumerator = .ok held :=
      (lookup_of_keeps_sparing kept).trans holds
    have disposed := then_mono (show small ≤ small + 4 by omega) rest
    rw [evaluate_disposal form stillHolds] at disposed
    rw [enumerate_of_lookup holds]
    exact Evaluation.attempt_bind_eq_ok.mpr ⟨outcome, middle, ran, disposed⟩

/-- An enumeration ends as the lowered loop with its disposal does. -/
theorem guarded_of_enumerate (form : nodes.Form program.arena block loop)
    (unassigned : program.arena.NeverAssigns loop.body loop.enumerator)
    (unbroken : program.arena.NeverBreaks loop.body loop.exit) {bound : Nat}
    (assigned : before.environment.HasValue loop.enumerator)
    (ended : program.enumerate loop bound before = .ok (result, after)) :
    program.evaluate (bound + 5) nodes.guarded before = .ok (result, after) := by
  obtain ⟨held, holds⟩ := assigned
  rw [enumerate_of_lookup holds] at ended
  obtain ⟨outcome, middle, ran, rest⟩ := Evaluation.attempt_bind_eq_ok.mp ended
  have looped : program.evaluate (bound + 4) nodes.looped before = .ok (outcome, middle) :=
    evaluate_mono (by omega) (looped_of_rounds form unassigned unbroken holds ran)
  obtain ⟨-, kept, -⟩ := rounds_follows unassigned unbroken held bound _ _ _ ran
  have stillHolds : middle.environment.lookup loop.enumerator = .ok held :=
    (lookup_of_keeps_sparing kept).trans holds
  rw [evaluate_of_kind form.guarded, evaluateNode,
    Work.failing_bind_of_ok (Evaluation.attempt_of_ok looped),
    evaluate_disposal form stillHolds]
  exact rest

/-- A loop whose parts are evaluated in some way. -/
def enumeration (program : Program) (loop : ForeachLoop) (acquire : Evaluation Value)
    (evaluate : NodeId → Evaluation Value) (main : Evaluation Value) : Evaluation Value :=
  Evaluation.inScope do
    declareAll (loop.enumerator :: loop.plan.locals)
    program.write loop.enumerator (← acquire)
    runEach evaluate loop.plan.preamble
    let last ← main
    match loop.plan.result with
    | none => return last
    | some result => evaluate result

/-- Statements that are run follow one another if each of them does. -/
theorem follows_runEach {discipline : Discipline} {work spec : NodeId → Evaluation Value}
    (each : ∀ id, discipline.Follows (work id) (spec id)) (statements : List NodeId) :
    discipline.Follows (runEach work statements) (runEach spec statements) := by
  induction statements with
  | nil => exact follows_pure PUnit.unit
  | cons statement rest ih =>
    refine follows_bind ?_ fun _ => ih
    exact follows_bind (each statement) fun _ => follows_pure PUnit.unit

/-- A loop ends as another one does if each of its parts does. What enumerates may take for granted
that the enumerator is there. -/
theorem enumeration_refines {acquire otherAcquire main otherMain : Evaluation Value}
    {evaluate otherEvaluate : NodeId → Evaluation Value}
    (acquires : ∀ before result after, acquire before = .ok (result, after) →
      otherAcquire before = .ok (result, after))
    (evaluates : ∀ id, lasting.Follows (evaluate id) (otherEvaluate id))
    (mains : ∀ before result after, before.environment.HasValue loop.enumerator →
      main before = .ok (result, after) → otherMain before = .ok (result, after))
    (ended : program.enumeration loop acquire evaluate main before = .ok (result, after)) :
    program.enumeration loop otherAcquire otherEvaluate otherMain before = .ok (result, after) := by
  obtain ⟨inner, inside, rfl⟩ := Evaluation.inScope_eq_ok.mp ended
  refine Evaluation.inScope_eq_ok.mpr ⟨inner, ?_, rfl⟩
  have declared : declareAll (loop.enumerator :: loop.plan.locals) before.enter = _ :=
    declareAll_apply _
  rw [Work.failing_bind_of_ok declared] at inside ⊢
  obtain ⟨acquired, middle, got, inside⟩ | ⟨interrupt, got, rfl⟩ :=
    Work.failing_bind_eq_ok.mp inside
  case inr => exact Work.failing_bind_of_error (acquires _ _ _ got)
  rw [Work.failing_bind_of_ok (acquires _ _ _ got)]
  obtain ⟨⟨⟩, filled, written, inside⟩ | ⟨interrupt, written, rfl⟩ :=
    Work.failing_bind_eq_ok.mp inside
  case inr => exact Work.failing_bind_of_error written
  rw [Work.failing_bind_of_ok written]
  obtain ⟨⟨⟩, prepared, ran, inside⟩ | ⟨interrupt, ran, rfl⟩ := Work.failing_bind_eq_ok.mp inside
  case inr => exact Work.failing_bind_of_error (follows_runEach evaluates _ _ _ _ ran).1
  obtain ⟨otherRan, kept, -⟩ := follows_runEach evaluates _ _ _ _ ran
  rw [Work.failing_bind_of_ok otherRan]
  have assigned : prepared.environment.HasValue loop.enumerator := by
    apply hasValue_of_keeps_lasting kept
    exact ⟨acquired, lookup_of_write written⟩
  obtain ⟨last, enumeratedTo, enumerated, inside⟩ | ⟨interrupt, enumerated, rfl⟩ :=
    Work.failing_bind_eq_ok.mp inside
  case inr => exact Work.failing_bind_of_error (mains _ _ _ assigned enumerated)
  rw [Work.failing_bind_of_ok (mains _ _ _ assigned enumerated)]
  cases answer : loop.plan.result with
  | none =>
    rw [answer] at inside
    exact inside
  | some statement =>
    rw [answer] at inside
    exact (evaluates statement _ _ _ inside).1

/-- Statements in the middle of a list of statements only matter by what they do. -/
theorem runAll_append_cons (evaluate : NodeId → Evaluation Value) (last : Value)
    (earlier : List NodeId) (statement : NodeId) (later : List NodeId) :
    runAll evaluate last (earlier ++ statement :: later) =
      runEach evaluate earlier >>= fun _ =>
        evaluate statement >>= fun value => runAll evaluate value later := by
  induction earlier generalizing last with
  | nil => rfl
  | cons next rest ih =>
    have unfolded : runEach evaluate (next :: rest) =
        (evaluate next >>= fun _ => pure PUnit.unit) >>= fun _ => runEach evaluate rest := rfl
    rw [unfolded, bind_assoc, bind_assoc, List.cons_append, runAll]
    congr 1
    funext value
    rw [ih]
    rfl

/-- The block of a lowered loop is evaluated part by part. -/
theorem evaluate_block (form : nodes.Form program.arena block loop) (bound : Nat) :
    program.evaluate (bound + 3) block =
      program.enumeration loop (program.acquire loop bound) (program.evaluate (bound + 2))
        (program.evaluate (bound + 2) nodes.guarded) := by
  obtain ⟨locals, statements, known, heldLocals, heldStatements⟩ := form.block
  have start : program.evaluate (bound + 2) nodes.start = do
      let value ← program.acquire loop bound
      program.write loop.enumerator value
      return value := by
    rw [evaluate_of_kind form.start, evaluateNode, evaluate_call form.acquired]
    rfl
  rw [evaluate_of_kind known, evaluateNode, heldLocals.list, heldStatements.list, enumeration]
  congr 2
  funext _
  rw [List.cons_append, runAll, start, bind_assoc]
  congr 1
  funext acquired
  rw [bind_assoc]
  congr 1
  funext _
  rw [pure_bind, runAll_append_cons]
  congr 2
  funext _
  congr 1
  funext last
  cases loop.plan.result with
  | none => rfl
  | some statement => exact bind_pure _

/-- The block of a loop that ends, ends as the loop means. -/
theorem meaning_of_block (form : nodes.Form program.arena block loop)
    (unassigned : program.arena.NeverAssigns loop.body loop.enumerator)
    (unbroken : program.arena.NeverBreaks loop.body loop.exit) {bound : Nat}
    (ended : program.evaluate bound block before = .ok (result, after)) :
    program.meaning loop (bound + 2) before = .ok (result, after) := by
  have larger := evaluate_mono (show bound ≤ bound + 3 by omega) ended
  rw [evaluate_block form] at larger
  refine enumeration_refines (fun _ _ _ => then_mono (by omega)) (fun id => ?_) ?_ larger
  · exact evaluate_follows (Nat.le_refl _) (allows_lasting program.arena id)
  · intro _ _ _ assigned guarded
    exact enumerate_of_guarded form unassigned unbroken (Nat.le_refl _) assigned guarded

/-- What a loop means is how its block ends, within a bound that is larger by six. -/
theorem block_of_meaning (form : nodes.Form program.arena block loop)
    (unassigned : program.arena.NeverAssigns loop.body loop.enumerator)
    (unbroken : program.arena.NeverBreaks loop.body loop.exit) {bound : Nat}
    (ended : program.meaning loop bound before = .ok (result, after)) :
    program.evaluate (bound + 6) block before = .ok (result, after) := by
  rw [evaluate_block form (bound + 3)]
  refine enumeration_refines (fun _ _ _ => then_mono (by omega)) (fun id => ?_) ?_ ended
  · exact evaluate_follows (by omega) (allows_lasting program.arena id)
  · intro _ _ _ assigned enumerated
    exact guarded_of_enumerate form unassigned unbroken assigned enumerated

/-- A preamble that never assigns the enumerator leaves it as it was got. -/
theorem read_of_preamble {enumerator : NodeId} {preamble : List NodeId} {acquired : Value}
    {bound : Nat} {middle : Machine}
    (unassigned : ∀ statement ∈ preamble, program.arena.NeverAssigns statement enumerator)
    (written : program.write enumerator acquired before = .ok (.ok (), middle))
    (ran : runEach (program.evaluate bound) preamble middle = .ok (.ok (), after)) :
    program.read enumerator after = .ok (.ok acquired, after) := by
  have holds := lookup_of_write written
  clear written
  apply read_of_lookup
  induction preamble generalizing middle with
  | nil =>
    cases ran
    exact holds
  | cons statement rest ih =>
    obtain ⟨⟨⟩, further, first, ran⟩ | ⟨_, -, absurd⟩ := Work.failing_bind_eq_ok.mp ran
    case inr => cases absurd
    obtain ⟨value, _, evaluated, same⟩ | ⟨_, -, absurd⟩ := Work.failing_bind_eq_ok.mp first
    case inr => cases absurd
    cases same
    refine ih (fun other listed => unassigned other (by simp [listed])) ran ?_
    rw [lookup_of_evaluate (unassigned statement (by simp)) evaluated, holds]

/-- A loop over the items of an enumerable means what its block does. Whatever the enumerable, the
plan, the body and the native bodies: if the body never assigns the enumerator and never breaks to
the label of the loop, the block ends exactly where and how the loop ends. The enumerator that the
loop goes on with is what `GetEnumerator` answered, unless the preamble assigns the variable
itself. -/
theorem foreachLoop_meaning {registry : Registry} {policy : Policy} {enumerable : NodeId}
    {plan : LoopPlan} {body : LoopBinding → Construction NodeId} {arena built : Arena}
    (adds : ∀ binding, (body binding).OnlyAdds)
    (lowered : Construction.foreachLoop registry policy enumerable plan body arena =
      .ok (.ok block, built))
    (grown : program.arena.Extends built) :
    ∃ loop : ForeachLoop, loop.enumerable = enumerable ∧ loop.plan = plan ∧
      loop.BuiltFrom registry policy body arena built ∧
      (program.arena.NeverAssigns loop.body loop.enumerator →
        program.arena.NeverBreaks loop.body loop.exit → ∀ before result after,
          (∃ bound, program.evaluate bound block before = .ok (result, after)) ↔
            ∃ bound, program.meaning loop bound before = .ok (result, after)) ∧
      ((∀ statement ∈ plan.preamble, program.arena.NeverAssigns statement loop.enumerator) →
        ∀ bound acquired before middle after,
          program.write loop.enumerator acquired before = .ok (.ok (), middle) →
          runEach (program.evaluate bound) plan.preamble middle = .ok (.ok (), after) →
          program.read loop.enumerator after = .ok (.ok acquired, after)) := by
  obtain ⟨-, loop, nodes, same, planned, origin, formed⟩ :=
    Construction.foreachLoop_adds adds lowered
  have form : nodes.Form program.arena block loop := formed.extend grown
  refine ⟨loop, same, planned, origin, ?_, ?_⟩
  · intro unassigned unbroken before result after
    constructor
    · rintro ⟨bound, ended⟩
      exact ⟨bound + 2, meaning_of_block form unassigned unbroken ended⟩
    · rintro ⟨bound, ended⟩
      exact ⟨bound + 6, block_of_meaning form unassigned unbroken ended⟩
  · intro unassigned bound acquired before middle after written ran
    exact read_of_preamble unassigned written ran

/-- An arena with a parameter that holds a generic enumerable. -/
def itemsArena : Arena := ⟨#[⟨.parameter "items", .genericEnumerable⟩], #[], 0⟩

/-- Count in a field of an object, and give what was there. -/
def countIn (field : Nat) : NativeBody := fun receiver _ => do
  let object ← HeapAction.given receiver.asObject
  let count ← HeapAction.intField object field
  HeapAction.setField object field (.int (count + 1))
  return .int count

/-- Count down in the first field of an object, and say whether it was not 0. -/
def countDown : NativeBody := fun receiver _ => do
  let object ← HeapAction.given receiver.asObject
  let left ← HeapAction.intField object 0
  if left = 0 then return .bool false
  else
    HeapAction.setField object 0 (.int (left - 1))
    return .bool true

/-- An enumerable is its own enumerator: it counts how many items are left, how many were read, and
how often it was disposed of. -/
def itemsNatives : Natives :=
  ⟨[(⟨7⟩, fun receiver _ => return receiver), (⟨2⟩, countDown), (⟨6⟩, countIn 1), (⟨0⟩, countIn 2)]⟩

/-- A machine whose parameter holds such an enumerable. -/
def itemsMachine (left read disposed : Int64) : Machine where
  environment := ⟨[(⟨0⟩, some (.object ⟨0⟩))], []⟩
  heap := ⟨#[⟨.genericEnumerable, [.int left, .int read, .int disposed]⟩], #[]⟩

/-- The loop over a parameter that reads the items means what its block does. Over two items it
reads two, and disposes once. -/
theorem itemsLoop_meaning :
    ∃ block built, Construction.foreachLoop .initial {} ⟨0⟩ {} (Construction.currentItem .initial)
        itemsArena = .ok (.ok block, built) ∧
      ∃ loop : ForeachLoop,
        loop.BuiltFrom .initial {} (Construction.currentItem .initial) itemsArena built ∧
        (∀ before result after,
          (∃ bound, evaluate ⟨.initial, built, itemsNatives⟩ bound block before =
              .ok (result, after)) ↔
            ∃ bound, meaning ⟨.initial, built, itemsNatives⟩ loop bound before =
              .ok (result, after)) ∧
        ∃ bound, meaning ⟨.initial, built, itemsNatives⟩ loop bound (itemsMachine 2 0 0) =
          .ok (.ok .void, itemsMachine 0 2 1) := by
  have accepted : (match Construction.foreachLoop .initial {} ⟨0⟩ {}
      (Construction.currentItem .initial) itemsArena with
    | .ok (.ok block, built) =>
      decide (evaluate ⟨.initial, built, itemsNatives⟩ 16 block (itemsMachine 2 0 0) =
        .ok (.ok .void, itemsMachine 0 2 1))
    | _ => false) = true := by decide +kernel
  split at accepted
  case h_2 => cases accepted
  case h_1 block built lowered =>
    have adds : ∀ binding : LoopBinding,
        Construction.OnlyAdds (Construction.currentItem .initial binding) :=
      fun _ _ _ _ ended => (Construction.property_adds ended).1
    have same : (Program.mk .initial built itemsNatives).arena.Extends built := .refl built
    obtain ⟨loop, -, -, origin, means, -⟩ := foreachLoop_meaning adds lowered same
    obtain ⟨opened, started, filled, starts, holder, bodyBuilt, kept, -⟩ := origin.body
    obtain ⟨-, -, -, -, variableKnown, -⟩ := Construction.startLoop_adds starts
    obtain ⟨readGrown, read⟩ := Construction.property_adds bodyBuilt
    have isRead : built.kind loop.body = _ := kept.kind read
    have isHolder : built.kind opened.binding.enumerator = .ok (.var "enumerator") :=
      (kept.trans readGrown).kind variableKnown
    -- The body consists of the read property and the variable.
    have parts {id : NodeId} {kind : NodeKind} (reached : built.Reaches loop.body id)
        (known : built.kind id = .ok kind) :
        kind = .property opened.binding.enumerator opened.binding.current ∨
          kind = .var "enumerator" := by
      cases reached with
      | refl =>
        cases isRead.symm.trans known
        exact .inl rfl
      | child found listed reached =>
        cases isRead.symm.trans found
        obtain rfl := List.mem_singleton.mp listed
        obtain rfl := reached.of_leaf isHolder rfl
        cases isHolder.symm.trans known
        exact .inr rfl
    have meaning_iff := means
      (fun id kind reached known => by
        obtain rfl | rfl := parts reached known <;> exact nofun)
      (fun id reached known => by
        obtain same | same := parts reached known <;> cases same)
    exact ⟨block, built, lowered, loop, origin, meaning_iff,
      (meaning_iff _ _ _).mp ⟨16, of_decide_eq_true accepted⟩⟩

end Program

end Foreach
