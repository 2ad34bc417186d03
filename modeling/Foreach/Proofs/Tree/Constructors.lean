import Foreach.Proofs.Work
import Foreach.Tree.Construction

/-!
# What constructors insist on and do

A constructor of nodes insists on something, works out a type, stores the lists of its node and adds
the node. For each constructor there is one statement of when it gives a node, and of the lists and
the node that it adds then. All else that is said of constructors is read off these statements.
-/
namespace Foreach

/-- Statements have the type of the last of them. Without statements there is no value. -/
structure Arena.LastTyped (arena : Arena) (statements : List NodeId) (type : TypeId) : Prop where
  /-- The last statement has the type. -/
  last : ∀ node, statements.getLast? = some node → arena.typeOf node = .ok type
  /-- Without a last statement the type is that of no value. -/
  void : statements.getLast? = none → type = .void

/-- Statements have one type only. -/
theorem Arena.LastTyped.unique {arena : Arena} {statements : List NodeId} {type other : TypeId}
    (typed : arena.LastTyped statements type) (also : arena.LastTyped statements other) :
    type = other := by
  cases ends : statements.getLast? with
  | none => exact (typed.void ends).trans (also.void ends).symm
  | some node => exact Except.ok.inj ((typed.last node ends).symm.trans (also.last node ends))

/-- A list is stored behind the lists before it if it is not too long. -/
theorem Arena.pushList_eq_ok {arena after : Arena} {ids : List NodeId} {range : ListRange} :
    arena.pushList ids = .ok (after, range) ↔
      ids.length ≤ maxListLength ∧ after = { arena with lists := arena.lists ++ ids } ∧
        range = if ids.isEmpty then .empty else ⟨arena.lists.size, ids.length⟩ := by
  have nothing : arena.lists ++ ([] : List NodeId) = arena.lists := Array.ext' (by simp)
  unfold pushList
  by_cases isNone : ids.isEmpty = true
  · rw [if_pos isNone, if_pos isNone, Except.ok.injEq, Prod.mk.injEq]
    obtain rfl := List.isEmpty_iff.mp isNone
    rw [nothing]
    exact (and_congr eq_comm eq_comm).trans (and_iff_right (Nat.zero_le _)).symm
  · rw [if_neg isNone, if_neg isNone]
    by_cases fits : ids.length ≤ maxListLength
    · rw [if_pos fits, Except.ok.injEq, Prod.mk.injEq]
      exact (and_congr eq_comm eq_comm).trans (and_iff_right fits).symm
    · rw [if_neg fits]
      exact ⟨nofun, fun stored => absurd stored.1 fits⟩

namespace Construction

variable {before after : Arena} {id : NodeId}

/-- A question leaves the arena. -/
theorem ask_eq_ok {α : Type} {question : Arena → Checked α} {result : α} :
    ask question before = .ok (result, after) ↔ question before = .ok result ∧ before = after :=
  Work.ask_eq_ok

/-- A pushed node gets the next position, and is the only one that is added. -/
theorem push_eq_ok {kind : NodeKind} {type : TypeId} :
    push kind type before = .ok (id, after) ↔
      id = ⟨before.size⟩ ∧ after = (before.push ⟨kind, type⟩).1 := by
  rw [push, Work.modifyGet_eq_ok, Prod.mk.injEq]
  exact and_congr eq_comm eq_comm

/-- A list is stored as the arena stores it. -/
theorem list_eq_ok {ids : List NodeId} {range : ListRange} :
    list ids before = .ok (range, after) ↔ before.pushList ids = .ok (after, range) := by
  rw [list, Work.checked_bind_eq_ok]
  constructor
  · rintro ⟨⟨later, place⟩, stored, ended⟩
    cases ended
    exact stored
  · exact fun stored => ⟨_, stored, rfl⟩

/-- A node passes if it is of the kind that is insisted on, and that leaves the arena. -/
theorem requireKind_eq_ok {test : NodeKind → Bool} {node : NodeId} :
    requireKind test node before = .ok ((), after) ↔
      (∃ kind, before.kind node = .ok kind ∧ test kind = true) ∧ before = after := by
  constructor
  · intro met
    obtain ⟨kind, _, asked, required⟩ := Work.bind_eq_ok.mp met
    obtain ⟨known, rfl⟩ := ask_eq_ok.mp asked
    obtain ⟨passes, rfl⟩ := Work.lift_eq_ok.mp required
    exact ⟨⟨kind, known, Checked.require_eq_ok.mp passes⟩, rfl⟩
  · rintro ⟨⟨kind, known, passes⟩, rfl⟩
    refine Work.bind_eq_ok.mpr ⟨kind, before, ask_eq_ok.mpr ⟨known, rfl⟩, ?_⟩
    exact Work.lift_eq_ok.mpr ⟨Checked.require_eq_ok.mpr passes, rfl⟩

/-- Nodes pass if each of them does. -/
theorem requireKinds_eq_ok {test : NodeKind → Bool} {nodes : List NodeId} :
    nodes.forM (requireKind test) before = .ok ((), after) ↔
      (∀ node ∈ nodes, ∃ kind, before.kind node = .ok kind ∧ test kind = true) ∧
        before = after := by
  induction nodes with
  | nil => exact Work.pure_eq_ok.trans (by simp)
  | cons node rest ih =>
    rw [List.forall_mem_cons]
    constructor
    · intro met
      obtain ⟨⟨⟩, middle, first, others⟩ := Work.bind_eq_ok.mp met
      obtain ⟨passes, rfl⟩ := requireKind_eq_ok.mp first
      obtain ⟨pass, rfl⟩ := ih.mp others
      exact ⟨⟨passes, pass⟩, rfl⟩
    · rintro ⟨⟨passes, pass⟩, rfl⟩
      exact Work.bind_eq_ok.mpr ⟨(), before, requireKind_eq_ok.mpr ⟨passes, rfl⟩,
        ih.mpr ⟨pass, rfl⟩⟩

/-- Reading the type of the last statement leaves the arena. -/
theorem lastType_eq_ok {statements : List NodeId} {type : TypeId} :
    lastType statements before = .ok (type, after) ↔
      before.LastTyped statements type ∧ before = after := by
  unfold lastType
  cases ends : statements.getLast? with
  | none =>
    refine Work.pure_eq_ok.trans (and_congr_left fun _ => ?_)
    exact ⟨fun isVoid => ⟨by simp [ends], fun _ => isVoid.symm⟩,
      fun typed => (typed.void ends).symm⟩
  | some node =>
    refine ask_eq_ok.trans (and_congr_left fun _ => ?_)
    refine ⟨fun typed => ⟨fun other same => ?_, by simp [ends]⟩, fun typed => typed.last node ends⟩
    exact Option.some.inj (ends.symm.trans same) ▸ typed

/-- What is done to a binding is added, with the type of the binding. -/
theorem assignment_eq_ok {kind : NodeKind} {target : NodeId} :
    (do
      requireKind NodeKind.isBinding target
      push kind (← typeOf target) : Construction NodeId) before = .ok (id, after) ↔
      (∃ binding, before.kind target = .ok binding ∧ binding.isBinding = true) ∧
        ∃ type, before.typeOf target = .ok type ∧ push kind type before = .ok (id, after) := by
  constructor
  · intro built
    obtain ⟨⟨⟩, _, required, built⟩ := Work.bind_eq_ok.mp built
    obtain ⟨type, _, asked, pushed⟩ := Work.bind_eq_ok.mp built
    obtain ⟨isBinding, rfl⟩ := requireKind_eq_ok.mp required
    obtain ⟨typed, rfl⟩ := ask_eq_ok.mp asked
    exact ⟨isBinding, type, typed, pushed⟩
  · rintro ⟨isBinding, type, typed, pushed⟩
    exact Work.bind_eq_ok.mpr ⟨(), before, requireKind_eq_ok.mpr ⟨isBinding, rfl⟩,
      Work.bind_eq_ok.mpr ⟨type, before, ask_eq_ok.mpr ⟨typed, rfl⟩, pushed⟩⟩

/-- A call of a method with as many arguments as it has parameters is added, with the type of what
the method gives. -/
theorem call_eq_ok {registry : Registry} {receiver : NodeId} {method : MemberId}
    {arguments : List NodeId} :
    call registry receiver method arguments before = .ok (id, after) ↔
      ∃ entry range middle, registry.member? method = some entry ∧ entry.isMethod = true ∧
        entry.parameters.length = arguments.length ∧
        list arguments before = .ok (range, middle) ∧
        push (.call receiver method range) entry.valueType middle = .ok (id, after) := by
  constructor
  · intro built
    obtain ⟨entry, _, asked, built⟩ := Work.bind_eq_ok.mp built
    obtain ⟨⟨⟩, _, insisted, built⟩ := Work.bind_eq_ok.mp built
    obtain ⟨⟨⟩, _, counted, built⟩ := Work.bind_eq_ok.mp built
    obtain ⟨range, middle, stored, pushed⟩ := Work.bind_eq_ok.mp built
    obtain ⟨known, rfl⟩ := Work.lift_eq_ok.mp asked
    obtain ⟨isMethod, rfl⟩ := Work.lift_eq_ok.mp insisted
    obtain ⟨asMany, rfl⟩ := Work.lift_eq_ok.mp counted
    exact ⟨entry, range, middle, Checked.ofOption_eq_ok.mp known,
      Checked.require_eq_ok.mp isMethod, of_decide_eq_true (Checked.require_eq_ok.mp asMany),
      stored, pushed⟩
  · rintro ⟨entry, range, middle, known, isMethod, asMany, stored, pushed⟩
    refine (Work.lift_bind_of_ok (Checked.ofOption_eq_ok.mpr known)).trans ?_
    refine (Work.lift_bind_of_ok (Checked.require_eq_ok.mpr isMethod)).trans ?_
    refine (Work.lift_bind_of_ok (Checked.require_eq_ok.mpr (decide_eq_true asMany))).trans ?_
    exact Work.bind_eq_ok.mpr ⟨range, middle, stored, pushed⟩

/-- A read property is added, with the type of the property. -/
theorem property_eq_ok {registry : Registry} {receiver : NodeId} {member : MemberId} :
    property registry receiver member before = .ok (id, after) ↔
      ∃ entry, registry.member? member = some entry ∧ entry.isProperty = true ∧
        push (.property receiver member) entry.valueType before = .ok (id, after) := by
  constructor
  · intro built
    obtain ⟨entry, _, asked, built⟩ := Work.bind_eq_ok.mp built
    obtain ⟨⟨⟩, _, insisted, pushed⟩ := Work.bind_eq_ok.mp built
    obtain ⟨known, rfl⟩ := Work.lift_eq_ok.mp asked
    obtain ⟨isProperty, rfl⟩ := Work.lift_eq_ok.mp insisted
    exact ⟨entry, Checked.ofOption_eq_ok.mp known, Checked.require_eq_ok.mp isProperty, pushed⟩
  · rintro ⟨entry, known, isProperty, pushed⟩
    refine (Work.lift_bind_of_ok (Checked.ofOption_eq_ok.mpr known)).trans ?_
    exact (Work.lift_bind_of_ok (Checked.require_eq_ok.mpr isProperty)).trans pushed

/-- A statement with a cleanup is added, with the type of the statement. -/
theorem tryFinally_eq_ok {body cleanup : NodeId} :
    tryFinally body cleanup before = .ok (id, after) ↔
      ∃ type, before.typeOf body = .ok type ∧
        push (.tryFinally body cleanup) type before = .ok (id, after) := by
  constructor
  · intro built
    obtain ⟨type, _, asked, pushed⟩ := Work.bind_eq_ok.mp built
    obtain ⟨typed, rfl⟩ := ask_eq_ok.mp asked
    exact ⟨type, typed, pushed⟩
  · rintro ⟨type, typed, pushed⟩
    exact Work.bind_eq_ok.mpr ⟨type, before, ask_eq_ok.mpr ⟨typed, rfl⟩, pushed⟩

/-- A block of variables and statements is added, with the type of the last statement. -/
theorem block_eq_ok {locals statements : List NodeId} :
    block locals statements before = .ok (id, after) ↔
      (∀ binding ∈ locals, ∃ kind, before.kind binding = .ok kind ∧ kind.isVariable = true) ∧
        ∃ type bindings body middle last, before.LastTyped statements type ∧
          list locals before = .ok (bindings, middle) ∧
          list statements middle = .ok (body, last) ∧
          push (.block bindings body) type last = .ok (id, after) := by
  constructor
  · intro built
    obtain ⟨⟨⟩, _, required, built⟩ := Work.bind_eq_ok.mp built
    obtain ⟨type, _, asked, built⟩ := Work.bind_eq_ok.mp built
    obtain ⟨bindings, middle, storedLocals, built⟩ := Work.bind_eq_ok.mp built
    obtain ⟨body, last, storedStatements, pushed⟩ := Work.bind_eq_ok.mp built
    obtain ⟨areVariables, rfl⟩ := requireKinds_eq_ok.mp required
    obtain ⟨typed, rfl⟩ := lastType_eq_ok.mp asked
    exact ⟨areVariables, type, bindings, body, middle, last, typed, storedLocals,
      storedStatements, pushed⟩
  · rintro ⟨areVariables, type, bindings, body, middle, last, typed, storedLocals,
      storedStatements, pushed⟩
    refine Work.bind_eq_ok.mpr ⟨(), before, requireKinds_eq_ok.mpr ⟨areVariables, rfl⟩, ?_⟩
    refine Work.bind_eq_ok.mpr ⟨type, before, lastType_eq_ok.mpr ⟨typed, rfl⟩, ?_⟩
    refine Work.bind_eq_ok.mpr ⟨bindings, middle, storedLocals, ?_⟩
    exact Work.bind_eq_ok.mpr ⟨body, last, storedStatements, pushed⟩

/-- A function of parameters is added, with the type of its body. -/
theorem lambda_eq_ok {parameters : List NodeId} {body : NodeId} :
    lambda parameters body before = .ok (id, after) ↔
      (∀ parameter ∈ parameters,
          ∃ kind, before.kind parameter = .ok kind ∧ kind.isParameter = true) ∧
        ∃ type range middle, before.typeOf body = .ok type ∧
          list parameters before = .ok (range, middle) ∧
          push (.lambda range body) type middle = .ok (id, after) := by
  constructor
  · intro built
    obtain ⟨⟨⟩, _, required, built⟩ := Work.bind_eq_ok.mp built
    obtain ⟨type, _, asked, built⟩ := Work.bind_eq_ok.mp built
    obtain ⟨range, middle, stored, pushed⟩ := Work.bind_eq_ok.mp built
    obtain ⟨areParameters, rfl⟩ := requireKinds_eq_ok.mp required
    obtain ⟨typed, rfl⟩ := ask_eq_ok.mp asked
    exact ⟨areParameters, type, range, middle, typed, stored, pushed⟩
  · rintro ⟨areParameters, type, range, middle, typed, stored, pushed⟩
    refine Work.bind_eq_ok.mpr ⟨(), before, requireKinds_eq_ok.mpr ⟨areParameters, rfl⟩, ?_⟩
    refine Work.bind_eq_ok.mpr ⟨type, before, ask_eq_ok.mpr ⟨typed, rfl⟩, ?_⟩
    exact Work.bind_eq_ok.mpr ⟨range, middle, stored, pushed⟩

/-- A loop under a condition that is a truth value is added: a break to the next label, the choice
between the body and that break, and the loop of the choice. -/
theorem whileLoop_eq_ok {condition body : NodeId} :
    whileLoop condition body before = .ok (id, after) ↔
      before.typeOf condition = .ok .bool ∧ ∃ exit step left branched,
        push (.breakTo ⟨before.labels⟩) .void before.freshLabel.1 = .ok (exit, left) ∧
        push (.ifThenElse condition body exit) .void left = .ok (step, branched) ∧
        push (.loop step ⟨before.labels⟩) .void branched = .ok (id, after) := by
  constructor
  · intro built
    obtain ⟨type, _, asked, built⟩ := Work.bind_eq_ok.mp built
    obtain ⟨⟨⟩, _, insisted, built⟩ := Work.bind_eq_ok.mp built
    obtain ⟨label, labelled, fresh, built⟩ := Work.bind_eq_ok.mp built
    obtain ⟨exit, left, pushedExit, built⟩ := Work.bind_eq_ok.mp built
    obtain ⟨step, branched, pushedStep, pushedLoop⟩ := Work.bind_eq_ok.mp built
    obtain ⟨typed, rfl⟩ := ask_eq_ok.mp asked
    obtain ⟨isBool, rfl⟩ := Work.lift_eq_ok.mp insisted
    obtain rfl : type = .bool := of_decide_eq_true (Checked.require_eq_ok.mp isBool)
    obtain ⟨rfl, rfl⟩ := Prod.mk.inj (Work.modifyGet_eq_ok.mp fresh)
    exact ⟨typed, exit, step, left, branched, pushedExit, pushedStep, pushedLoop⟩
  · rintro ⟨typed, exit, step, left, branched, pushedExit, pushedStep, pushedLoop⟩
    refine Work.bind_eq_ok.mpr ⟨.bool, before, ask_eq_ok.mpr ⟨typed, rfl⟩, ?_⟩
    refine (Work.lift_bind_of_ok rfl).trans ?_
    refine Work.bind_eq_ok.mpr ⟨⟨before.labels⟩, before.freshLabel.1, rfl, ?_⟩
    refine Work.bind_eq_ok.mpr ⟨exit, left, pushedExit, ?_⟩
    exact Work.bind_eq_ok.mpr ⟨step, branched, pushedStep, pushedLoop⟩

end Construction

end Foreach
