import Foreach.Proofs.Tree.Assembled

/-!
# What a node was made from

A constructor is given the parts of a node, its lists as lists; the arena keeps the lists in a table
of their own. A `Draft` is a node as a constructor is given it. Every constructor adds the one node
that it is asked for, at the end of the arena, and the node is read back as the draft that it was
made from, lists included (`Draft.build_adds`).
-/
namespace Foreach

/-- What a constructor makes a node from. -/
inductive Draft where
  /-- A parameter. -/
  | parameter (name : String) (type : TypeId)
  /-- A variable. -/
  | var (name : String) (type : TypeId)
  /-- An integer. -/
  | int (value : Int64)
  /-- A truth value. -/
  | bool (value : Bool)
  /-- The null reference. -/
  | null (type : TypeId)
  /-- An assignment. -/
  | assign (target value : NodeId)
  /-- An addition to a binding. -/
  | addAssign (target value : NodeId)
  /-- A call. -/
  | call (receiver : NodeId) (method : MemberId) (arguments : List NodeId)
  /-- A read property. -/
  | property (receiver : NodeId) (member : MemberId)
  /-- A conversion. -/
  | convert (operand : NodeId) (type : TypeId)
  /-- A comparison. -/
  | notEqual (left right : NodeId)
  /-- A block. -/
  | block (locals statements : List NodeId)
  /-- A statement under a condition. -/
  | ifThen (condition consequence : NodeId)
  /-- One of two statements. -/
  | ifThenElse (condition consequence alternative : NodeId)
  /-- A loop. -/
  | loop (body : NodeId) (exit : Label)
  /-- The end of a loop. -/
  | breakTo (label : Label)
  /-- A statement with a cleanup. -/
  | tryFinally (body cleanup : NodeId)
  /-- A function. -/
  | lambda (parameters : List NodeId) (body : NodeId)
deriving DecidableEq

namespace Draft

/-- The constructor of a draft. -/
def build (registry : Registry) : Draft → Construction NodeId
  | parameter name type => Construction.parameter name type
  | var name type => Construction.var name type
  | int value => Construction.int value
  | bool value => Construction.bool value
  | null type => Construction.null type
  | assign target value => Construction.assign target value
  | addAssign target value => Construction.addAssign target value
  | call receiver method arguments => Construction.call registry receiver method arguments
  | property receiver member => Construction.property registry receiver member
  | convert operand type => Construction.convert operand type
  | notEqual left right => Construction.notEqual left right
  | block locals statements => Construction.block locals statements
  | ifThen condition consequence => Construction.ifThen condition consequence
  | ifThenElse condition consequence alternative =>
    Construction.ifThenElse condition consequence alternative
  | loop body exit => Construction.loop body exit
  | breakTo label => Construction.breakTo label
  | tryFinally body cleanup => Construction.tryFinally body cleanup
  | lambda parameters body => Construction.lambda parameters body

/-- The nodes that a draft mentions, directly or in a list. -/
def parts : Draft → List NodeId
  | parameter _ _ | var _ _ | int _ | bool _ | null _ | breakTo _ => []
  | assign target value | addAssign target value => [target, value]
  | call receiver _ arguments => receiver :: arguments
  | property receiver _ => [receiver]
  | convert operand _ => [operand]
  | notEqual left right => [left, right]
  | block locals statements => locals ++ statements
  | ifThen condition consequence => [condition, consequence]
  | ifThenElse condition consequence alternative => [condition, consequence, alternative]
  | loop body _ => [body]
  | tryFinally body cleanup => [body, cleanup]
  | lambda parameters body => parameters ++ [body]

end Draft

namespace Arena

/-- The draft that a node reads back as. -/
def draftOf (arena : Arena) (node : Node) : Draft :=
  match node.kind with
  | .parameter name => .parameter name node.type
  | .var name => .var name node.type
  | .int value => .int value
  | .bool value => .bool value
  | .null => .null node.type
  | .assign target value => .assign target value
  | .addAssign target value => .addAssign target value
  | .call receiver method arguments => .call receiver method (arena.list arguments)
  | .property receiver member => .property receiver member
  | .convert operand => .convert operand node.type
  | .notEqual left right => .notEqual left right
  | .block locals statements => .block (arena.list locals) (arena.list statements)
  | .ifThen condition consequence => .ifThen condition consequence
  | .ifThenElse condition consequence alternative => .ifThenElse condition consequence alternative
  | .loop body exit => .loop body exit
  | .breakTo label => .breakTo label
  | .tryFinally body cleanup => .tryFinally body cleanup
  | .lambda parameters body => .lambda (arena.list parameters) body

/-- The children of a node are the parts of what it reads back as. -/
theorem parts_draftOf (arena : Arena) (node : Node) :
    (arena.draftOf node).parts = arena.children node.kind := by
  obtain ⟨kind, type⟩ := node
  cases kind <;> rfl

/-- A stretch of the lists ends where the lists end, or before. -/
def Holds (arena : Arena) (range : ListRange) : Prop :=
  range.start + range.length ≤ arena.lists.size

/-- A node is there as it was drafted: its lists lie inside the table and are those of the draft. -/
structure Records (arena : Arena) (id : NodeId) (draft : Draft) (node : Node) : Prop where
  /-- The node is there. -/
  found : arena.node? id = some node
  /-- It reads back as the draft. -/
  readsBack : arena.draftOf node = draft
  /-- Its lists lie inside the table. -/
  inside : ∀ range ∈ node.kind.ranges, arena.Holds range

/-- One arena has a node more than another, at the end, and the node is as it was drafted. -/
structure Adds (before after : Arena) (id : NodeId) (draft : Draft) : Prop where
  /-- What was there before is there still. -/
  grown : after.Extends before
  /-- The handle is the next free one. -/
  place : id.index = before.size
  /-- No other node was added. -/
  alone : after.size = before.size + 1
  /-- The node is as it was drafted. -/
  records : ∃ node, after.Records id draft node

section Growth

variable {arena later : Arena} (grown : later.Extends arena)
include grown

/-- The table of lists gets no shorter. -/
theorem Extends.holds {range : ListRange} (holds : arena.Holds range) : later.Holds range := by
  obtain ⟨added, lists⟩ := grown.lists
  rw [Holds, lists, Array.size_append]
  exact Nat.le_add_right_of_le holds

/-- A node stays the same. -/
theorem Extends.node?_eq {id : NodeId} (has : arena.Has id) :
    later.node? id = arena.node? id := by
  obtain ⟨added, nodes⟩ := grown.nodes
  rw [node?, node?, nodes, Array.getElem?_append_left has]

/-- A node whose lists lie inside the table goes on reading back as the same draft. -/
theorem Extends.draftOf_eq {node : Node} (inside : ∀ range ∈ node.kind.ranges, arena.Holds range) :
    later.draftOf node = arena.draftOf node := by
  obtain ⟨kind, type⟩ := node
  cases kind with
  | call receiver method arguments =>
    exact congrArg (Draft.call receiver method)
      (grown.list (inside arguments (by simp [NodeKind.ranges])))
  | block locals statements =>
    exact congrArg₂ Draft.block (grown.list (inside locals (by simp [NodeKind.ranges])))
      (grown.list (inside statements (by simp [NodeKind.ranges])))
  | lambda parameters body =>
    exact congrArg (Draft.lambda · body)
      (grown.list (inside parameters (by simp [NodeKind.ranges])))
  | _ => rfl

/-- A node that was recorded stays recorded. -/
theorem Records.extend {id : NodeId} {draft : Draft} {node : Node}
    (records : arena.Records id draft node) : later.Records id draft node where
  found := (grown.node?_eq (has_iff.mpr ⟨node, records.found⟩)).trans records.found
  readsBack := (grown.draftOf_eq records.inside).trans records.readsBack
  inside range isRange := grown.holds (records.inside range isRange)

end Growth

end Arena

namespace Construction

variable {registry : Registry} {before middle after : Arena} {id : NodeId}

/-- A stored list lies inside the table of lists. -/
theorem list_holds {ids : List NodeId} {range : ListRange}
    (stored : list ids before = .ok (range, after)) : after.Holds range :=
  Arena.inside_of_pushList (list_eq_ok.mp stored)

/-- A node that is pushed after its lists were stored is added as it was drafted. -/
theorem push_adds_draft {kind : NodeKind} {type : TypeId} {draft : Draft}
    (pushed : push kind type middle = .ok (id, after)) (grown : middle.Extends before)
    (sameNodes : middle.nodes = before.nodes) (isDraft : middle.draftOf ⟨kind, type⟩ = draft)
    (inside : ∀ range ∈ kind.ranges, middle.Holds range) : before.Adds after id draft := by
  obtain ⟨rfl, rfl⟩ := push_eq_ok.mp pushed
  have sameSize : middle.size = before.size := congrArg Array.size sameNodes
  have further : (middle.push ⟨kind, type⟩).1.Extends middle := (push_adds pushed).1
  constructor
  case grown => exact further.trans grown
  case place => exact sameSize
  case alone => rw [← sameSize, Arena.size, Arena.push, Array.size_push, Arena.size]
  case records =>
    exact ⟨⟨kind, type⟩, Arena.node?_push_self middle _,
      (further.draftOf_eq inside).trans isDraft,
      fun range isRange => further.holds (inside range isRange)⟩

/-- A node without lists is added as it was drafted. -/
theorem push_adds_plain {kind : NodeKind} {type : TypeId} (noRanges : kind.ranges = [])
    (pushed : push kind type before = .ok (id, after)) :
    before.Adds after id (before.draftOf ⟨kind, type⟩) := by
  refine push_adds_draft pushed (.refl before) rfl rfl ?_
  rw [noRanges]
  exact nofun

/-- A call is added as it was drafted. -/
theorem call_adds_draft {receiver : NodeId} {method : MemberId} {arguments : List NodeId}
    (built : call registry receiver method arguments before = .ok (id, after)) :
    before.Adds after id (.call receiver method arguments) := by
  obtain ⟨_, range, middle, -, -, -, stored, pushed⟩ := call_eq_ok.mp built
  obtain ⟨grown, held⟩ := list_adds stored
  refine push_adds_draft pushed grown (list_nodes stored)
    (congrArg (Draft.call receiver method) held.list) ?_
  intro range' isRange
  obtain rfl := List.mem_singleton.mp isRange
  exact list_holds stored

/-- A block is added as it was drafted. -/
theorem block_adds_draft {locals statements : List NodeId}
    (built : block locals statements before = .ok (id, after)) :
    before.Adds after id (.block locals statements) := by
  obtain ⟨-, _, bindings, body, first, second, -, storedLocals, storedStatements, pushed⟩ :=
    block_eq_ok.mp built
  obtain ⟨localsGrown, heldLocals⟩ := list_adds storedLocals
  obtain ⟨statementsGrown, heldStatements⟩ := list_adds storedStatements
  have isLocals : second.list bindings = locals := (heldLocals.extend statementsGrown).list
  refine push_adds_draft pushed (statementsGrown.trans localsGrown)
    ((list_nodes storedStatements).trans (list_nodes storedLocals))
    (congrArg₂ Draft.block isLocals heldStatements.list) ?_
  intro range isRange
  obtain rfl | isOther := List.mem_cons.mp isRange
  · exact statementsGrown.holds (list_holds storedLocals)
  · obtain rfl := List.mem_singleton.mp isOther
    exact list_holds storedStatements

/-- A function is added as it was drafted. -/
theorem lambda_adds_draft {parameters : List NodeId} {body : NodeId}
    (built : lambda parameters body before = .ok (id, after)) :
    before.Adds after id (.lambda parameters body) := by
  obtain ⟨-, _, range, middle, -, stored, pushed⟩ := lambda_eq_ok.mp built
  obtain ⟨grown, held⟩ := list_adds stored
  refine push_adds_draft pushed grown (list_nodes stored)
    (congrArg (Draft.lambda · body) held.list) ?_
  intro range' isRange
  obtain rfl := List.mem_singleton.mp isRange
  exact list_holds stored

/-- An assignment is added as it was drafted, and so is an addition to a binding. -/
theorem assignment_adds_draft {kind : NodeKind} {target : NodeId} {draft : Draft}
    (isDraft : ∀ type, before.draftOf ⟨kind, type⟩ = draft) (noRanges : kind.ranges = [])
    (built : (do
      requireKind NodeKind.isBinding target
      push kind (← typeOf target) : Construction NodeId) before = .ok (id, after)) :
    before.Adds after id draft := by
  obtain ⟨-, type, -, pushed⟩ := assignment_eq_ok.mp built
  exact isDraft type ▸ push_adds_plain noRanges pushed

end Construction

open Construction in
/-- A constructor adds the node that it is asked for, and no other. -/
theorem Draft.build_adds {registry : Registry} {before after : Arena} {id : NodeId} {draft : Draft}
    (built : draft.build registry before = .ok (id, after)) : before.Adds after id draft := by
  cases draft with
  | assign target value => exact assignment_adds_draft (fun _ => rfl) rfl built
  | addAssign target value => exact assignment_adds_draft (fun _ => rfl) rfl built
  | call receiver method arguments => exact call_adds_draft built
  | property receiver member =>
    obtain ⟨_, -, -, pushed⟩ := property_eq_ok.mp built
    exact push_adds_plain rfl pushed
  | block locals statements => exact block_adds_draft built
  | tryFinally body cleanup =>
    obtain ⟨_, -, pushed⟩ := tryFinally_eq_ok.mp built
    exact push_adds_plain rfl pushed
  | lambda parameters body => exact lambda_adds_draft built
  | _ => exact push_adds_plain rfl built

end Foreach
