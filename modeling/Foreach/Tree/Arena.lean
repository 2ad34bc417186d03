import Foreach.Handle

/-!
# Program trees

The nodes of program trees live in an arena and refer to one another by handle; a list of nodes is
a stretch of a second table. Both tables only grow. Every node has the type of its value.

A binding, that is a parameter or a variable, is a node of its own, and every mention of it is the
same handle: two variables of one name are still two variables.
-/
namespace Foreach

/-- What a node of a program tree is. -/
inductive NodeKind where
  /-- A parameter of a function. -/
  | parameter (name : String)
  /-- A variable of a block. -/
  | var (name : String)
  /-- An integer. -/
  | int (value : Int64)
  /-- A truth value. -/
  | bool (value : Bool)
  /-- The null reference. -/
  | null
  /-- A binding gets a value. -/
  | assign (target value : NodeId)
  /-- A value is added to a binding. -/
  | addAssign (target value : NodeId)
  /-- A method is called. -/
  | call (receiver : NodeId) (method : MemberId) (arguments : ListRange)
  /-- A property is read. -/
  | property (receiver : NodeId) (property : MemberId)
  /-- A value is taken as one of the node's type. -/
  | convert (operand : NodeId)
  /-- Two values are compared. -/
  | notEqual (left right : NodeId)
  /-- Statements run in order, with variables of their own. -/
  | block (locals statements : ListRange)
  /-- A statement runs under a condition. -/
  | ifThen (condition consequence : NodeId)
  /-- One of two statements runs. -/
  | ifThenElse (condition consequence alternative : NodeId)
  /-- A statement runs until a break to the label. -/
  | loop (body : NodeId) (exit : Label)
  /-- The loop of the label ends. -/
  | breakTo (label : Label)
  /-- A statement runs, and after it another however the first one ends. -/
  | tryFinally (body cleanup : NodeId)
  /-- A function of parameters. -/
  | lambda (parameters : ListRange) (body : NodeId)
deriving DecidableEq

namespace NodeKind

/-- The name of a binding. -/
def bindingName? : NodeKind → Option String
  | parameter name | var name => some name
  | _ => none

/-- Whether a node is a parameter or a variable. -/
def isBinding (kind : NodeKind) : Bool := kind.bindingName?.isSome

/-- Whether a node is a parameter. -/
def isParameter : NodeKind → Bool
  | parameter _ => true
  | _ => false

/-- Whether a node is a variable. -/
def isVariable : NodeKind → Bool
  | var _ => true
  | _ => false

end NodeKind

/-- A node of a program tree. -/
structure Node where
  /-- What the node is. -/
  kind : NodeKind
  /-- The type of its value. -/
  type : TypeId
deriving DecidableEq

/-- The tables of nodes and of node lists. -/
structure Arena where
  /-- The nodes, each at its handle. -/
  nodes : Array Node
  /-- The elements of all lists. -/
  lists : Array NodeId
  /-- The number of labels made so far. -/
  labels : Nat
deriving DecidableEq

namespace Arena

/-- The arena without nodes. -/
def empty : Arena := ⟨#[], #[], 0⟩

/-- The largest number of elements of one list. -/
def maxListLength : Nat := 65535

/-- The number of nodes. -/
def size (arena : Arena) : Nat := arena.nodes.size

/-- The node of a handle, if there is one. -/
def node? (arena : Arena) (id : NodeId) : Option Node := arena.nodes[id.index]?

/-- The node of a handle. -/
def node (arena : Arena) (id : NodeId) : Checked Node := Checked.ofOption (arena.node? id)

/-- What the node of a handle is. -/
def kind (arena : Arena) (id : NodeId) : Checked NodeKind := return (← arena.node id).kind

/-- The type of the node of a handle. -/
def typeOf (arena : Arena) (id : NodeId) : Checked TypeId := return (← arena.node id).type

/-- The elements of a stretch of the table of lists. -/
def list (arena : Arena) (range : ListRange) : List NodeId :=
  (arena.lists.extract range.start (range.start + range.length)).toList

/-- Add a node; its handle is the next free position. -/
def push (arena : Arena) (node : Node) : Arena × NodeId :=
  ({ arena with nodes := arena.nodes.push node }, ⟨arena.nodes.size⟩)

/-- Store a list. The empty list takes no place, and no list is longer than the limit. -/
def pushList (arena : Arena) (ids : List NodeId) : Checked (Arena × ListRange) :=
  if ids.isEmpty then .ok (arena, .empty)
  else if ids.length ≤ maxListLength then
    .ok ({ arena with lists := arena.lists ++ ids }, ⟨arena.lists.size, ids.length⟩)
  else .error .violation

/-- Make a label that no loop has. -/
def freshLabel (arena : Arena) : Arena × Label :=
  ({ arena with labels := arena.labels + 1 }, ⟨arena.labels⟩)

/-- The names of all bindings. -/
def names (arena : Arena) : List String :=
  arena.nodes.toList.filterMap fun node => node.kind.bindingName?

/-- A node that was added is found at its handle. -/
@[simp] theorem node?_push_self (arena : Arena) (node : Node) :
    (arena.push node).1.node? (arena.push node).2 = some node := by
  simp [push, node?]

/-- Adding a node leaves the nodes before it. -/
theorem node?_push_of_lt (arena : Arena) (node : Node) {id : NodeId}
    (present : id.index < arena.size) : (arena.push node).1.node? id = arena.node? id := by
  simp only [push, node?]
  exact Array.getElem?_push_lt present |>.trans (Array.getElem?_eq_getElem present).symm

/-- A stored list is read back from its stretch. -/
theorem list_of_pushList {arena after : Arena} {ids : List NodeId} {range : ListRange}
    (stored : arena.pushList ids = .ok (after, range)) : after.list range = ids := by
  unfold pushList at stored
  split at stored
  case isTrue isNone =>
    cases stored
    simp_all [list, ListRange.empty]
  case isFalse =>
    split at stored
    case isTrue =>
      cases stored
      simp [list]
    case isFalse => cases stored

end Arena

end Foreach
