import Foreach.Proofs.Tree.Growth

/-!
# What a tree consists of

The nodes that evaluation of a node may get to are the node itself, its children, their children,
and so on (`Arena.Reaches`). Nothing is assumed of how the nodes refer to one another. What a tree
never does is said of all the nodes that its root reaches.
-/
namespace Foreach

/-- The binding that a node gives a value. -/
def NodeKind.target? : NodeKind → Option NodeId
  | assign target _ | addAssign target _ => some target
  | _ => none

namespace Arena

/-- The nodes that a node of a kind is made of. -/
def children (arena : Arena) : NodeKind → List NodeId
  | .parameter _ | .var _ | .int _ | .bool _ | .null | .breakTo _ => []
  | .assign target value | .addAssign target value => [target, value]
  | .call receiver _ arguments => receiver :: arena.list arguments
  | .property receiver _ => [receiver]
  | .convert operand => [operand]
  | .notEqual left right => [left, right]
  | .block locals statements => arena.list locals ++ arena.list statements
  | .ifThen condition consequence => [condition, consequence]
  | .ifThenElse condition consequence alternative => [condition, consequence, alternative]
  | .loop body _ => [body]
  | .tryFinally body cleanup => [body, cleanup]
  | .lambda parameters body => arena.list parameters ++ [body]

/-- The children of every node are older than the node. -/
def ChildrenOlder (arena : Arena) : Prop :=
  ∀ id node, arena.node? id = some node →
    ∀ child ∈ arena.children node.kind, child.index < id.index

/-- One node is another, or is reached from one of its children. -/
inductive Reaches (arena : Arena) : NodeId → NodeId → Prop where
  /-- A node reaches itself. -/
  | refl (id : NodeId) : Reaches arena id id
  /-- A node reaches what its children reach. -/
  | child {parent child id : NodeId} {kind : NodeKind} (known : arena.kind parent = .ok kind)
    (listed : child ∈ arena.children kind) (reached : Reaches arena child id) :
    Reaches arena parent id

/-- What is reached from a reached node is reached. -/
theorem Reaches.trans {arena : Arena} {root middle id : NodeId} (first : arena.Reaches root middle)
    (second : arena.Reaches middle id) : arena.Reaches root id := by
  induction first with
  | refl => exact second
  | child known listed _ ih => exact .child known listed (ih second)

/-- A node without children reaches itself only. -/
theorem Reaches.of_leaf {arena : Arena} {root id : NodeId} {kind : NodeKind}
    (known : arena.kind root = .ok kind) (leaf : arena.children kind = [])
    (reached : arena.Reaches root id) : id = root := by
  cases reached with
  | refl => rfl
  | child found listed _ =>
    rw [known] at found
    cases found
    rw [leaf] at listed
    cases listed

/-- A block of a tree lists a variable. -/
def Lists (arena : Arena) (root binding : NodeId) : Prop :=
  ∃ id locals statements, arena.Reaches root id ∧ arena.kind id = .ok (.block locals statements) ∧
    binding ∈ arena.list locals

/-- What a block of a part lists, a block of the whole lists. -/
theorem Lists.trans {arena : Arena} {root part binding : NodeId} (listed : arena.Lists part binding)
    (reached : arena.Reaches root part) : arena.Lists root binding := by
  obtain ⟨id, locals, statements, further, known, isListed⟩ := listed
  exact ⟨id, locals, statements, reached.trans further, known, isListed⟩

/-- A variable that a block of a tree lists is reached. -/
theorem Lists.reaches {arena : Arena} {root binding : NodeId} (listed : arena.Lists root binding) :
    arena.Reaches root binding := by
  obtain ⟨id, locals, statements, reached, known, isListed⟩ := listed
  exact reached.trans (.child known (List.mem_append_left _ isListed) (.refl _))

/-- No node of a tree assigns to a binding. -/
def NeverAssigns (arena : Arena) (root binding : NodeId) : Prop :=
  ∀ id kind, arena.Reaches root id → arena.kind id = .ok kind → kind.target? ≠ some binding

/-- No node of a tree is a break to a label. -/
def NeverBreaks (arena : Arena) (root : NodeId) (label : Label) : Prop :=
  ∀ id, arena.Reaches root id → arena.kind id ≠ .ok (.breakTo label)

end Arena

end Foreach
