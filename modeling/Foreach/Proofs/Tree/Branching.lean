import Foreach.Proofs.Tree.Assembled
import Foreach.Proofs.Tree.Sealed

/-!
# Ways down a tree

A tree mentions a binding as often as it likes, but every other node stands at one place: there is
one way down to it (`IsTree`). So at most one part of a node gets to it (`IsTree.same_part`). A
block encloses a binding if every way down to the binding passes the block (`Encloses`); what is
outside of the block and does not get to it has nothing to do with the binding (`Outer.apart`).
-/
namespace Foreach.Arena

variable {arena : Arena} {root id part : NodeId} {kind : NodeKind} {path rest : List NodeId}

/-- Whether a node is a binding. -/
def binds (arena : Arena) (id : NodeId) : Bool :=
  match arena.node? id with
  | some node => node.kind.isBinding
  | none => false

/-- Nothing but bindings is mentioned more than once. -/
structure IsTree (arena : Arena) (root : NodeId) : Prop where
  /-- There is one way down to each node that is no binding. -/
  way : ∀ id path other, arena.binds id = false → arena.Descends root path id →
    arena.Descends root other id → path = other
  /-- Such a node stands at one place among the parts of a node. -/
  place : ∀ id kind, arena.Reaches root id → arena.kind id = .ok kind →
    (arena.children kind).Pairwise fun first second => first = second → arena.binds first = true

/-- Every way down to a binding passes a block. -/
def Encloses (arena : Arena) (root block binding : NodeId) : Prop :=
  ∀ path, arena.Descends root path binding → block ∈ path

/-- There is a way down to a node that does not pass a block before. -/
def Outer (arena : Arena) (root block id : NodeId) : Prop :=
  ∃ path, arena.Descends root path id ∧ (block ∈ path → id = block)

/-- A node is a binding if it is of such a kind. -/
theorem binds_eq (known : arena.kind id = .ok kind) : arena.binds id = kind.isBinding := by
  obtain ⟨node, found, rfl⟩ := kind_eq_ok.mp known
  rw [binds, found]

/-- There is a way down to what is reached. -/
theorem Reaches.exists_descends (reached : arena.Reaches root id) :
    ∃ path, arena.Descends root path id := by
  induction reached with
  | refl id => exact ⟨[id], .here id⟩
  | child known listed _ ih =>
    obtain ⟨path, descends⟩ := ih
    exact ⟨_, .down known listed descends⟩

/-- A way down begins with the root. -/
theorem Descends.head (descends : arena.Descends root path id) : path.head? = some root := by
  cases descends <;> rfl

/-- A way down to a node goes on with a way down from one of its parts. -/
theorem Descends.continue (descends : arena.Descends root path id)
    (known : arena.kind id = .ok kind) (listed : part ∈ arena.children kind) {leaf : NodeId}
    (further : arena.Descends part rest leaf) : arena.Descends root (path ++ rest) leaf := by
  induction descends with
  | here => exact .down known listed further
  | down above isChild _ ih => exact .down above isChild (ih known)

/-- Every node on a way down is reached. -/
theorem Descends.reaches_mem (descends : arena.Descends root path id) {between : NodeId}
    (passed : between ∈ path) : arena.Reaches root between := by
  induction descends with
  | here => exact List.mem_singleton.mp passed ▸ .refl _
  | down known listed _ ih =>
    obtain rfl | isLater := List.mem_cons.mp passed
    · exact .refl _
    · exact .child known listed (ih isLater)

/-- What is reached is no newer. -/
theorem Formed.reaches_le {registry : Registry} (formed : arena.Formed registry)
    (reached : arena.Reaches root id) : id.index ≤ root.index := by
  induction reached with
  | refl => exact Nat.le_refl _
  | child known listed _ ih =>
    obtain ⟨node, found, rfl⟩ := kind_eq_ok.mp known
    exact Nat.le_trans ih (Nat.le_of_lt ((formed _ node found).older _ listed))

/-- A part of a node does not get back to the node. -/
theorem Formed.part_apart {registry : Registry} (formed : arena.Formed registry)
    (known : arena.kind id = .ok kind) (listed : part ∈ arena.children kind) :
    ¬ arena.Reaches part id := by
  intro reached
  obtain ⟨node, found, rfl⟩ := kind_eq_ok.mp known
  have older := (formed id node found).older part listed
  have newer := formed.reaches_le reached
  omega

section Tree

variable (tree : arena.IsTree root)
include tree

/-- At most one part of a node gets to a node that is no binding. -/
theorem IsTree.same_part (reached : arena.Reaches root id) (known : arena.kind id = .ok kind)
    {other target : NodeId} (isPart : part ∈ arena.children kind)
    (isOther : other ∈ arena.children kind) (noBinding : arena.binds target = false)
    (gets : arena.Reaches part target) (getsToo : arena.Reaches other target) : part = other := by
  obtain ⟨path, descends⟩ := reached.exists_descends
  obtain ⟨rest, further⟩ := gets.exists_descends
  obtain ⟨more, furtherToo⟩ := getsToo.exists_descends
  have same := tree.way target _ _ noBinding
    (descends.continue known isPart further) (descends.continue known isOther furtherToo)
  have heads := further.head.symm.trans
    ((congrArg List.head? (List.append_cancel_left same)).trans furtherToo.head)
  exact Option.some.inj heads

/-- Of the parts of a node only one gets to a node that is no binding. -/
theorem IsTree.one_part (reached : arena.Reaches root id) (known : arena.kind id = .ok kind)
    {target : NodeId} (noBinding : arena.binds target = false) :
    (arena.children kind).Pairwise fun first second =>
      ¬ (arena.Reaches first target ∧ arena.Reaches second target) := by
  refine (tree.place id kind reached known).imp_of_mem ?_
  intro first second isFirst isSecond bound both
  have isBinding := bound (tree.same_part reached known isFirst isSecond noBinding both.1 both.2)
  obtain ⟨node, found, isKind⟩ : ∃ node, arena.node? first = some node ∧
      node.kind.isBinding = true := by
    rw [binds] at isBinding
    split at isBinding
    next node found => exact ⟨node, found, isBinding⟩
    next => cases isBinding
  have leaf : arena.children node.kind = [] := by
    cases sort : node.kind <;> rw [sort] at isKind <;> first | rfl | cases isKind
  obtain rfl := both.1.of_leaf (kind_eq_ok.mpr ⟨node, found, rfl⟩) leaf
  exact Bool.false_ne_true (noBinding.symm.trans isBinding)

end Tree

section Enclosed

variable {block binding : NodeId}

/-- The root is outside of a block, or it is the block. -/
theorem Outer.here (arena : Arena) (root block : NodeId) : arena.Outer root block root :=
  ⟨[root], .here root, fun passed => (List.mem_singleton.mp passed).symm⟩

/-- What is outside is reached. -/
theorem Outer.reaches (outer : arena.Outer root block id) : arena.Reaches root id := by
  obtain ⟨path, descends, -⟩ := outer
  exact descends.reaches

/-- A part of a node outside of a block is outside, or it is the block. -/
theorem Outer.down (outer : arena.Outer root block id) (other : id ≠ block)
    (known : arena.kind id = .ok kind) (listed : part ∈ arena.children kind) :
    arena.Outer root block part := by
  obtain ⟨path, descends, before⟩ := outer
  refine ⟨path ++ [part], descends.continue known listed (.here part), fun passed => ?_⟩
  obtain isAbove | isPart := List.mem_append.mp passed
  · exact absurd (before isAbove) other
  · exact (List.mem_singleton.mp isPart).symm

variable (encloses : arena.Encloses root block binding)
include encloses

/-- What is outside of a block and does not get to it does not get to a binding that it encloses. -/
theorem Outer.apart (outer : arena.Outer root block id) (away : ¬ arena.Reaches id block) :
    ¬ arena.Reaches id binding := by
  intro reached
  obtain ⟨path, descends, before⟩ := outer
  have unpassed : block ∉ path := fun passed => away (before passed ▸ .refl _)
  cases reached with
  | refl => exact unpassed (encloses path descends)
  | child known listed reached =>
    obtain ⟨rest, further⟩ := reached.exists_descends
    obtain isAbove | isBelow :=
      List.mem_append.mp (encloses _ (descends.continue known listed further))
    · exact unpassed isAbove
    · exact away (.child known listed (further.reaches_mem isBelow))

/-- A node outside of a block is no binding that the block encloses, and has none among its
parts. -/
theorem Outer.no_part (outer : arena.Outer root block id) (other : id ≠ block)
    (distinct : binding ≠ block) (known : arena.kind id = .ok kind) :
    id ≠ binding ∧ binding ∉ arena.children kind := by
  obtain ⟨path, descends, before⟩ := outer
  have unpassed : block ∉ path := fun passed => other (before passed)
  refine ⟨?_, fun listed => ?_⟩
  · rintro rfl
    exact unpassed (encloses path descends)
  · obtain isAbove | isBelow :=
      List.mem_append.mp (encloses _ (descends.continue known listed (.here binding)))
    · exact unpassed isAbove
    · exact distinct (List.mem_singleton.mp isBelow).symm

end Enclosed

section Ways

/-- All ways down from a node, as far down as a number of steps. -/
def ways (arena : Arena) : Nat → NodeId → List (List NodeId)
  | 0, _ => []
  | depth + 1, id =>
    [id] :: match arena.node? id with
      | some node => (arena.children node.kind).flatMap fun part =>
        (ways arena depth part).map (id :: ·)
      | none => []

/-- A way down has a node. -/
theorem nil_not_mem_ways (depth : Nat) (id : NodeId) : [] ∉ arena.ways depth id := by
  cases depth with
  | zero => exact List.not_mem_nil
  | succ depth =>
    rw [ways]
    split <;> simp

/-- The ways down that are found are those that there are. -/
theorem Formed.descends_iff {registry : Registry} (formed : arena.Formed registry) {depth : Nat}
    (enough : root.index < depth) :
    arena.Descends root path id ↔ path ∈ arena.ways depth root ∧ path.getLast? = some id := by
  induction depth generalizing root path with
  | zero => cases enough
  | succ depth ih =>
    have further {node : Node} (found : arena.node? root = some node) {part : NodeId}
        (isPart : part ∈ arena.children node.kind) (rest : List NodeId) :
        arena.Descends part rest id ↔ rest ∈ arena.ways depth part ∧ rest.getLast? = some id :=
      ih (Nat.lt_of_lt_of_le ((formed root node found).older part isPart)
        (Nat.le_of_lt_succ enough))
    rw [ways, List.mem_cons]
    constructor
    · intro descends
      cases descends with
      | here => exact ⟨.inl rfl, rfl⟩
      | down known isPart below =>
        obtain ⟨node, found, rfl⟩ := kind_eq_ok.mp known
        obtain ⟨isWay, ends⟩ := (further found isPart _).mp below
        refine ⟨.inr ?_, ?_⟩
        · rw [found]
          exact List.mem_flatMap.mpr ⟨_, isPart, List.mem_map.mpr ⟨_, isWay, rfl⟩⟩
        · rw [List.getLast?_cons, ends]
          rfl
    · rintro ⟨rfl | isWay, ends⟩
      · cases ends
        exact .here _
      · split at isWay
        next node found =>
          obtain ⟨part, isPart, isWay⟩ := List.mem_flatMap.mp isWay
          obtain ⟨rest, isRest, rfl⟩ := List.mem_map.mp isWay
          have known : arena.kind root = .ok node.kind := kind_eq_ok.mpr ⟨node, found, rfl⟩
          have ends : rest.getLast? = some id := by
            cases rest with
            | nil => exact absurd isRest (nil_not_mem_ways depth part)
            | cons next more => rwa [List.getLast?_cons_cons] at ends
          exact .down known isPart ((further found isPart rest).mpr ⟨isRest, ends⟩)
        next => cases isWay

/-- Nothing but bindings is mentioned more than once if the ways down say so. -/
theorem Formed.isTree {registry : Registry} (formed : arena.Formed registry) {depth : Nat}
    (enough : root.index < depth)
    (single : ∀ way ∈ arena.ways depth root, ∀ other ∈ arena.ways depth root,
      ∀ id ∈ way.getLast?, other.getLast? = some id → arena.binds id = false → way = other)
    (place : ∀ way ∈ arena.ways depth root, ∀ id ∈ way.getLast?, ∀ node ∈ arena.node? id,
      (arena.children node.kind).Pairwise fun first second =>
        first = second → arena.binds first = true) :
    arena.IsTree root where
  way id path other noBinding descends descendsToo := by
    obtain ⟨isWay, ends⟩ := (formed.descends_iff enough).mp descends
    obtain ⟨isOther, endsToo⟩ := (formed.descends_iff enough).mp descendsToo
    exact single path isWay other isOther id ends endsToo noBinding
  place id kind reached known := by
    obtain ⟨path, descends⟩ := reached.exists_descends
    obtain ⟨isWay, ends⟩ := (formed.descends_iff enough).mp descends
    obtain ⟨node, found, rfl⟩ := kind_eq_ok.mp known
    exact place path isWay id ends node found

end Ways

end Foreach.Arena
