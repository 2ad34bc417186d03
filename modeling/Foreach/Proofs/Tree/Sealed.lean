import Foreach.Proofs.Tree.Reach

/-!
# Trees that no break gets out of

A tree is sealed if every way down from its root to a break passes a loop that owns the label of the
break. A node that is not a break seals its tree if its parts are sealed (`Sealed.node`), and a loop
may have breaks of its own label among its parts as well (`Sealed.whileLoop`).
-/
namespace Foreach.Arena

variable {arena : Arena}

/-- A way down a tree from one node to another, by the nodes on it, both ends included. -/
inductive Descends (arena : Arena) : NodeId → List NodeId → NodeId → Prop where
  /-- The way from a node to itself. -/
  | here (id : NodeId) : Descends arena id [id] id
  /-- A way that begins with a step to a child. -/
  | down {parent child id : NodeId} {kind : NodeKind} {path : List NodeId}
    (known : arena.kind parent = .ok kind) (listed : child ∈ arena.children kind)
    (further : Descends arena child path id) : Descends arena parent (parent :: path) id

/-- A node is a loop that a break to the label ends. -/
def Owns (arena : Arena) (loop : NodeId) (label : Label) : Prop :=
  ∃ body, arena.kind loop = .ok (.loop body label)

/-- Every way down a tree to a break passes a loop that owns the label of the break. -/
def Sealed (arena : Arena) (root : NodeId) : Prop :=
  ∀ path id label, arena.Descends root path id → arena.kind id = .ok (.breakTo label) →
    ∃ loop ∈ path, arena.Owns loop label

/-- A loop keeps its label. -/
theorem Owns.extend {later : Arena} {loop : NodeId} {label : Label} (owns : arena.Owns loop label)
    (grown : later.Extends arena) : later.Owns loop label :=
  owns.imp fun _ => grown.kind

/-- What there is a way down to is reached. -/
theorem Descends.reaches {root id : NodeId} {path : List NodeId}
    (descends : arena.Descends root path id) : arena.Reaches root id := by
  induction descends with
  | here id => exact .refl id
  | down known listed _ ih => exact .child known listed ih

/-- A tree without breaks is sealed. -/
theorem sealed_of_neverBreaks {root : NodeId} (free : ∀ label, arena.NeverBreaks root label) :
    arena.Sealed root :=
  fun _ id label descends isBreak => absurd isBreak (free label id descends.reaches)

/-- A node that is not a break seals its tree if its parts are sealed. -/
theorem Sealed.node {root : NodeId} {kind : NodeKind} (known : arena.kind root = .ok kind)
    (noBreak : ∀ label, kind ≠ .breakTo label)
    (parts : ∀ child ∈ arena.children kind, arena.Sealed child) : arena.Sealed root := by
  intro path id label descends isBreak
  cases descends with
  | here =>
    rw [known] at isBreak
    exact absurd (Except.ok.inj isBreak) (noBreak label)
  | down found listed further =>
    rw [known] at found
    cases found
    obtain ⟨loop, passed, owns⟩ := parts _ listed _ id label further isBreak
    exact ⟨loop, List.mem_cons_of_mem _ passed, owns⟩

/-- The parts of a sealed node that is no loop are sealed. -/
theorem Sealed.part {root child : NodeId} {kind : NodeKind} (whole : arena.Sealed root)
    (known : arena.kind root = .ok kind) (noLoop : ∀ body label, kind ≠ .loop body label)
    (listed : child ∈ arena.children kind) : arena.Sealed child := by
  intro path id label descends isBreak
  obtain ⟨loop, passed, body, loops⟩ := whole _ id label (.down known listed descends) isBreak
  obtain rfl | further := List.mem_cons.mp passed
  · rw [known] at loops
    exact absurd (Except.ok.inj loops) (noLoop body label)
  · exact ⟨loop, further, body, loops⟩

/-- A node without parts that is not a break is sealed. -/
theorem Sealed.leaf {id : NodeId} {kind : NodeKind} (known : arena.kind id = .ok kind)
    (noParts : arena.children kind = []) (noBreak : ∀ label, kind ≠ .breakTo label) :
    arena.Sealed id :=
  .node known noBreak fun child listed => by
    rw [noParts] at listed
    cases listed

/-- A loop that either runs its body or breaks to its own label is sealed if its condition and its
body are. -/
theorem Sealed.whileLoop {looped step condition body exit : NodeId} {label : Label}
    (loops : arena.kind looped = .ok (.loop step label))
    (steps : arena.kind step = .ok (.ifThenElse condition body exit))
    (leaves : arena.kind exit = .ok (.breakTo label)) (tested : arena.Sealed condition)
    (repeated : arena.Sealed body) : arena.Sealed looped := by
  intro path id other descends isBreak
  have through : ∀ child rest, arena.Sealed child → arena.Descends child rest id →
      ∃ loop ∈ looped :: step :: rest, arena.Owns loop other := fun child rest inside way => by
    obtain ⟨loop, passed, owns⟩ := inside rest id other way isBreak
    exact ⟨loop, List.mem_cons_of_mem _ (List.mem_cons_of_mem _ passed), owns⟩
  cases descends with
  | here =>
    rw [loops] at isBreak
    cases isBreak
  | down found listed further =>
    rw [loops] at found
    cases found
    obtain rfl := List.mem_singleton.mp listed
    cases further with
    | here =>
      rw [steps] at isBreak
      cases isBreak
    | down found listed further =>
      rw [steps] at found
      cases found
      simp only [children, List.mem_cons, List.not_mem_nil, or_false] at listed
      obtain rfl | rfl | rfl := listed
      · exact through _ _ tested further
      · exact through _ _ repeated further
      · obtain rfl := further.reaches.of_leaf leaves rfl
        rw [leaves] at isBreak
        cases isBreak
        exact ⟨looped, List.mem_cons_self .., _, loops⟩

end Foreach.Arena
