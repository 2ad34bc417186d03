import Foreach.Proofs.Lowering.Assembling

/-!
# What operations leave of an arena

An arena is built by operations: the constructors of nodes, new labels, loops under a condition,
uses of resources, and loops over items, whose body is built by operations of its own
(`Arena.Operations`). What the body of a loop finds there, before the loop is done, counts as built
too. Whatever the operations do, and also where they are refused, they do it node by node, each node
made by a constructor from nodes that are there (`Arena.Operations.oneByOne`).

So a node is younger than its parts, its lists lie inside the table of lists and are the lists that
it was made from (`Arena.Grounded`), and no later operation changes it (`Arena.Preserves`).
-/
namespace Foreach

open Construction

namespace Arena

/-- Constructors and new labels lead from one arena to another, each constructor used on nodes that
are there. -/
inductive OneByOne (first : Arena) : Arena → Prop where
  /-- Nothing is added. -/
  | none : OneByOne first first
  /-- A node is added. -/
  | node {registry : Registry} {before after : Arena} {id : NodeId} {draft : Draft}
    (earlier : OneByOne first before) (parts : ∀ part ∈ draft.parts, before.Has part)
    (built : draft.build registry before = .ok (id, after)) : OneByOne first after
  /-- A label is made. -/
  | label {before : Arena} (earlier : OneByOne first before) : OneByOne first before.freshLabel.1

/-- Operations lead from one arena to another, each used on nodes that are there. -/
inductive Operations : Arena → Arena → Prop where
  /-- Nothing is done. -/
  | none (arena : Arena) : Operations arena arena
  /-- A constructor adds a node. -/
  | node {registry : Registry} {first before after : Arena} {id : NodeId} {draft : Draft}
    (earlier : Operations first before) (parts : ∀ part ∈ draft.parts, before.Has part)
    (ran : draft.build registry before = .ok (id, after)) : Operations first after
  /-- A label is made. -/
  | label {first before : Arena} (earlier : Operations first before) :
    Operations first before.freshLabel.1
  /-- A loop under a condition is built. -/
  | whileLoop {first before after : Arena} {condition body id : NodeId}
    (earlier : Operations first before) (conditionHas : before.Has condition)
    (bodyHas : before.Has body) (ran : whileLoop condition body before = .ok (id, after)) :
    Operations first after
  /-- A resource is used, or it is refused. -/
  | useResource {registry : Registry} {first before after : Arena} {resource body : NodeId}
    {result : Except LoweringError NodeId} (earlier : Operations first before)
    (resourceHas : before.Has resource) (bodyHas : before.Has body)
    (ran : useResource registry resource body before = .ok (result, after)) :
    Operations first after
  /-- A loop over items is built; its body is built by operations too. -/
  | foreachLoop {registry : Registry} {policy : Policy} {first before started filled after : Arena}
    {enumerable step id : NodeId} {plan : LoopPlan} {body : LoopBinding → Construction NodeId}
    {opened : OpenLoop} (earlier : Operations first before)
    (enumerableHas : before.Has enumerable) (planHas : ∀ node ∈ plan.nodes, before.Has node)
    (opens : openLoop registry policy enumerable before = .ok (.ok opened, started))
    (inside : Operations started filled)
    (fills : body opened.binding started = .ok (step, filled)) (stepHas : filled.Has step)
    (ran : foreachLoop registry policy enumerable plan body before = .ok (.ok id, after)) :
    Operations first after
  /-- A loop over items is refused. -/
  | refusedLoop {registry : Registry} {policy : Policy} {first before after : Arena}
    {enumerable : NodeId} {plan : LoopPlan} {body : LoopBinding → Construction NodeId}
    {error : LoweringError} (earlier : Operations first before)
    (enumerableHas : before.Has enumerable)
    (ran : foreachLoop registry policy enumerable plan body before = .ok (.error error, after)) :
    Operations first after
  /-- A loop over items is opened, and its body is about to be built. -/
  | intoLoop {registry : Registry} {policy : Policy} {first before after : Arena}
    {enumerable : NodeId} {opened : OpenLoop} (earlier : Operations first before)
    (enumerableHas : before.Has enumerable)
    (opens : openLoop registry policy enumerable before = .ok (.ok opened, after)) :
    Operations first after
  /-- A loop over items is closed after its body was built, or it is refused there. -/
  | outOfLoop {registry : Registry} {first before after : Arena} {opened : OpenLoop}
    {plan : LoopPlan} {step : NodeId} {result : Except LoweringError NodeId}
    (earlier : Operations first before)
    (enumeratorHas : before.Has opened.binding.enumerator) (startHas : before.Has opened.start)
    (planHas : ∀ node ∈ plan.nodes, before.Has node) (stepHas : before.Has step)
    (closes : closeLoop registry opened plan step before = .ok (result, after)) :
    Operations first after

/-- A node was made by a constructor from nodes that were there, and it reads back as what it was
made from. -/
inductive Made (arena : Arena) (id : NodeId) : Prop where
  /-- The constructor was used between what came before and what came later. -/
  | intro {registry : Registry} {before after : Arena} {draft : Draft} {node : Node}
    (earlier : OneByOne .empty before) (parts : ∀ part ∈ draft.parts, before.Has part)
    (built : draft.build registry before = .ok (id, after)) (later : OneByOne after arena)
    (records : arena.Records id draft node)

/-- Nothing in an arena is about something that is not there yet. -/
structure Grounded (arena : Arena) : Prop where
  /-- The children of a node are older than the node. -/
  older : arena.ChildrenOlder
  /-- The lists of a node lie inside the table of lists. -/
  inside : ∀ id node, arena.node? id = some node → ∀ range ∈ node.kind.ranges, arena.Holds range
  /-- Every node reads back as what it was made from. -/
  made : ∀ id, arena.Has id → arena.Made id

/-- The nodes of one arena are the same in another. -/
structure Preserves (later earlier : Arena) : Prop where
  /-- A node is what it was, and of the same type. -/
  nodes : ∀ id, earlier.Has id → later.node? id = earlier.node? id
  /-- The lists of a node are what they were. -/
  lists : ∀ id node, earlier.node? id = some node →
    ∀ range ∈ node.kind.ranges, later.list range = earlier.list range

section OneByOne

variable {registry : Registry} {first before middle after last : Arena} {id : NodeId}
  {draft : Draft}

/-- Additions go on after additions. -/
theorem OneByOne.trans (earlier : OneByOne first middle) (later : OneByOne middle last) :
    OneByOne first last := by
  induction later with
  | none => exact earlier
  | node _ parts built ih => exact .node ih parts built
  | label _ ih => exact .label ih

/-- What was there stays. -/
theorem OneByOne.grown (additions : OneByOne first last) : last.Extends first := by
  induction additions with
  | none => exact .refl first
  | node _ _ built ih => exact (Draft.build_adds built).grown.trans ih
  | label _ ih => exact (freshLabel_extends _).trans ih

/-- What fills an arena is added node by node. -/
theorem Fills.oneByOne (fills : Fills registry first last) : OneByOne first last := by
  induction fills with
  | none => exact .none
  | node _ parts _ built ih => exact .node ih parts built
  | label _ ih => exact .label ih

/-- One more constructor leads on, and its node is there. -/
theorem oneByOne_of_build (registry : Registry) (draft : Draft)
    (parts : ∀ part ∈ draft.parts, before.Has part)
    (built : draft.build registry before = .ok (id, after)) :
    OneByOne before after ∧ after.Has id :=
  ⟨.node .none parts built, (Draft.build_adds built).has⟩

/-- Every node of an arena that was filled node by node was made. -/
theorem OneByOne.made (additions : OneByOne .empty last) (has : last.Has id) : last.Made id := by
  -- The induction is on the additions: a node is the last one added or was made before.
  induction additions with
  | none => cases has
  | @node registry before after new draft earlier parts built ih =>
    have adds := Draft.build_adds built
    by_cases isNew : id.index = before.size
    · obtain rfl : id = new := congrArg NodeId.mk (isNew.trans adds.place.symm)
      obtain ⟨node, records⟩ := adds.records
      exact .intro earlier parts built .none records
    · have inBefore : before.Has id := by
        rw [Has, adds.alone] at has
        exact Nat.lt_of_le_of_ne (Nat.le_of_lt_succ has) isNew
      obtain ⟨earlierToo, partsToo, builtToo, later, records⟩ := ih inBefore
      exact .intro earlierToo partsToo builtToo (.node later parts built)
        (records.extend adds.grown)
  | label earlier ih =>
    obtain ⟨earlierToo, partsToo, builtToo, later, records⟩ := ih has
    exact .intro earlierToo partsToo builtToo (.label later)
      (records.extend (freshLabel_extends _))

/-- What is made of older nodes is younger than its children. -/
theorem Made.older {node : Node} (made : last.Made id) (found : last.node? id = some node) :
    ∀ child ∈ last.children node.kind, child.index < id.index := by
  obtain ⟨-, parts, built, -, records⟩ := made
  cases found.symm.trans records.found
  intro child isChild
  rw [← parts_draftOf, records.readsBack] at isChild
  rw [(Draft.build_adds built).place]
  exact parts child isChild

/-- An arena that was filled node by node is grounded. -/
theorem OneByOne.grounded (additions : OneByOne .empty last) : last.Grounded where
  older id node found := (additions.made (has_iff.mpr ⟨node, found⟩)).older found
  inside id node found := by
    obtain ⟨-, -, -, -, records⟩ := additions.made (has_iff.mpr ⟨node, found⟩)
    cases found.symm.trans records.found
    exact records.inside
  made id has := additions.made has

/-- Additions to a grounded arena change nothing in it. -/
theorem Grounded.preserves (grounded : first.Grounded) (grown : last.Extends first) :
    last.Preserves first where
  nodes _ has := grown.node?_eq has
  lists id node found range isRange := grown.list (grounded.inside id node found range isRange)

end OneByOne

/-- A loop over items is built node by node if its body is. -/
theorem foreachLoop_oneByOne {registry : Registry} {policy : Policy} {before started filled after :
    Arena} {enumerable step id : NodeId} {plan : LoopPlan} {opened : OpenLoop}
    {body : LoopBinding → Construction NodeId} (enumerableHas : before.Has enumerable)
    (planHas : ∀ node ∈ plan.nodes, before.Has node)
    (opens : openLoop registry policy enumerable before = .ok (.ok opened, started))
    (inside : OneByOne started filled)
    (fills : body opened.binding started = .ok (step, filled)) (stepHas : filled.Has step)
    (ran : foreachLoop registry policy enumerable plan body before = .ok (.ok id, after)) :
    OneByOne before after ∧ after.Has id := by
  obtain ⟨_, _, _, _, opensToo, fillsToo, closes⟩ := foreachLoop_eq_ok.mp ran
  cases opens.symm.trans opensToo
  cases fills.symm.trans fillsToo
  obtain ⟨opening, enumeratorHas, startHas⟩ := openLoop_fills enumerableHas opens
  have so := opening.oneByOne.trans inside
  obtain ⟨closing, blockHas⟩ := closeLoop_fills (inside.grown.has enumeratorHas)
    (inside.grown.has startHas) (fun node isListed => so.grown.has (planHas node isListed))
    stepHas closes
  exact ⟨so.trans closing.oneByOne, blockHas⟩

/-- Whatever operations do, they do it node by node. -/
theorem Operations.oneByOne {first last : Arena} (operations : Operations first last) :
    OneByOne first last := by
  induction operations with
  | none => exact .none
  | node _ parts ran ih => exact .node ih parts ran
  | label _ ih => exact .label ih
  | whileLoop _ conditionHas bodyHas ran ih =>
    exact ih.trans (whileLoop_fills .initial conditionHas bodyHas ran).1.oneByOne
  | useResource _ resourceHas bodyHas ran ih =>
    exact ih.trans (useResource_fills resourceHas bodyHas ran).oneByOne
  | foreachLoop _ enumerableHas planHas opens _ fills stepHas ran ih ihInside =>
    exact ih.trans
      (foreachLoop_oneByOne enumerableHas planHas opens ihInside fills stepHas ran).1
  | refusedLoop _ _ ran ih =>
    obtain ⟨_, -, -, rfl⟩ := foreachLoop_eq_error.mp ran
    exact ih
  | intoLoop _ enumerableHas opens ih =>
    exact ih.trans (openLoop_fills enumerableHas opens).1.oneByOne
  | @outOfLoop _ _ _ _ _ _ _ result _ enumeratorHas startHas planHas stepHas closes ih =>
    cases result with
    | error error =>
      exact ih.trans (closeLoop_fills_of_error enumeratorHas stepHas closes).oneByOne
    | ok id =>
      exact ih.trans (closeLoop_fills enumeratorHas startHas planHas stepHas closes).1.oneByOne

end Arena

end Foreach
