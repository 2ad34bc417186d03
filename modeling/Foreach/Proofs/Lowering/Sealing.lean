import Foreach.Proofs.Lowering.Refusal
import Foreach.Proofs.Tree.Sealed

/-!
# The loops that construction makes

Construction makes loops in two ways, both with a label of their own: `whileLoop`, and `foreachLoop`
by means of it. Two things follow for whatever is built with these and with `useResource`:

* a tree that is put together from parts without breaks (`Arena.Composed`) is sealed, because the
  only breaks in it are those that such a loop leaves itself with;
* the loops that are made on the way from one arena to a later one (`Construction.Makes`) own labels
  that are all different, because a label is taken from the arena when its loop is made, also where
  that happens while the body of another loop is built.
-/
namespace Foreach

namespace Arena

variable {arena : Arena}

/-- A call is sealed if what it is made of is. -/
theorem IsCall.isSealed {id receiver : NodeId} {method : MemberId} {arguments : List NodeId}
    (isCall : arena.IsCall id receiver method arguments) (received : arena.Sealed receiver)
    (given : ∀ argument ∈ arguments, arena.Sealed argument) : arena.Sealed id := by
  obtain ⟨range, known, held⟩ := isCall
  refine .node known (by simp) fun child listed => ?_
  rw [children, held.list] at listed
  obtain rfl | inArguments := List.mem_cons.mp listed
  · exact received
  · exact given child inArguments

/-- A block is sealed if its variables and statements are. -/
theorem IsBlock.isSealed {id : NodeId} {locals statements : List NodeId}
    (isBlock : arena.IsBlock id locals statements)
    (parts : ∀ part ∈ locals ++ statements, arena.Sealed part) : arena.Sealed id := by
  obtain ⟨bindings, body, known, heldLocals, heldStatements⟩ := isBlock
  refine .node known (by simp) fun child listed => parts child ?_
  rw [children, heldLocals.list, heldStatements.list] at listed
  exact listed

/-- A disposal of a resource that is sealed is sealed. -/
theorem IsDisposal.isSealed {id resource : NodeId} {method : MemberId}
    {strategy : DisposalStrategy} (disposes : arena.IsDisposal id resource method strategy)
    (held : arena.Sealed resource) : arena.Sealed id := by
  have converted : ∀ receiver, arena.kind receiver = .ok (.convert resource) →
      arena.Sealed receiver := fun receiver known =>
    .node known (by simp) fun child listed => by
      obtain rfl := List.mem_singleton.mp listed
      exact held
  cases strategy with
  | valueType =>
    obtain ⟨receiver, isConversion, isCall⟩ := disposes
    exact isCall.isSealed (converted receiver isConversion) (by simp)
  | referenceType =>
    obtain ⟨present, missing, call, receiver, guarded, compared, isNull, isConversion, isCall⟩ :=
      disposes
    have called := isCall.isSealed (converted receiver isConversion) (by simp)
    have absent : arena.Sealed missing := .leaf isNull rfl (by simp)
    have tested : arena.Sealed present :=
      .node compared (by simp) (by simp [children, held, absent])
    exact .node guarded (by simp) (by simp [children, tested, called])
  | byRefLike => exact IsCall.isSealed disposes held (by simp)

end Arena

open Arena in
/-- The block of a loop over items is sealed if what the loop was built from is. -/
theorem LoopNodes.Form.isSealed {nodes : LoopNodes} {arena : Arena} {block : NodeId}
    {loop : ForeachLoop} (form : nodes.Form arena block loop)
    (source : arena.Sealed loop.enumerable) (repeated : arena.Sealed loop.body)
    (around : ∀ part ∈ loop.plan.locals ++ loop.plan.preamble ++ loop.plan.result.toList,
      arena.Sealed part) : arena.Sealed block := by
  have held : arena.Sealed loop.enumerator := .leaf form.enumerator rfl (by simp)
  have acquired := form.acquired.isSealed source (by simp)
  have started : arena.Sealed nodes.start :=
    .node form.start (by simp) (by simp [children, held, acquired])
  have tested := form.hasNext.isSealed held (by simp)
  have looped := Sealed.whileLoop form.looped form.step form.leave tested repeated
  have disposed := form.disposal.isSealed held
  have guarded : arena.Sealed nodes.guarded :=
    .node form.guarded (by simp) (by simp [children, looped, disposed])
  refine form.block.isSealed fun part listed => ?_
  simp only [List.mem_append, List.mem_cons] at listed around
  obtain (rfl | isLocal) | (rfl | inPreamble) | rfl | isResult := listed
  · exact held
  · exact around part (.inl (.inl isLocal))
  · exact started
  · exact around part (.inl (.inr inPreamble))
  · exact guarded
  · exact around part (.inr isResult)

namespace Construction

variable {registry : Registry} {before after : Arena}

/-- A statement with the disposal of the resource that it uses is added. -/
theorem useResource_adds {resource body id : NodeId}
    (built : useResource registry resource body before = .ok (.ok id, after)) :
    after.Extends before ∧ (∃ kind, before.kind resource = .ok kind ∧ kind.isBinding = true) ∧
      ∃ disposal method strategy, after.kind id = .ok (.tryFinally body disposal) ∧
        after.IsDisposal disposal resource method strategy := by
  obtain ⟨isBinding, _, strategy, disposal, _, -, -, disposed, guarded⟩ :=
    useResource_eq_ok.mp built
  obtain ⟨disposalGrown, method, -, disposes⟩ := disposeBy_adds disposed
  obtain ⟨grown, known⟩ := tryFinally_adds guarded
  exact ⟨grown.trans disposalGrown, isBinding, disposal, method, strategy, known,
    disposes.extend grown⟩

end Construction

/-- A tree that stands in an arena is put together from trees without breaks: by nodes that are no
breaks, and by the constructors that bring the breaks of their loops along. -/
inductive Arena.Composed (registry : Registry) (arena : Arena) : NodeId → Prop where
  /-- A tree without breaks. -/
  | part {root : NodeId} (free : ∀ label, arena.NeverBreaks root label) :
      Composed registry arena root
  /-- A node that is no break. -/
  | node {root : NodeId} {kind : NodeKind} (known : arena.kind root = .ok kind)
      (noBreak : ∀ label, kind ≠ .breakTo label)
      (parts : ∀ child ∈ arena.children kind, Composed registry arena child) :
      Composed registry arena root
  /-- A loop that runs as long as a condition holds. -/
  | whileLoop {condition body root : NodeId} {before after : Arena}
      (built : Construction.whileLoop condition body before = .ok (root, after))
      (grown : arena.Extends after) (tested : Composed registry arena condition)
      (repeated : Composed registry arena body) : Composed registry arena root
  /-- A loop over the items of an enumerable. -/
  | foreachLoop {policy : Policy} {enumerable root : NodeId} {plan : LoopPlan}
      {body : LoopBinding → Construction NodeId} {before after : Arena}
      (adds : ∀ binding, Construction.OnlyAdds (body binding))
      (built : Construction.foreachLoop registry policy enumerable plan body before =
        .ok (.ok root, after))
      (grown : arena.Extends after) (source : Composed registry arena enumerable)
      (around : ∀ part ∈ plan.locals ++ plan.preamble ++ plan.result.toList,
        Composed registry arena part)
      (repeated : ∀ opened started step filled,
        Construction.openLoop registry policy enumerable before = .ok (.ok opened, started) →
        body opened.binding started = .ok (step, filled) → Composed registry arena step) :
      Composed registry arena root
  /-- A statement that uses a resource. -/
  | useResource {resource body root : NodeId} {before after : Arena}
      (built : Construction.useResource registry resource body before = .ok (.ok root, after))
      (grown : arena.Extends after) (uses : Composed registry arena body) :
      Composed registry arena root

/-- A tree that is put together from trees without breaks is sealed. -/
theorem Arena.Composed.isSealed {registry : Registry} {arena : Arena} {root : NodeId}
    (composed : arena.Composed registry root) : arena.Sealed root := by
  induction composed with
  | part free => exact sealed_of_neverBreaks free
  | node known noBreak _ parts => exact .node known noBreak parts
  | whileLoop built grown _ _ tested repeated =>
    obtain ⟨-, step, exit, loops, steps, leaves⟩ := Construction.whileLoop_adds built
    exact .whileLoop (grown.kind loops) (grown.kind steps) (grown.kind leaves) tested repeated
  | foreachLoop adds built grown _ _ _ source around repeated =>
    obtain ⟨-, loop, nodes, rfl, rfl, from_, form⟩ := Construction.foreachLoop_adds adds built
    obtain ⟨type, typed, resolved⟩ := from_.resolved
    obtain ⟨opened, started, filled, starts, -, fills, -, -⟩ := from_.body
    have opens := Construction.openLoop_eq_ok.mpr ⟨type, _, typed, resolved, starts⟩
    exact (form.extend grown).isSealed source (repeated _ _ _ _ opens fills) around
  | useResource built grown _ uses =>
    obtain ⟨kept, ⟨kind, known, isBinding⟩, disposal, _, _, guarded, disposes⟩ :=
      Construction.useResource_adds built
    have held : Arena.Sealed _ _ := .leaf ((grown.trans kept).kind known)
      (by cases kind <;> first | rfl | cases isBinding)
      (by rintro _ rfl; cases isBinding)
    have disposed := (disposes.extend grown).isSealed held
    exact .node (grown.kind guarded) (by simp) (by simp [children, uses, disposed])

namespace Arena

variable {arena : Arena} {plan : LoopPlan} {block looped : NodeId}

/-- A node is the loop in the block that a loop over items became. -/
def IsLoopOf (arena : Arena) (plan : LoopPlan) (block looped : NodeId) : Prop :=
  ∃ locals start guarded disposal,
    arena.IsBlock block locals (start :: plan.preamble ++ guarded :: plan.result.toList) ∧
      arena.kind guarded = .ok (.tryFinally looped disposal)

/-- There is one loop in the block that a loop over items became. -/
theorem IsLoopOf.unique {other : NodeId} (first : arena.IsLoopOf plan block looped)
    (second : arena.IsLoopOf plan block other) : looped = other := by
  obtain ⟨_, start, guarded, _, ⟨_, body, known, -, held⟩, guards⟩ := first
  obtain ⟨_, start', guarded', _, ⟨_, body', known', -, held'⟩, guards'⟩ := second
  rw [known] at known'
  cases known'
  have same : start :: plan.preamble ++ guarded :: plan.result.toList =
      start' :: plan.preamble ++ guarded' :: plan.result.toList := held.list.symm.trans held'.list
  obtain ⟨-, rest⟩ := List.cons.inj same
  obtain ⟨rfl, -⟩ := List.cons.inj (List.append_cancel_left rest)
  rw [guards] at guards'
  cases guards'
  rfl

/-- Loops own labels that an arena took until it became a later one: one label each, in their
order. -/
structure Labelled (first : Arena) (loops : List NodeId) (last : Arena) : Prop where
  /-- The arena only grew. -/
  grown : last.Extends first
  /-- The labels increase, and they are those of the time between the two arenas. -/
  owned : ∃ labels : List Label, List.Forall₂ last.Owns loops labels ∧
    labels.Pairwise (·.number < ·.number) ∧
    ∀ label ∈ labels, first.labels ≤ label.number ∧ label.number < last.labels

namespace Labelled

variable {first middle last : Arena} {loops more : List NodeId}

/-- Without loops there is nothing to label. -/
theorem none (grown : last.Extends first) : Labelled first [] last :=
  ⟨grown, [], .nil, .nil, by simp⟩

/-- One loop with a label of the time. -/
theorem single {label : Label} (grown : last.Extends first) (owns : last.Owns looped label)
    (above : first.labels ≤ label.number) (below : label.number < last.labels) :
    Labelled first [looped] last :=
  ⟨grown, [label], .cons owns .nil, List.pairwise_singleton .., by simp [above, below]⟩

/-- Loops of an earlier and of a later time have different labels. -/
theorem append (earlier : Labelled first loops middle) (later : Labelled middle more last) :
    Labelled first (loops ++ more) last := by
  obtain ⟨labels, owned, ordered, within⟩ := earlier.owned
  obtain ⟨others, ownedMore, orderedMore, withinMore⟩ := later.owned
  refine ⟨later.grown.trans earlier.grown, labels ++ others, ?_, ?_, ?_⟩
  · exact List.rel_append (owned.imp fun _ _ owns => owns.extend later.grown) ownedMore
  · refine List.pairwise_append.mpr ⟨ordered, orderedMore, fun label isEarlier other isLater => ?_⟩
    exact Nat.lt_of_lt_of_le (within label isEarlier).2 (withinMore other isLater).1
  · intro label listed
    have took := earlier.grown.labels
    have tookMore := later.grown.labels
    obtain isEarlier | isLater := List.mem_append.mp listed
    · obtain ⟨_, _⟩ := within label isEarlier
      omega
    · obtain ⟨_, _⟩ := withinMore label isLater
      omega

end Labelled

end Arena

namespace Construction

variable {registry : Registry} {before after : Arena}

/-- The loops that are made from one arena to a later one, in the order in which they are made. -/
inductive Makes (registry : Registry) : Arena → List NodeId → Arena → Prop where
  /-- Anything but such a loop is added. -/
  | other {first last : Arena} (grown : last.Extends first) : Makes registry first [] last
  /-- A loop that runs as long as a condition holds. -/
  | whileLoop {condition body looped : NodeId} {first last : Arena}
      (built : whileLoop condition body first = .ok (looped, last)) :
      Makes registry first [looped] last
  /-- A loop over the items of an enumerable, which is made after the loops of its body. -/
  | foreachLoop {policy : Policy} {enumerable block step looped : NodeId} {plan : LoopPlan}
      {body : LoopBinding → Construction NodeId} {opened : OpenLoop}
      {first started filled last : Arena} {inner : List NodeId}
      (built : foreachLoop registry policy enumerable plan body first = .ok (.ok block, last))
      (opens : openLoop registry policy enumerable first = .ok (.ok opened, started))
      (fills : body opened.binding started = .ok (step, filled))
      (within : Makes registry started inner filled) (own : last.IsLoopOf plan block looped) :
      Makes registry first (inner ++ [looped]) last
  /-- One thing after another. -/
  | next {first middle last : Arena} {loops more : List NodeId}
      (earlier : Makes registry first loops middle) (later : Makes registry middle more last) :
      Makes registry first (loops ++ more) last

/-- A loop that runs as long as a condition holds takes the next label. -/
theorem whileLoop_labelled {condition body looped : NodeId}
    (built : whileLoop condition body before = .ok (looped, after)) :
    before.Labelled [looped] after := by
  obtain ⟨grown, step, _, loops, -, -⟩ := whileLoop_adds built
  refine .single grown ⟨step, loops⟩ (Nat.le_refl _) ?_
  obtain ⟨-, _, _, _, _, pushedExit, pushedStep, pushedLoop⟩ := whileLoop_eq_ok.mp built
  have pushed := (push_adds pushedLoop).1.trans
    ((push_adds pushedStep).1.trans (push_adds pushedExit).1)
  exact Nat.lt_of_lt_of_le (Nat.lt_succ_self before.labels) pushed.labels

/-- What comes after the body of a loop over items makes the loop. -/
theorem closeLoop_labelled {opened : OpenLoop} {plan : LoopPlan} {step block : NodeId}
    (built : closeLoop registry opened plan step before = .ok (.ok block, after)) :
    ∃ looped, after.IsLoopOf plan block looped ∧ before.Labelled [looped] after := by
  obtain ⟨_, _, looped, _, _, disposal, _, guarded, _, called, repeated, -, disposed, pushed,
    built⟩ := closeLoop_eq_ok.mp built
  obtain ⟨callGrown, -⟩ := call_adds called
  obtain ⟨disposalGrown, -⟩ := disposeBy_adds disposed
  obtain ⟨guardGrown, guards⟩ := tryFinally_adds pushed
  obtain ⟨blockGrown, isBlock⟩ := block_adds built
  have afterLoop := blockGrown.trans (guardGrown.trans disposalGrown)
  exact ⟨looped, ⟨_, _, guarded, disposal, isBlock, blockGrown.kind guards⟩,
    .append (.none callGrown) (.append (whileLoop_labelled repeated) (.none afterLoop))⟩

/-- The loops made from one arena to a later one own labels of the time between the two. -/
theorem Makes.labelled {loops : List NodeId} (made : Makes registry before loops after) :
    before.Labelled loops after := by
  induction made with
  | other grown => exact .none grown
  | whileLoop built => exact whileLoop_labelled built
  | foreachLoop built opens fills _ own inner =>
    obtain ⟨_, _, _, _, opens', fills', closed⟩ := foreachLoop_eq_ok.mp built
    cases opens.symm.trans opens'
    cases fills.symm.trans fills'
    obtain ⟨_, isLoop, labelled⟩ := closeLoop_labelled closed
    obtain rfl := own.unique isLoop
    exact .append (.append (.none (openLoop_grows opens)) inner) labelled
  | next _ _ earlier later => exact earlier.append later

/-- No two of the loops made from one arena to a later one own the same label. -/
theorem Makes.distinct {loops : List NodeId} (made : Makes registry before loops after) :
    ∃ labels : List Label, List.Forall₂ after.Owns loops labels ∧ labels.Nodup := by
  obtain ⟨labels, owned, ordered, -⟩ := made.labelled.owned
  refine ⟨labels, owned, ordered.imp ?_⟩
  rintro label _ smaller rfl
  exact Nat.lt_irrefl _ smaller

end Construction

end Foreach
