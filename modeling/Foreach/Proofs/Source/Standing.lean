import Foreach.Proofs.Source.Marks
import Foreach.Proofs.Tree.Branching

/-!
# Where a block stands in what is written

A block that encloses a variable is written at one place, and there is no meaning about the variable
anywhere else (`Writes.stands`). The variable is not to be introduced before the block is begun.
-/
namespace Foreach.Source

variable {registry : Registry} {arena : Arena} {root block binding : NodeId}
  {bindings body : ListRange}

/-- What is written for a block is a part of what is written, and nothing outside of it is about a
variable. -/
def Stands (registry : Registry) (arena : Arena) (block binding : NodeId) (yields : Bool)
    (locals statements : List NodeId) (marks : List Mark) : Prop :=
  ∃ before own later pending level after, marks = before ++ marksOf own ++ later ∧
    binding ∉ pending ∧
    Writes registry arena ((introducedThere arena locals statements).reverse ++ pending)
      (blockItems registry arena level block yields locals statements) own after ∧
    ∀ mark ∈ before ++ later, mark.concerns binding = false

/-- A block still stands between what is not about the variable. -/
theorem Stands.between {yields : Bool} {locals statements : List NodeId}
    {marks before later : List Mark}
    (stands : Stands registry arena block binding yields locals statements marks)
    (earlier : ∀ mark ∈ before, mark.concerns binding = false)
    (after : ∀ mark ∈ later, mark.concerns binding = false) :
    Stands registry arena block binding yields locals statements (before ++ marks ++ later) := by
  obtain ⟨first, own, last, pending, level, ended, rfl, absent, written, unconcerned⟩ := stands
  refine ⟨before ++ first, own, last ++ later, pending, level, ended, ?_, absent, written, ?_⟩
  · simp only [List.append_assoc]
  · intro mark isMark
    simp only [List.mem_append] at isMark unconcerned
    obtain (isEarlier | isFirst) | (isLast | isLater) := isMark
    · exact earlier mark isEarlier
    · exact unconcerned mark (.inl isFirst)
    · exact unconcerned mark (.inr isLast)
    · exact after mark isLater

/-- Items among which a block is to be found. -/
structure Ready (arena : Arena) (root block binding : NodeId) (pending : List NodeId)
    (items : List Item) : Prop where
  /-- The nodes are not in the block. -/
  outer : ∀ id ∈ nodesOf items, arena.Outer root block id
  /-- No two of them get to the block. -/
  one : (nodesOf items).Pairwise fun first second =>
    ¬ (arena.Reaches first block ∧ arena.Reaches second block)
  /-- No meaning is about the variable. -/
  unconcerned : ∀ mark ∈ itemMarks items, mark.concerns binding = false
  /-- The variable is not to be introduced. -/
  absent : binding ∉ pending

section Parts

variable (formed : arena.Formed registry) (tree : arena.IsTree root)
  (isBlock : arena.kind block = .ok (.block bindings body))
  (encloses : arena.Encloses root block binding) (distinct : binding ≠ block)
  {id : NodeId} {node : Node} (found : arena.node? id = some node)
  (outer : arena.Outer root block id) (other : id ≠ block)

include encloses distinct found outer other in
/-- A node above a block has no meaning of its own about a variable that the block encloses. -/
theorem unconcerned_of_outer {mark : Mark} (isOf : mark.Of arena id node.kind) :
    mark.concerns binding = false := by
  have known : arena.kind id = .ok node.kind := Arena.kind_eq_ok.mpr ⟨node, found, rfl⟩
  obtain ⟨notSelf, notPart⟩ := outer.no_part encloses other distinct known
  exact Bool.eq_false_iff.mpr fun concerns => (isOf.concerned concerns).elim notSelf notPart

include tree isBlock encloses distinct found outer other in
/-- The parts of a node inside a line above a block. -/
theorem ready_expression (isPlain : isExpression node.kind = true) :
    Ready arena root block binding [] (expressionItems registry arena id node) := by
  have known : arena.kind id = .ok node.kind := Arena.kind_eq_ok.mpr ⟨node, found, rfl⟩
  refine ⟨fun part isPart => ?_, ?_, fun mark isMark => ?_, by simp⟩
  · rw [(expressionItems_spec isPlain).2] at isPart
    exact outer.down other known isPart
  · rw [(expressionItems_spec isPlain).2]
    exact tree.one_part outer.reaches known (Arena.binds_eq isBlock)
  · exact unconcerned_of_outer encloses distinct found outer other
      (expressionItems_of isPlain isMark)

include tree isBlock encloses distinct found outer other in
/-- The items of a statement above a block. -/
theorem ready_statement {pending : List NodeId} (absent : binding ∉ pending) (level : Nat) :
    Ready arena root block binding (pendingIn arena pending node.kind)
      (statementItems registry arena pending level id node.kind) := by
  have known : arena.kind id = .ok node.kind := Arena.kind_eq_ok.mpr ⟨node, found, rfl⟩
  have notPart := (outer.no_part encloses other distinct known).2
  have parts := statementItems_nodes registry arena pending level id node.kind
  refine ⟨fun part isPart => ?_, ?_, fun mark isMark => ?_, fun isPending => ?_⟩
  · obtain ⟨-, same⟩ | parts := parts
    · rw [same] at isPart
      exact List.mem_singleton.mp isPart ▸ outer
    · exact outer.down other known (parts.subset isPart)
  · obtain ⟨-, same⟩ | parts := parts
    · rw [same]
      exact List.pairwise_singleton _ _
    · exact (tree.one_part outer.reaches known (Arena.binds_eq isBlock)).sublist parts
  · exact unconcerned_of_outer encloses distinct found outer other (statementItems_of isMark)
  · obtain isBefore | ⟨locals, statements, sort, isLocal⟩ := mem_pendingIn isPending
    · exact absent isBefore
    · rw [sort] at notPart
      exact notPart (List.mem_append_left _ isLocal)

end Parts

section Steps

variable {pending middle after : List NodeId} {item : Item} {rest : List Item}
  {pieces : List Piece} {id : NodeId} {own : List Mark} {yields : Bool}
  {locals statements : List NodeId}

/-- Later items are ready if earlier ones are. -/
theorem Ready.tail (ready : Ready arena root block binding pending (item :: rest))
    (absent : binding ∉ middle) : Ready arena root block binding middle rest := by
  have nodes : (nodesOf rest).Sublist (nodesOf (item :: rest)) :=
    (List.sublist_cons_self item rest).filterMap _
  have marks : (itemMarks rest).Sublist (itemMarks (item :: rest)) :=
    (List.sublist_cons_self item rest).filterMap _
  exact ⟨fun id isNode => ready.outer id (nodes.subset isNode), ready.one.sublist nodes,
    fun mark isMark => ready.unconcerned mark (marks.subset isMark), absent⟩

/-- A block stands in what is written for the first item, or in what is written for the others. -/
theorem stands_of_cases (encloses : arena.Encloses root block binding)
    (ready : Ready arena root block binding pending (item :: rest))
    (isNode : item.node? = some id)
    (gets : ∃ part ∈ nodesOf (item :: rest), arena.Reaches part block)
    (written : Writes registry arena middle rest pieces after)
    (isFrom : ∀ mark ∈ own, mark.From arena id)
    (first : arena.Reaches id block →
      Stands registry arena block binding yields locals statements own)
    (later : (∃ part ∈ nodesOf rest, arena.Reaches part block) →
      Stands registry arena block binding yields locals statements (marksOf pieces)) :
    Stands registry arena block binding yields locals statements (own ++ marksOf pieces) := by
  have nodes : nodesOf (item :: rest) = id :: nodesOf rest := by
    rw [nodesOf, List.filterMap_cons, isNode]
    rfl
  have outer : arena.Outer root block id := ready.outer id (nodes ▸ List.mem_cons_self)
  have one := ready.one
  rw [nodes] at gets one
  obtain ⟨apart, -⟩ := List.pairwise_cons.mp one
  by_cases reached : arena.Reaches id block
  · have unreached : ∀ part ∈ nodesOf rest, ¬ arena.Reaches part binding := fun part isPart =>
      (ready.outer part (nodes ▸ List.mem_cons_of_mem _ isPart)).apart encloses
        fun getsToo => apart part isPart ⟨reached, getsToo⟩
    have silent := written.silent unreached (ready.tail ready.absent).unconcerned
    have whole : Stands registry arena block binding yields locals statements
        ([] ++ own ++ marksOf pieces) := (first reached).between nofun silent
    exact whole
  · have silent : ∀ mark ∈ own, mark.concerns binding = false := fun mark isMark =>
      Bool.eq_false_iff.mpr fun concerns =>
        outer.apart encloses reached ((isFrom mark isMark).concerned concerns)
    have others : ∃ part ∈ nodesOf rest, arena.Reaches part block := by
      obtain ⟨part, isPart, gets⟩ := gets
      obtain rfl | isLater := List.mem_cons.mp isPart
      · exact absurd gets reached
      · exact ⟨part, isLater, gets⟩
    have whole : Stands registry arena block binding yields locals statements
        (own ++ marksOf pieces ++ []) := (later others).between silent nofun
    rwa [List.append_nil] at whole

/-- A block stands in what is written for it and for the items after it. -/
theorem stands_self {statements : List Piece} {level : Nat}
    (encloses : arena.Encloses root block binding)
    (ready : Ready arena root block binding pending (.statement level block :: rest))
    (inside : Writes registry arena
      ((introducedThere arena (arena.list bindings) (arena.list body)).reverse ++ pending)
      (blockItems registry arena level block false (arena.list bindings) (arena.list body))
      statements middle)
    (later : Writes registry arena middle rest pieces after) :
    Stands registry arena block binding false (arena.list bindings) (arena.list body)
      (marksOf statements ++ marksOf pieces) := by
  have silent : ∀ mark ∈ marksOf pieces, mark.concerns binding = false := by
    refine later.silent (fun part isPart => ?_) (ready.tail ready.absent).unconcerned
    exact (ready.outer part (List.mem_cons_of_mem _ isPart)).apart encloses fun getsToo =>
      (List.pairwise_cons.mp ready.one).1 part isPart ⟨.refl _, getsToo⟩
  exact ⟨[], statements, marksOf pieces, pending, level, middle, rfl, ready.absent, inside, silent⟩

end Steps

/-- A block is no variable, so no block lists it. -/
theorem block_not_listed (formed : arena.Formed registry)
    (isBlock : arena.kind block = .ok (.block bindings body)) {id : NodeId} {node : Node}
    (found : arena.node? id = some node) (locals statements : ListRange)
    (sort : node.kind = .block locals statements) : block ∉ arena.list locals := by
  intro isLocal
  obtain ⟨name, isVar⟩ := (formed id node found).locals locals statements sort block isLocal
  cases isVar.symm.trans isBlock

/-- A block that encloses a variable stands in what is written for what gets to it. -/
theorem Writes.stands (formed : arena.Formed registry) (tree : arena.IsTree root)
    (isBlock : arena.kind block = .ok (.block bindings body))
    (encloses : arena.Encloses root block binding) (distinct : binding ≠ block)
    {pending after : List NodeId} {items : List Item} {pieces : List Piece}
    (written : Writes registry arena pending items pieces after)
    (ready : Ready arena root block binding pending items)
    (gets : ∃ part ∈ nodesOf items, arena.Reaches part block) :
    Stands registry arena block binding false (arena.list bindings) (arena.list body)
      (marksOf pieces) := by
  induction written with
  | nil =>
    obtain ⟨_, isNone, -⟩ := gets
    cases isNone
  | piece piece _ ih =>
    have unconcerned := ready.unconcerned
    rw [itemMarks_piece] at unconcerned
    have whole : Stands registry arena block binding false (arena.list bindings) (arena.list body)
        (piece.mark?.toList ++ marksOf _ ++ []) :=
      (ih (ready.tail ready.absent) gets).between
        (fun mark isMark => unconcerned mark (List.mem_append_left _ isMark)) nofun
    rwa [List.append_nil, ← marksOf_cons] at whole
  | @expression pending _ _ _ _ _ id node found isPlain inside later insideIh ih =>
    rw [marksOf_append]
    refine stands_of_cases encloses ready rfl gets later
      (fun mark => inside.from_expression found isPlain) (fun reached => ?_)
      (ih (ready.tail ready.absent))
    have known : arena.kind id = .ok node.kind := Arena.kind_eq_ok.mpr ⟨node, found, rfl⟩
    have other : id ≠ block := by
      rintro rfl
      rw [Except.ok.inj (known.symm.trans isBlock)] at isPlain
      cases isPlain
    refine insideIh (ready_expression tree isBlock encloses distinct found
      (ready.outer id List.mem_cons_self) other isPlain) ?_
    rw [(expressionItems_spec isPlain).2]
    cases reached with
    | refl => exact absurd rfl other
    | child knownToo isChild further =>
      rw [← Except.ok.inj (knownToo.symm.trans known)]
      exact ⟨_, isChild, further⟩
  | @inner pending after last rest own pieces id node text found notPlain inside isText later
      insideIh ih =>
    have single : Writes registry arena [] [.statement 0 id] own last := inside
    rw [marksOf_inner]
    have outer := ready.outer id List.mem_cons_self
    refine stands_of_cases encloses ready rfl gets later (fun mark isMark => ?_)
      (fun reached => ?_) (ih (ready.tail ready.absent))
    · refine from_inner found (fun isInside => ?_) isMark
      obtain isItem | ⟨part, isPart, isFrom⟩ := single.provenance isInside
      · cases isItem
      · exact List.mem_singleton.mp isPart ▸ isFrom
    · have alone : Ready arena root block binding [] [.statement 0 id] :=
        ⟨fun part isPart => List.mem_singleton.mp isPart ▸ outer, List.pairwise_singleton _ _,
          by simp, by simp⟩
      have whole : Stands registry arena block binding false (arena.list bindings)
          (arena.list body) ([.opens] ++ marksOf own ++ [.closes]) :=
        (insideIh alone ⟨id, List.mem_cons_self, reached⟩).between (by simp [Mark.concerns])
          (by simp [Mark.concerns])
      exact whole
  | @statement pending middle _ _ own _ level id node found inside later insideIh ih =>
    have known : arena.kind id = .ok node.kind := Arena.kind_eq_ok.mpr ⟨node, found, rfl⟩
    have outer := ready.outer id List.mem_cons_self
    rw [marksOf_append]
    by_cases isSelf : id = block
    · subst isSelf
      have sort := Except.ok.inj (known.symm.trans isBlock)
      rw [sort] at inside
      exact stands_self encloses ready inside later
    · have readyInside : Ready arena root block binding (pendingIn arena pending node.kind)
          (statementItems registry arena pending level id node.kind) :=
        ready_statement tree isBlock encloses distinct found outer isSelf ready.absent level
      refine stands_of_cases encloses ready rfl gets later
        (fun mark => inside.from_statement found) (fun reached => ?_) (fun getsLater => ?_)
      · exact insideIh readyInside (exists_statementItems_reaches formed found reached
          (fun _ => isSelf) (block_not_listed formed isBlock found) pending level)
      · refine ih (ready.tail fun isPending => ?_) getsLater
        obtain ⟨part, isPart, getsToo⟩ := getsLater
        have away := outer.apart encloses fun reached =>
          (List.pairwise_cons.mp ready.one).1 part isPart ⟨reached, getsToo⟩
        obtain isInside | ⟨part, isPart, listed⟩ := inside.after_mem isPending
        · exact readyInside.absent isInside
        · exact away ((reaches_of_statementItems found isPart).trans listed.reaches)

/-- The items of a function's body. -/
theorem ready_body (tree : arena.IsTree root)
    (isBlock : arena.kind block = .ok (.block bindings body))
    (encloses : arena.Encloses root block binding) (distinct : binding ≠ block) {node : Node}
    (found : arena.node? root = some node) (other : root ≠ block) :
    Ready arena root block binding (pendingInBody arena node)
      (bodyItems registry arena root node) := by
  have outer := Arena.Outer.here arena root block
  have known : arena.kind root = .ok node.kind := Arena.kind_eq_ok.mpr ⟨node, found, rfl⟩
  have alone {items : List Item} (nodes : nodesOf items = [root])
      (unconcerned : ∀ mark ∈ itemMarks items, mark.concerns binding = false) :
      Ready arena root block binding [] items := by
    refine ⟨fun part isPart => ?_, ?_, unconcerned, List.not_mem_nil⟩
    · rw [nodes] at isPart
      exact List.mem_singleton.mp isPart ▸ outer
    · rw [nodes]
      exact List.pairwise_singleton _ _
  cases sort : node.kind with
  | block locals statements =>
    have ready : Ready arena root block binding (pendingIn arena [] node.kind)
        (statementItems registry arena [] 0 root node.kind) :=
      ready_statement tree isBlock encloses distinct found outer other List.not_mem_nil 0
    rw [sort, statementItems] at ready
    rw [pendingInBody, bodyItems, sort]
    obtain ⟨outers, one, unconcerned, absent⟩ := ready
    rw [(blockItems_spec ..).2] at outers one
    rw [(blockItems_spec ..).1] at unconcerned
    refine ⟨?_, ?_, fun mark isMark => ?_, absent⟩
    · rwa [(blockItems_spec ..).2]
    · rwa [(blockItems_spec ..).2]
    · rw [(blockItems_spec ..).1] at isMark
      split at isMark
      next =>
        simp only [List.mem_cons, List.mem_append, List.mem_map, List.not_mem_nil, or_false]
          at isMark
        obtain rfl | (isFirst | ⟨value, -, rfl⟩) | rfl := isMark
        · rfl
        · exact unconcerned mark (by simp [isFirst])
        · rfl
        · rfl
      next => exact unconcerned mark isMark
  | _ =>
    rw [pendingInBody, bodyItems, sort]
    dsimp only
    split
    · exact alone rfl (by simp [returnItems, Mark.concerns])
    · exact alone rfl (by simp)

/-- A block that encloses a variable stands in what is written for a function's body. -/
theorem WritesBody.stands (formed : arena.Formed registry) (tree : arena.IsTree root)
    (isBlock : arena.kind block = .ok (.block bindings body))
    (encloses : arena.Encloses root block binding) (distinct : binding ≠ block)
    (reached : arena.Reaches root block) {node : Node} (found : arena.node? root = some node)
    {pieces : List Piece} (written : WritesBody registry arena root pieces) :
    Stands registry arena block binding (root = block && node.type ≠ .void) (arena.list bindings)
      (arena.list body) (marksOf pieces) := by
  obtain ⟨sameNode, after, foundToo, written⟩ := written
  obtain rfl := Option.some.inj (found.symm.trans foundToo)
  have known : arena.kind root = .ok node.kind := Arena.kind_eq_ok.mpr ⟨node, found, rfl⟩
  by_cases isSelf : root = block
  · subst isSelf
    have sort := Except.ok.inj (known.symm.trans isBlock)
    rw [pendingInBody, bodyItems, sort] at written
    refine ⟨[], pieces, [], [], 0, after, by simp, List.not_mem_nil, ?_, by simp⟩
    rw [decide_eq_true rfl, Bool.true_and]
    exact written
  · rw [decide_eq_false isSelf, Bool.false_and]
    have ready : Ready arena root block binding (pendingInBody arena node)
        (bodyItems registry arena root node) :=
      ready_body tree isBlock encloses distinct found isSelf
    refine written.stands formed tree isBlock encloses distinct ready ?_
    cases sort : node.kind with
    | block locals statements =>
      have gets := exists_statementItems_reaches formed found reached (fun _ => isSelf)
        (block_not_listed formed isBlock found) [] 0
      rw [sort, statementItems, (blockItems_spec ..).2] at gets
      rw [bodyItems, sort]
      dsimp only
      rwa [(blockItems_spec ..).2]
    | _ =>
      rw [bodyItems, sort]
      dsimp only
      split <;> exact ⟨root, List.mem_cons_self, reached⟩

end Foreach.Source
