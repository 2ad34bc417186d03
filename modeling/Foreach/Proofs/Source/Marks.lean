import Foreach.Proofs.Source.Output

/-!
# Where the meanings come from

Each meaning in what is written belongs to a node that the writing gets to (`Writes.provenance`),
and a variable is to be introduced only if it was before or a block lists it (`Writes.after_mem`).
Braces are closed as they are opened (`Writes.nesting_eq`), and a variable that is part of what is
written is mentioned (`Writes.mentions`).
-/
namespace Foreach.Source

variable {registry : Registry} {arena : Arena}

/-- A meaning belongs to a node. -/
def Mark.Of (arena : Arena) (id : NodeId) (kind : NodeKind) : Mark → Prop
  | .mentions binding => id = binding ∧ kind.isBinding = true
  | .declares binding => ∃ locals statements, kind = .block locals statements ∧
      binding ∈ declaredFirst arena (arena.list locals) (arena.list statements)
  | .introduces binding statement => id = statement ∧ ∃ value, kind = .assign binding value
  | .returns _ => False
  | .enters block | .leaves block => id = block ∧ kind.isStatement = true
  | .opens | .closes => True

section Items

variable {items others : List Item} {pieces more : List Piece} {id : NodeId} {level : Nat}

/-- The meanings of pieces in order. -/
@[simp] theorem marksOf_append : marksOf (pieces ++ more) = marksOf pieces ++ marksOf more :=
  List.filterMap_append

/-- The meanings of items in order. -/
@[simp] theorem itemMarks_append :
    itemMarks (items ++ others) = itemMarks items ++ itemMarks others :=
  List.filterMap_append

/-- The nodes among items in order. -/
@[simp] theorem nodesOf_append : nodesOf (items ++ others) = nodesOf items ++ nodesOf others :=
  List.filterMap_append

/-- A piece that is an item has its meaning. -/
@[simp] theorem itemMarks_piece (piece : Piece) :
    itemMarks (.piece piece :: items) = piece.mark?.toList ++ itemMarks items := by
  cases isMark : piece.mark? <;> simp [itemMarks, Item.mark?, isMark]

/-- A piece has its meaning. -/
@[simp] theorem marksOf_cons (piece : Piece) :
    marksOf (piece :: pieces) = piece.mark?.toList ++ marksOf pieces := by
  cases isMark : piece.mark? <;> simp [marksOf, isMark]

/-- A meaning that is an item is a meaning. -/
@[simp] theorem itemMarks_mark (mark : Mark) (text : String) :
    itemMarks (.mark mark text :: items) = mark :: itemMarks items := rfl

/-- A plain word has no meaning. -/
@[simp] theorem itemMarks_word (text : String) :
    itemMarks (.word text :: items) = itemMarks items := rfl

/-- The beginning of a line has no meaning. -/
@[simp] theorem itemMarks_line : itemMarks (.line level :: items) = itemMarks items := rfl

/-- A node that is to be written has no meaning itself. -/
@[simp] theorem itemMarks_expression :
    itemMarks (.expression id :: items) = itemMarks items := rfl

/-- A statement that is to be written has no meaning itself. -/
@[simp] theorem itemMarks_statement :
    itemMarks (.statement level id :: items) = itemMarks items := rfl

/-- No items have no meaning. -/
@[simp] theorem itemMarks_nil : itemMarks [] = [] := rfl

/-- No pieces have no meaning. -/
@[simp] theorem marksOf_nil : marksOf [] = [] := rfl

/-- A piece is no node. -/
@[simp] theorem nodesOf_piece (piece : Piece) :
    nodesOf (.piece piece :: items) = nodesOf items := rfl

/-- A meaning is no node. -/
@[simp] theorem nodesOf_mark (mark : Mark) (text : String) :
    nodesOf (.mark mark text :: items) = nodesOf items := rfl

/-- A plain word is no node. -/
@[simp] theorem nodesOf_word (text : String) :
    nodesOf (.word text :: items) = nodesOf items := rfl

/-- The beginning of a line is no node. -/
@[simp] theorem nodesOf_line : nodesOf (.line level :: items) = nodesOf items := rfl

/-- A node that is to be written. -/
@[simp] theorem nodesOf_expression :
    nodesOf (.expression id :: items) = id :: nodesOf items := rfl

/-- A statement that is to be written. -/
@[simp] theorem nodesOf_statement :
    nodesOf (.statement level id :: items) = id :: nodesOf items := rfl

/-- No items are no nodes. -/
@[simp] theorem nodesOf_nil : nodesOf [] = [] := rfl

/-- Meanings without text are what they are. -/
theorem marksOf_silent (marks : List Mark) : marksOf (marks.map (Piece.mark · "")) = marks := by
  rw [marksOf, List.filterMap_map]
  exact List.filterMap_some

/-- The meanings of a statement inside a line stand between two braces. -/
@[simp] theorem marksOf_inner (text : String) (own : List Mark) (pieces : List Piece) :
    marksOf (.word text :: .mark .opens "" :: (own.map (Piece.mark · "") ++
      .mark .closes "" :: pieces)) = .opens :: (own ++ [.closes]) ++ marksOf pieces := by
  simp [marksOf_silent, Piece.mark?]

/-- An operand is one node. -/
@[simp] theorem operandItems_spec :
    itemMarks (operandItems arena id) = [] ∧ nodesOf (operandItems arena id) = [id] := by
  rw [operandItems]
  split <;> exact ⟨rfl, rfl⟩

/-- Nodes with commas between them are these nodes. -/
@[simp] theorem separated_spec (ids : List NodeId) :
    itemMarks (separated ids) = [] ∧ nodesOf (separated ids) = ids := by
  induction ids using separated.induct with
  | case1 => exact ⟨rfl, rfl⟩
  | case2 id => exact ⟨rfl, rfl⟩
  | case3 id rest some ih =>
    rw [separated]
    · exact ⟨ih.1, congrArg (id :: ·) ih.2⟩
    · exact some

/-- What is written for a node inside a line: its parts, and a meaning if it is a binding. -/
theorem expressionItems_spec {node : Node} (isPlain : isExpression node.kind = true) :
    itemMarks (expressionItems registry arena id node) =
        (if node.kind.isBinding then [.mentions id] else []) ∧
      nodesOf (expressionItems registry arena id node) = arena.children node.kind := by
  obtain ⟨kind, type⟩ := node
  cases kind with
  | call | property | convert | lambda =>
    simp [expressionItems, Arena.children, NodeKind.isBinding, NodeKind.bindingName?]
  | block | ifThen | ifThenElse | loop | breakTo | tryFinally => cases isPlain
  | _ => exact ⟨rfl, rfl⟩

/-- The meanings among the items of a node inside a line belong to it. -/
theorem expressionItems_of {node : Node} {mark : Mark} (isPlain : isExpression node.kind = true)
    (isMark : mark ∈ itemMarks (expressionItems registry arena id node)) :
    mark.Of arena id node.kind := by
  rw [(expressionItems_spec isPlain).1] at isMark
  split at isMark
  next isBinding =>
    obtain rfl := List.mem_singleton.mp isMark
    exact ⟨rfl, isBinding⟩
  next => cases isMark

/-- The meanings of declarations, and the nodes. -/
theorem declarations_spec (bindings : List NodeId) :
    itemMarks (bindings.flatMap (declarationItems registry arena level)) =
        bindings.map .declares ∧
      nodesOf (bindings.flatMap (declarationItems registry arena level)) = bindings := by
  induction bindings with
  | nil => exact ⟨rfl, rfl⟩
  | cons binding rest ih =>
    simp [List.flatMap_cons, declarationItems, ih.1, ih.2]

/-- The meanings of statements in order: the last value may be returned. -/
theorem sequenceItems_spec (yields : Bool) (statements : List NodeId) :
    itemMarks (sequenceItems arena level yields statements) =
        (if yields then (statements.getLast?.filter (isKind arena isExpression)).toList.map .returns
          else []) ∧
      nodesOf (sequenceItems arena level yields statements) = statements := by
  induction statements with
  | nil => cases yields <;> exact ⟨rfl, rfl⟩
  | cons next rest ih =>
    cases rest with
    | nil =>
      rw [sequenceItems]
      cases yields <;> cases isPlain : isKind arena isExpression next <;>
        simp [isPlain, returnItems, Option.filter]
    | cons second more =>
      rw [sequenceItems, List.getLast?_cons_cons]
      · split <;> simpa using ih
      · simp

/-- The meanings of a block, and its nodes. -/
theorem blockItems_spec (block : NodeId) (yields : Bool) (locals statements : List NodeId) :
    itemMarks (blockItems registry arena level block yields locals statements) =
        .enters block :: ((declaredFirst arena locals statements).map .declares ++
          (if yields then
            (statements.getLast?.filter (isKind arena isExpression)).toList.map .returns
            else []) ++ [.leaves block]) ∧
      nodesOf (blockItems registry arena level block yields locals statements) =
        declaredFirst arena locals statements ++ statements := by
  rw [blockItems]
  simp [declarations_spec, sequenceItems_spec]

/-- The meanings among the items of a statement belong to it. -/
theorem statementItems_of {pending : List NodeId} {kind : NodeKind} {mark : Mark}
    (isMark : mark ∈ itemMarks (statementItems registry arena pending level id kind)) :
    mark.Of arena id kind := by
  cases kind with
  | block locals statements =>
    rw [statementItems, (blockItems_spec ..).1] at isMark
    simp only [List.mem_cons, List.mem_append, List.mem_map, Bool.false_eq_true, if_false,
      List.not_mem_nil, or_false] at isMark
    obtain rfl | ⟨binding, isFirst, rfl⟩ | rfl := isMark
    · exact ⟨rfl, rfl⟩
    · exact ⟨locals, statements, rfl, isFirst⟩
    · exact ⟨rfl, rfl⟩
  | ifThen | ifThenElse | loop | tryFinally =>
    have isBrace : mark = .opens ∨ mark = .closes := by
      simp only [statementItems, bracedItems, itemMarks_line, itemMarks_word, itemMarks_expression,
        itemMarks_mark, itemMarks_statement, itemMarks_nil, List.mem_cons, List.not_mem_nil,
        List.nil_append, List.cons_append, or_false] at isMark
      tauto
    obtain rfl | rfl := isBrace <;> trivial
  | assign target value =>
    rw [statementItems] at isMark
    split at isMark
    · obtain rfl := List.mem_singleton.mp isMark
      exact ⟨rfl, value, rfl⟩
    · cases isMark
  | _ => cases isMark

/-- The nodes among the items of a statement are among its parts, or the statement itself, inside a
line. -/
theorem statementItems_nodes (registry : Registry) (arena : Arena) (pending : List NodeId)
    (level : Nat) (id : NodeId) (kind : NodeKind) :
    (isExpression kind = true ∧
      nodesOf (statementItems registry arena pending level id kind) = [id]) ∨
    (nodesOf (statementItems registry arena pending level id kind)).Sublist
      (arena.children kind) := by
  cases kind with
  | block locals statements =>
    rw [statementItems, (blockItems_spec ..).2]
    exact .inr (List.filter_sublist.append_right _)
  | ifThen | ifThenElse | loop | breakTo | tryFinally => exact .inr (.refl _)
  | assign target value =>
    rw [statementItems]
    split <;> exact .inl ⟨rfl, rfl⟩
  | _ => exact .inl ⟨rfl, rfl⟩

end Items

/-- A meaning about a binding belongs to the binding or to a node that has it among its parts. -/
theorem Mark.Of.concerned {id binding : NodeId} {kind : NodeKind} {mark : Mark}
    (isOf : mark.Of arena id kind) (concerns : mark.concerns binding = true) :
    id = binding ∨ binding ∈ arena.children kind := by
  cases mark with
  | mentions other =>
    obtain rfl := of_decide_eq_true concerns
    exact .inl isOf.1
  | declares other =>
    obtain rfl := of_decide_eq_true concerns
    obtain ⟨locals, statements, rfl, isFirst⟩ := isOf
    exact .inr (List.mem_append_left _ (List.mem_filter.mp isFirst).1)
  | introduces other statement =>
    obtain rfl := of_decide_eq_true concerns
    obtain ⟨-, value, rfl⟩ := isOf
    exact .inr List.mem_cons_self
  | _ => cases concerns

/-- A meaning belongs to a node that a node gets to. -/
def Mark.From (arena : Arena) (root : NodeId) (mark : Mark) : Prop :=
  ∃ id kind, arena.Reaches root id ∧ arena.kind id = .ok kind ∧ mark.Of arena id kind

/-- What belongs to a part belongs to the whole. -/
theorem Mark.From.trans {root part : NodeId} {mark : Mark} (isFrom : mark.From arena part)
    (reached : arena.Reaches root part) : mark.From arena root := by
  obtain ⟨id, kind, further, known, isOf⟩ := isFrom
  exact ⟨id, kind, reached.trans further, known, isOf⟩

/-- What a meaning is about is reached. -/
theorem Mark.From.concerned {root binding : NodeId} {mark : Mark} (isFrom : mark.From arena root)
    (concerns : mark.concerns binding = true) : arena.Reaches root binding := by
  obtain ⟨id, kind, reached, known, isOf⟩ := isFrom
  obtain rfl | isChild := isOf.concerned concerns
  · exact reached
  · exact reached.trans (.child known isChild (.refl _))

section Node

variable {id part : NodeId} {node : Node} (found : arena.node? id = some node)
include found

/-- A node that is written inside a line gets to the nodes among its items. -/
theorem reaches_of_expressionItems (isPlain : isExpression node.kind = true)
    (isPart : part ∈ nodesOf (expressionItems registry arena id node)) :
    arena.Reaches id part := by
  rw [(expressionItems_spec isPlain).2] at isPart
  exact .child (Arena.kind_eq_ok.mpr ⟨node, found, rfl⟩) isPart (.refl _)

/-- A statement that is written gets to the nodes among its items. -/
theorem reaches_of_statementItems {pending : List NodeId} {level : Nat}
    (isPart : part ∈ nodesOf (statementItems registry arena pending level id node.kind)) :
    arena.Reaches id part := by
  obtain ⟨-, same⟩ | parts :=
    statementItems_nodes registry arena pending level id node.kind
  · rw [same] at isPart
    exact List.mem_singleton.mp isPart ▸ .refl _
  · exact .child (Arena.kind_eq_ok.mpr ⟨node, found, rfl⟩) (parts.subset isPart) (.refl _)

/-- The meanings among the items of a node inside a line belong to it. -/
theorem from_of_expressionItems {mark : Mark} (isPlain : isExpression node.kind = true)
    (isMark : mark ∈ itemMarks (expressionItems registry arena id node)) : mark.From arena id :=
  ⟨id, node.kind, .refl _, Arena.kind_eq_ok.mpr ⟨node, found, rfl⟩,
    expressionItems_of isPlain isMark⟩

/-- The meanings among the items of a statement belong to it. -/
theorem from_of_statementItems {pending : List NodeId} {level : Nat} {mark : Mark}
    (isMark : mark ∈ itemMarks (statementItems registry arena pending level id node.kind)) :
    mark.From arena id :=
  ⟨id, node.kind, .refl _, Arena.kind_eq_ok.mpr ⟨node, found, rfl⟩, statementItems_of isMark⟩

/-- A meaning between the braces around a statement inside a line belongs to it, and so do the
braces. -/
theorem from_inner {own : List Mark} {mark : Mark} (inside : mark ∈ own → mark.From arena id)
    (isMark : mark ∈ .opens :: (own ++ [.closes])) : mark.From arena id := by
  have known : arena.kind id = .ok node.kind := Arena.kind_eq_ok.mpr ⟨node, found, rfl⟩
  simp only [List.mem_cons, List.mem_append, List.not_mem_nil, or_false] at isMark
  obtain rfl | isOwn | rfl := isMark
  · exact ⟨id, node.kind, .refl _, known, trivial⟩
  · exact inside isOwn
  · exact ⟨id, node.kind, .refl _, known, trivial⟩

end Node

section Written

variable {pending after : List NodeId} {items : List Item} {pieces : List Piece}

/-- Every meaning in what is written is an item, or belongs to a node that the writing gets to. -/
theorem Writes.provenance (written : Writes registry arena pending items pieces after) {mark : Mark}
    (isMark : mark ∈ marksOf pieces) :
    mark ∈ itemMarks items ∨ ∃ root ∈ nodesOf items, mark.From arena root := by
  induction written with
  | nil => cases isMark
  | piece piece _ ih =>
    rw [marksOf_cons] at isMark
    rw [itemMarks_piece]
    obtain isPiece | isLater := List.mem_append.mp isMark
    · exact .inl (List.mem_append_left _ isPiece)
    · exact (ih isLater).imp_left (List.mem_append_right _)
  | expression found isPlain _ _ insideIh ih =>
    rw [marksOf_append] at isMark
    obtain isOwn | isLater := List.mem_append.mp isMark
    · refine .inr ⟨_, List.mem_cons_self, ?_⟩
      obtain isItem | ⟨root, isRoot, isFrom⟩ := insideIh isOwn
      · exact from_of_expressionItems found isPlain isItem
      · exact isFrom.trans (reaches_of_expressionItems found isPlain isRoot)
    · exact (ih isLater).imp_right fun ⟨root, isRoot, isFrom⟩ =>
        ⟨root, List.mem_cons_of_mem _ isRoot, isFrom⟩
  | inner found _ _ _ _ insideIh ih =>
    rw [marksOf_inner] at isMark
    obtain isOwn | isLater := List.mem_append.mp isMark
    · refine .inr ⟨_, List.mem_cons_self, from_inner found (fun isInside => ?_) isOwn⟩
      obtain isItem | ⟨root, isRoot, isFrom⟩ := insideIh isInside
      · cases isItem
      · exact List.mem_singleton.mp isRoot ▸ isFrom
    · exact (ih isLater).imp_right fun ⟨root, isRoot, isFrom⟩ =>
        ⟨root, List.mem_cons_of_mem _ isRoot, isFrom⟩
  | statement found _ _ insideIh ih =>
    rw [marksOf_append] at isMark
    obtain isOwn | isLater := List.mem_append.mp isMark
    · refine .inr ⟨_, List.mem_cons_self, ?_⟩
      obtain isItem | ⟨root, isRoot, isFrom⟩ := insideIh isOwn
      · exact from_of_statementItems found isItem
      · exact isFrom.trans (reaches_of_statementItems found isRoot)
    · exact (ih isLater).imp_right fun ⟨root, isRoot, isFrom⟩ =>
        ⟨root, List.mem_cons_of_mem _ isRoot, isFrom⟩

/-- What is written for a node inside a line belongs to it. -/
theorem Writes.from_expression {id : NodeId} {node : Node} (found : arena.node? id = some node)
    (isPlain : isExpression node.kind = true)
    (inside : Writes registry arena pending (expressionItems registry arena id node) pieces after)
    {mark : Mark} (isMark : mark ∈ marksOf pieces) : mark.From arena id := by
  obtain isItem | ⟨root, isRoot, isFrom⟩ := inside.provenance isMark
  · exact from_of_expressionItems found isPlain isItem
  · exact isFrom.trans (reaches_of_expressionItems found isPlain isRoot)

/-- What is written for a statement belongs to it. -/
theorem Writes.from_statement {id : NodeId} {node : Node} (found : arena.node? id = some node)
    {before : List NodeId} {level : Nat} (inside : Writes registry arena pending
      (statementItems registry arena before level id node.kind) pieces after)
    {mark : Mark} (isMark : mark ∈ marksOf pieces) : mark.From arena id := by
  obtain isItem | ⟨root, isRoot, isFrom⟩ := inside.provenance isMark
  · exact from_of_statementItems found isItem
  · exact isFrom.trans (reaches_of_statementItems found isRoot)

/-- What has nothing to do with a binding is written without a meaning about it. -/
theorem Writes.silent {binding : NodeId}
    (written : Writes registry arena pending items pieces after)
    (apart : ∀ root ∈ nodesOf items, ¬ arena.Reaches root binding)
    (unconcerned : ∀ mark ∈ itemMarks items, mark.concerns binding = false) :
    ∀ mark ∈ marksOf pieces, mark.concerns binding = false := by
  intro mark isMark
  obtain isItem | ⟨root, isRoot, isFrom⟩ := written.provenance isMark
  · exact unconcerned mark isItem
  · exact Bool.eq_false_iff.mpr fun concerns => apart root isRoot (isFrom.concerned concerns)

/-- Items that come first are written first. -/
theorem Writes.split {others : List Item}
    (written : Writes registry arena pending (items ++ others) pieces after) :
    ∃ middle first second, pieces = first ++ second ∧
      Writes registry arena pending items first middle ∧
      Writes registry arena middle others second after := by
  induction items generalizing pending pieces with
  | nil => exact ⟨pending, [], pieces, rfl, .nil, written⟩
  | cons item rest ih =>
    cases written with
    | piece piece later =>
      obtain ⟨middle, first, second, rfl, written, writtenToo⟩ := ih later
      exact ⟨middle, piece :: first, second, rfl, .piece piece written, writtenToo⟩
    | expression found isPlain inside later =>
      obtain ⟨middle, first, second, rfl, written, writtenToo⟩ := ih later
      exact ⟨middle, _, second, (List.append_assoc ..).symm,
        .expression found isPlain inside written, writtenToo⟩
    | inner found notPlain inside isText later =>
      obtain ⟨middle, first, second, rfl, written, writtenToo⟩ := ih later
      exact ⟨middle, _, second, by simp only [List.cons_append, List.append_assoc],
        .inner found notPlain inside isText written, writtenToo⟩
    | statement found inside later =>
      obtain ⟨middle, first, second, rfl, written, writtenToo⟩ := ih later
      exact ⟨middle, _, second, (List.append_assoc ..).symm,
        .statement found inside written, writtenToo⟩

/-- The meanings of items are among the meanings in what is written. -/
theorem Writes.itemMarks_subset (written : Writes registry arena pending items pieces after) :
    itemMarks items ⊆ marksOf pieces := by
  intro mark isItem
  induction written with
  | nil => exact isItem
  | piece piece _ ih =>
    rw [itemMarks_piece] at isItem
    rw [marksOf_cons]
    exact List.mem_append.mpr ((List.mem_append.mp isItem).imp id ih)
  | expression _ _ _ _ _ ih =>
    rw [marksOf_append]
    exact List.mem_append_right _ (ih isItem)
  | inner _ _ _ _ _ _ ih =>
    rw [marksOf_inner]
    exact List.mem_append_right _ (ih isItem)
  | statement _ _ _ _ ih =>
    rw [marksOf_append]
    exact List.mem_append_right _ (ih isItem)

end Written

section Nesting

/-- Meanings in order nest in order. -/
theorem nesting_append (marks more : List Mark) (depth : Nat) :
    nesting (marks ++ more) depth = (nesting marks depth).bind (nesting more) := by
  induction marks, depth using nesting.induct with
  | case1 => rfl
  | case4 => rfl
  | case2 rest depth ih => exact ih
  | case3 rest depth ih => exact ih
  | case5 mark rest depth notOpens notCloses ih =>
    rw [List.cons_append]
    rw [nesting, nesting]
    all_goals first | exact ih | assumption

/-- Meanings that are no braces open and close none. -/
theorem nesting_of_no_brace {marks : List Mark} (depth : Nat)
    (noBrace : ∀ mark ∈ marks, mark ≠ .opens ∧ mark ≠ .closes) :
    nesting marks depth = some depth := by
  induction marks with
  | nil => rfl
  | cons mark rest ih =>
    have others := ih fun other inRest => noBrace other (List.mem_cons_of_mem _ inRest)
    obtain ⟨notOpens, notCloses⟩ := noBrace mark List.mem_cons_self
    rw [nesting]
    all_goals first | exact others | grind

/-- The braces of a statement are closed as they are opened. -/
theorem statementItems_nesting {pending : List NodeId} {kind : NodeKind} (level depth : Nat)
    (id : NodeId) :
    nesting (itemMarks (statementItems registry arena pending level id kind)) depth =
      some depth := by
  cases kind with
  | block locals statements =>
    refine nesting_of_no_brace depth fun mark isMark => ?_
    have isOf := statementItems_of isMark
    rw [statementItems, (blockItems_spec ..).1] at isMark
    grind
  | assign target value =>
    rw [statementItems]
    split <;> rfl
  | _ => rfl

/-- What is written opens and closes the braces that its items do. -/
theorem Writes.nesting_eq {pending after : List NodeId} {items : List Item} {pieces : List Piece}
    (written : Writes registry arena pending items pieces after) (depth : Nat) :
    nesting (marksOf pieces) depth = nesting (itemMarks items) depth := by
  induction written generalizing depth with
  | nil => rfl
  | piece piece _ ih =>
    rw [marksOf_cons, itemMarks_piece, nesting_append, nesting_append]
    rw [funext ih]
  | expression _ isPlain _ _ insideIh ih =>
    rw [marksOf_append, nesting_append, insideIh, (expressionItems_spec isPlain).1]
    split <;> exact ih depth
  | inner _ _ _ _ _ insideIh ih =>
    rw [marksOf_inner, nesting_append, nesting, nesting_append, insideIh]
    exact ih depth
  | statement _ _ _ insideIh ih =>
    rw [marksOf_append, nesting_append, insideIh, statementItems_nesting]
    exact ih depth

end Nesting

section Pending

variable {pending after : List NodeId} {items : List Item} {pieces : List Piece}
  {binding : NodeId}

/-- What is to be introduced when a statement is begun was so before, or the statement is a block
that lists it. -/
theorem mem_pendingIn {kind : NodeKind} (isPending : binding ∈ pendingIn arena pending kind) :
    binding ∈ pending ∨ ∃ locals statements, kind = .block locals statements ∧
      binding ∈ arena.list locals := by
  cases kind with
  | block locals statements =>
    obtain isIntroduced | isBefore := List.mem_append.mp isPending
    · exact .inr ⟨locals, statements, rfl,
        (List.mem_filter.mp (List.mem_reverse.mp isIntroduced)).1⟩
    · exact .inl isBefore
  | assign target value => exact .inl (List.mem_filter.mp isPending).1
  | _ => exact .inl isPending

/-- What is to be introduced when a statement is begun was so before, or the statement lists it. -/
theorem lists_of_mem_pendingIn {id : NodeId} {node : Node} (found : arena.node? id = some node)
    (isPending : binding ∈ pendingIn arena pending node.kind) :
    binding ∈ pending ∨ arena.Lists id binding :=
  (mem_pendingIn isPending).imp_right fun ⟨locals, statements, isBlock, isLocal⟩ =>
    ⟨id, locals, statements, .refl _, Arena.kind_eq_ok.mpr ⟨node, found, isBlock⟩, isLocal⟩

/-- What is still to be introduced was so before, or a block that is written lists it. -/
theorem Writes.after_mem (written : Writes registry arena pending items pieces after)
    (isPending : binding ∈ after) :
    binding ∈ pending ∨ ∃ root ∈ nodesOf items, arena.Lists root binding := by
  induction written with
  | nil => exact .inl isPending
  | piece _ _ ih => exact ih isPending
  | expression _ _ _ _ _ ih | inner _ _ _ _ _ _ ih =>
    exact (ih isPending).imp_right fun ⟨root, isRoot, listed⟩ =>
      ⟨root, List.mem_cons_of_mem _ isRoot, listed⟩
  | statement found _ _ insideIh ih =>
    obtain isBetween | ⟨root, isRoot, listed⟩ := ih isPending
    · obtain isInside | ⟨root, isRoot, listed⟩ := insideIh isBetween
      · exact (lists_of_mem_pendingIn found isInside).imp_right fun listed =>
          ⟨_, List.mem_cons_self, listed⟩
      · exact .inr ⟨_, List.mem_cons_self, listed.trans (reaches_of_statementItems found isRoot)⟩
    · exact .inr ⟨root, List.mem_cons_of_mem _ isRoot, listed⟩

/-- A variable that is not part of what is written is still to be introduced afterwards. -/
theorem Writes.keeps (written : Writes registry arena pending items pieces after)
    (apart : ∀ root ∈ nodesOf items, ¬ arena.Reaches root binding) (isPending : binding ∈ pending) :
    binding ∈ after := by
  induction written with
  | nil => exact isPending
  | piece _ _ ih => exact ih apart isPending
  | expression _ _ _ _ _ ih | inner _ _ _ _ _ _ ih =>
    exact ih (fun root isRoot => apart root (List.mem_cons_of_mem _ isRoot)) isPending
  | @statement pending _ _ _ _ _ _ id node found _ _ insideIh ih =>
    have unreached := apart id List.mem_cons_self
    refine ih (fun root isRoot => apart root (List.mem_cons_of_mem _ isRoot)) (insideIh ?_ ?_)
    · exact fun root isRoot reached =>
        unreached ((reaches_of_statementItems found isRoot).trans reached)
    · have known : arena.kind id = .ok node.kind := Arena.kind_eq_ok.mpr ⟨node, found, rfl⟩
      cases sort : node.kind with
      | block locals statements => exact List.mem_append_right _ isPending
      | assign target value =>
        rw [sort] at known
        refine List.mem_filter.mpr ⟨isPending, decide_eq_true fun isTarget => unreached ?_⟩
        exact .child known (isTarget ▸ List.mem_cons_self) (.refl _)
      | _ => exact isPending

/-- A statement introduces a variable only if it is to be introduced. -/
theorem mem_of_introduces {level : Nat} {id statement : NodeId} {kind : NodeKind}
    (isMark : .introduces binding statement ∈
      itemMarks (statementItems registry arena pending level id kind)) : binding ∈ pending := by
  obtain ⟨-, value, rfl⟩ := statementItems_of isMark
  rw [statementItems] at isMark
  split at isMark
  next isPending => exact isPending
  next => cases isMark

/-- A variable is introduced by an assignment only if it was to be introduced, or a block that is
written lists it. -/
theorem Writes.introduces_mem (written : Writes registry arena pending items pieces after)
    {statement : NodeId} (isMark : .introduces binding statement ∈ marksOf pieces) :
    .introduces binding statement ∈ itemMarks items ∨ binding ∈ pending ∨
      ∃ root ∈ nodesOf items, arena.Lists root binding := by
  induction written with
  | nil => cases isMark
  | piece piece _ ih =>
    rw [marksOf_cons] at isMark
    rw [itemMarks_piece]
    obtain isPiece | isLater := List.mem_append.mp isMark
    · exact .inl (List.mem_append_left _ isPiece)
    · exact (ih isLater).imp_left (List.mem_append_right _)
  | expression found isPlain _ _ insideIh ih =>
    rw [marksOf_append] at isMark
    obtain isOwn | isLater := List.mem_append.mp isMark
    · obtain isItem | isNone | ⟨root, isRoot, listed⟩ := insideIh isOwn
      · rw [(expressionItems_spec isPlain).1] at isItem
        split at isItem
        next => cases List.mem_singleton.mp isItem
        next => cases isItem
      · cases isNone
      · exact .inr (.inr ⟨_, List.mem_cons_self,
          listed.trans (reaches_of_expressionItems found isPlain isRoot)⟩)
    · exact (ih isLater).imp_right (Or.imp_right fun ⟨root, isRoot, listed⟩ =>
        ⟨root, List.mem_cons_of_mem _ isRoot, listed⟩)
  | inner _ _ _ _ _ insideIh ih =>
    simp only [marksOf_inner, List.mem_append, List.mem_cons, List.not_mem_nil, reduceCtorEq,
      false_or, or_false] at isMark
    obtain isOwn | isLater := isMark
    · obtain isItem | isNone | ⟨root, isRoot, listed⟩ := insideIh isOwn
      · cases isItem
      · cases isNone
      · exact .inr (.inr ⟨_, List.mem_cons_self, List.mem_singleton.mp isRoot ▸ listed⟩)
    · exact (ih isLater).imp_right (Or.imp_right fun ⟨root, isRoot, listed⟩ =>
        ⟨root, List.mem_cons_of_mem _ isRoot, listed⟩)
  | @statement pending _ _ _ _ _ level id node found inside _ insideIh ih =>
    rw [marksOf_append] at isMark
    obtain isOwn | isLater := List.mem_append.mp isMark
    · obtain isItem | isInside | ⟨root, isRoot, listed⟩ := insideIh isOwn
      · exact .inr (.inl (mem_of_introduces isItem))
      · exact .inr ((lists_of_mem_pendingIn found isInside).imp_right fun listed =>
          ⟨id, List.mem_cons_self, listed⟩)
      · exact .inr (.inr ⟨id, List.mem_cons_self,
          listed.trans (reaches_of_statementItems found isRoot)⟩)
    · obtain isItem | isBetween | ⟨root, isRoot, listed⟩ := ih isLater
      · exact .inl isItem
      · obtain isInside | ⟨root, isRoot, listed⟩ := inside.after_mem isBetween
        · exact .inr ((lists_of_mem_pendingIn found isInside).imp_right fun listed =>
            ⟨id, List.mem_cons_self, listed⟩)
        · exact .inr (.inr ⟨id, List.mem_cons_self,
            listed.trans (reaches_of_statementItems found isRoot)⟩)
      · exact .inr (.inr ⟨root, List.mem_cons_of_mem _ isRoot, listed⟩)

end Pending

/-- What a statement gets to, itself and its variables apart, one of its items gets to. -/
theorem exists_statementItems_reaches (formed : arena.Formed registry) {id target : NodeId}
    {node : Node} (found : arena.node? id = some node) (reached : arena.Reaches id target)
    (other : isExpression node.kind = false → id ≠ target)
    (unlisted : ∀ locals statements, node.kind = .block locals statements →
      target ∉ arena.list locals) (pending : List NodeId) (level : Nat) :
    ∃ part ∈ nodesOf (statementItems registry arena pending level id node.kind),
      arena.Reaches part target := by
  have known : arena.kind id = .ok node.kind := Arena.kind_eq_ok.mpr ⟨node, found, rfl⟩
  have ofChild (isStatement : isExpression node.kind = false) :
      ∃ part ∈ arena.children node.kind, arena.Reaches part target := by
    cases reached with
    | refl => exact absurd rfl (other isStatement)
    | child knownToo isChild reached =>
      rw [← Except.ok.inj (knownToo.symm.trans known)]
      exact ⟨_, isChild, reached⟩
  have ofSelf (isPart : id ∈ nodesOf (statementItems registry arena pending level id node.kind)) :
      ∃ part ∈ nodesOf (statementItems registry arena pending level id node.kind),
        arena.Reaches part target := ⟨id, isPart, reached⟩
  cases sort : node.kind with
  | block locals statements =>
    rw [sort] at ofChild
    obtain ⟨part, isChild, reached⟩ := ofChild rfl
    rw [statementItems, (blockItems_spec ..).2]
    obtain isLocal | isStatement := List.mem_append.mp isChild
    · obtain ⟨name, isVar⟩ := (formed id node found).locals locals statements sort part isLocal
      obtain rfl := reached.of_leaf isVar rfl
      exact absurd isLocal (unlisted locals statements sort)
    · exact ⟨part, List.mem_append_right _ isStatement, reached⟩
  | ifThen | ifThenElse | loop | breakTo | tryFinally =>
    rw [sort] at ofChild
    simpa [statementItems, bracedItems, Arena.children] using ofChild rfl
  | assign target value =>
    rw [sort] at ofSelf
    refine ofSelf ?_
    rw [statementItems]
    split <;> exact List.mem_singleton_self _
  | _ =>
    rw [sort] at ofSelf
    exact ofSelf List.mem_cons_self

/-- A variable that is part of what is written is mentioned, unless a block that is written lists
it. -/
theorem Writes.mentions (formed : arena.Formed registry) {binding : NodeId} {name : String}
    (isVariable : arena.kind binding = .ok (.var name)) {pending after : List NodeId}
    {items : List Item} {pieces : List Piece}
    (written : Writes registry arena pending items pieces after) {root : NodeId}
    (isRoot : root ∈ nodesOf items) (reached : arena.Reaches root binding)
    (unlisted : ¬ arena.Lists root binding) : .mentions binding ∈ marksOf pieces := by
  induction written generalizing root with
  | nil => cases isRoot
  | piece piece _ ih =>
    rw [marksOf_cons]
    exact List.mem_append_right _ (ih isRoot reached unlisted)
  | @expression _ _ _ _ _ _ id node found isPlain inside _ insideIh ih =>
    rw [marksOf_append]
    obtain rfl | isLater := List.mem_cons.mp isRoot
    · refine List.mem_append_left _ ?_
      cases reached with
      | refl =>
        have known : arena.kind binding = .ok node.kind := Arena.kind_eq_ok.mpr ⟨node, found, rfl⟩
        have isVar : node.kind = .var name := Except.ok.inj (known.symm.trans isVariable)
        apply inside.itemMarks_subset
        rw [(expressionItems_spec isPlain).1, isVar]
        exact List.mem_cons_self
      | @child _ part _ _ known isChild reached =>
        obtain ⟨other, foundToo, rfl⟩ := Arena.kind_eq_ok.mp known
        obtain rfl := Option.some.inj (found.symm.trans foundToo)
        refine insideIh ?_ reached fun listed =>
          unlisted (listed.trans (.child known isChild (.refl _)))
        rw [(expressionItems_spec isPlain).2]
        exact isChild
    · exact List.mem_append_right _ (ih isLater reached unlisted)
  | inner _ _ _ _ _ insideIh ih =>
    rw [marksOf_inner]
    obtain rfl | isLater := List.mem_cons.mp isRoot
    · have isInside := insideIh List.mem_cons_self reached unlisted
      exact List.mem_append_left _ (List.mem_cons_of_mem _ (List.mem_append_left _ isInside))
    · exact List.mem_append_right _ (ih isLater reached unlisted)
  | @statement pending _ _ _ _ _ level id node found _ _ insideIh ih =>
    rw [marksOf_append]
    obtain rfl | isLater := List.mem_cons.mp isRoot
    · refine List.mem_append_left _ ?_
      have known : arena.kind root = .ok node.kind := Arena.kind_eq_ok.mpr ⟨node, found, rfl⟩
      obtain ⟨part, isPart, further⟩ := exists_statementItems_reaches formed found reached
        (by
          rintro isStatement rfl
          rw [Except.ok.inj (known.symm.trans isVariable)] at isStatement
          cases isStatement)
        (fun locals statements isBlock isLocal => unlisted
          ⟨root, locals, statements, .refl _, isBlock ▸ known, isLocal⟩) pending level
      exact insideIh isPart further fun listed =>
        unlisted (listed.trans (reaches_of_statementItems found isPart))
    · exact List.mem_append_right _ (ih isLater reached unlisted)

end Foreach.Source
