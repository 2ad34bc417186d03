import Foreach.Proofs.Source.Standing

/-!
# Where variables are introduced

A variable of a block ought to be introduced once, at the level of the block, and before it is
mentioned (`IntroducedOnce`). It is if no statement of the block assigns to it, and if the first
statement that has to do with it is an assignment that is not returned, and it is not otherwise
(`Assembled.introduced_once_iff`): the text of a variable that a nested statement assigns to first
declares it there, inside other braces.
-/
namespace Foreach

namespace Source

variable {registry : Registry} {arena : Arena} {binding : NodeId}

/-- A variable of a block is introduced by a meaning: there are some meanings before the block is
begun, some between that and the introduction, and the rest. -/
structure IntroducedAt (arena : Arena) (block binding : NodeId) (locals statements : List NodeId)
    (before inside : List Mark) (mark : Mark) (rest : List Mark) : Prop where
  /-- It is declared with its type after other declarations, or one of the statements of the block,
  an assignment to it, introduces it. -/
  place : (mark = .declares binding ∧
      ∀ other ∈ inside, ∃ sibling ∈ locals, other = .declares sibling ∨ other = .mentions sibling) ∨
    ∃ statement ∈ statements, isKind arena (isAssignmentTo binding) statement = true ∧
      mark = .introduces binding statement
  /-- It is introduced at the level of the block. -/
  level : nesting inside 0 = some 0
  /-- The block is not left before. -/
  within : .leaves block ∉ inside
  /-- Nothing before is about the variable. -/
  first : ∀ other ∈ before ++ inside, other.concerns binding = false
  /-- Nothing after introduces it again. -/
  once : ∀ other ∈ rest, other.isIntroduction binding = false

/-- A variable of a block is introduced once, at the level of the block and before it is
mentioned. -/
def IntroducedOnce (arena : Arena) (block binding : NodeId) (locals statements : List NodeId)
    (marks : List Mark) : Prop :=
  ∃ before inside mark rest, marks = before ++ .enters block :: (inside ++ mark :: rest) ∧
    IntroducedAt arena block binding locals statements before inside mark rest

/-- No statement of a block assigns to a variable that the block lists once, or the first statement
of the block that has to do with the variable is an assignment to it that is not returned. -/
def AssignedFirst (arena : Arena) (binding : NodeId) (yields : Bool)
    (locals statements : List NodeId) : Prop :=
  (assignsTo arena statements binding = false ∧ locals.count binding = 1) ∨
  ∃ before statement after, statements = before ++ statement :: after ∧
    isKind arena (isAssignmentTo binding) statement = true ∧
    (∀ earlier ∈ before, ¬ arena.Reaches earlier binding) ∧ (yields = true → after ≠ [])

/-- What variables are declared with. -/
def declarationMarks (bindings : List NodeId) : List Mark :=
  bindings.flatMap fun binding => [.declares binding, .mentions binding]

/-- What introduces a variable is about it. -/
theorem Mark.concerns_of_isIntroduction {mark : Mark}
    (introduces : mark.isIntroduction binding = true) : mark.concerns binding = true := by
  cases mark <;> first | exact introduces | cases introduces

section Sequences

variable {level : Nat} {yields : Bool}

/-- Statements with others after them. -/
def spacedItems (arena : Arena) (level : Nat) (statements : List NodeId) : List Item :=
  statements.flatMap fun statement => .statement level statement ::
    (if isKind arena isMultiLine statement then [.line Line.blank.level] else [])

/-- The first of some statements with others after them. -/
theorem spacedItems_cons (next : NodeId) (rest : List NodeId) :
    spacedItems arena level (next :: rest) = .statement level next ::
      ((if isKind arena isMultiLine next then [.line Line.blank.level] else []) ++
        spacedItems arena level rest) := List.flatMap_cons

/-- Statements with others after them are these statements. -/
theorem spacedItems_spec (statements : List NodeId) :
    itemMarks (spacedItems arena level statements) = [] ∧
      nodesOf (spacedItems arena level statements) = statements := by
  induction statements with
  | nil => exact ⟨rfl, rfl⟩
  | cons next rest ih =>
    rw [spacedItems_cons]
    split <;> exact ⟨ih.1, congrArg (next :: ·) ih.2⟩

/-- Statements are written one after the other. -/
theorem sequenceItems_append (before : List NodeId) (statement : NodeId) (after : List NodeId) :
    sequenceItems arena level yields (before ++ statement :: after) =
      spacedItems arena level before ++ sequenceItems arena level yields (statement :: after) := by
  induction before with
  | nil => rfl
  | cons next rest ih =>
    obtain ⟨second, more, same⟩ : ∃ second more, rest ++ statement :: after = second :: more := by
      cases rest <;> exact ⟨_, _, rfl⟩
    rw [List.cons_append, same, sequenceItems, ← same, ih, spacedItems_cons, List.cons_append,
      List.append_assoc]
    simp

/-- The first of several statements that is not returned is written first. -/
theorem exists_sequenceItems_cons (arena : Arena) (level : Nat) (statement : NodeId)
    (after : List NodeId) (goesOn : yields = true → after ≠ []) :
    ∃ others, sequenceItems arena level yields (statement :: after) =
        .statement level statement :: others ∧
      (∀ mark ∈ itemMarks others, ∃ value, mark = .returns value) ∧ nodesOf others = after := by
  cases after with
  | nil =>
    have stops : yields = false := by
      cases yields with
      | false => rfl
      | true => exact absurd rfl (goesOn rfl)
    exact ⟨[], by rw [sequenceItems, stops, Bool.false_and]; rfl, by simp, rfl⟩
  | cons second more =>
    refine ⟨_, by rw [sequenceItems]; simp, ?_, ?_⟩
    · intro mark isMark
      rw [itemMarks_append, (sequenceItems_spec ..).1] at isMark
      split at isMark <;> split at isMark <;> simp at isMark <;> grind
    · rw [nodesOf_append, (sequenceItems_spec ..).2]
      split <;> rfl

end Sequences

section Segments

variable {pending after : List NodeId} {pieces : List Piece} {name : String} {level : Nat}

/-- A variable is written as a mention of it. -/
theorem Writes.variable (isVariable : arena.kind binding = .ok (.var name)) {rest : List Item}
    (written : Writes registry arena pending (.expression binding :: rest) pieces after) :
    ∃ more, marksOf pieces = .mentions binding :: marksOf more ∧
      Writes registry arena pending rest more after := by
  obtain ⟨node, found, sort⟩ := Arena.kind_eq_ok.mp isVariable
  cases written with
  | expression foundToo isPlain inside later =>
    obtain rfl := Option.some.inj (found.symm.trans foundToo)
    rw [expressionItems, sort] at inside
    cases inside with
    | piece piece inside =>
      cases inside
      exact ⟨_, rfl, later⟩
  | inner foundToo notPlain =>
    obtain rfl := Option.some.inj (found.symm.trans foundToo)
    rw [sort] at notPlain
    cases notPlain

/-- Declarations are written as declarations, and nothing else is to be introduced afterwards. -/
theorem Writes.declarations {bindings : List NodeId}
    (areVariables : ∀ binding ∈ bindings, ∃ name, arena.kind binding = .ok (.var name))
    (written : Writes registry arena pending
      (bindings.flatMap (declarationItems registry arena level)) pieces after) :
    after = pending ∧
      marksOf pieces = declarationMarks bindings := by
  induction bindings generalizing pieces with
  | nil =>
    cases written
    exact ⟨rfl, rfl⟩
  | cons binding rest ih =>
    obtain ⟨name, isVariable⟩ := areVariables binding List.mem_cons_self
    rw [List.flatMap_cons, declarationItems] at written
    cases written with
    | piece _ written =>
      cases written with
      | piece _ written =>
        obtain ⟨more, marks, written⟩ := written.variable isVariable
        cases written with
        | piece _ written =>
          obtain ⟨same, others⟩ :=
            ih (fun other inRest => areVariables other (List.mem_cons_of_mem _ inRest)) written
          refine ⟨same, ?_⟩
          simp [Piece.mark?, marks, others, declarationMarks]

/-- A node that passes for an assignment to a variable is one. -/
theorem exists_assign {statement : NodeId} {node : Node} (found : arena.node? statement = some node)
    (isAssigned : isKind arena (isAssignmentTo binding) statement = true) :
    ∃ value, node.kind = .assign binding value := by
  rw [isKind_eq _ found] at isAssigned
  cases sort : node.kind with
  | assign target value =>
    rw [sort] at isAssigned
    exact ⟨value, of_decide_eq_true isAssigned ▸ rfl⟩
  | _ =>
    rw [sort] at isAssigned
    cases isAssigned

/-- An assignment is written inside a line. -/
theorem isExpression_of_assigned {statement : NodeId}
    (isAssigned : isKind arena (isAssignmentTo binding) statement = true) :
    isKind arena isExpression statement = true := by
  rw [isKind] at isAssigned
  split at isAssigned
  next node found =>
    obtain ⟨value, sort⟩ := exists_assign found (by rwa [isKind_eq _ found])
    rw [isKind_eq _ found, sort]
    rfl
  next => cases isAssigned

/-- The first assignment to a variable that is to be introduced introduces it. -/
theorem Writes.introduces {statement : NodeId} {rest : List Item}
    (isAssigned : isKind arena (isAssignmentTo binding) statement = true)
    (isPending : binding ∈ pending)
    (written : Writes registry arena pending (.statement level statement :: rest) pieces after) :
    ∃ own middle more,
      marksOf pieces = .introduces binding statement :: (marksOf own ++ marksOf more) ∧
      Writes registry arena (pending.filter (· ≠ binding)) [.expression statement, .word ";"] own
        middle ∧
      Writes registry arena middle rest more after := by
  cases written with
  | @statement _ middle _ _ own more _ _ node found inside later =>
    obtain ⟨value, sort⟩ := exists_assign found isAssigned
    rw [sort, pendingIn, statementItems, if_pos isPending] at inside
    cases inside with
    | piece _ inside =>
      cases inside with
      | piece _ inside =>
        exact ⟨_, middle, more, by simp [Piece.mark?], inside, later⟩

/-- What has no block that lists a variable does not introduce it, unless it is to be introduced. -/
theorem Writes.no_introduction {items : List Item}
    (written : Writes registry arena pending items pieces after) (absent : binding ∉ pending)
    (unlisted : ∀ root ∈ nodesOf items, ¬ arena.Lists root binding)
    (plain : ∀ mark ∈ itemMarks items, mark.isIntroduction binding = false) :
    binding ∉ after ∧ ∀ mark ∈ marksOf pieces, mark.isIntroduction binding = false := by
  constructor
  · intro isPending
    obtain isBefore | ⟨root, isRoot, listed⟩ := written.after_mem isPending
    · exact absent isBefore
    · exact unlisted root isRoot listed
  · intro mark isMark
    refine Bool.eq_false_iff.mpr fun introduces => ?_
    cases mark with
    | declares other =>
      obtain rfl := of_decide_eq_true introduces
      obtain isItem | ⟨root, isRoot, id, kind, reached, known, locals, statements, rfl, isFirst⟩ :=
        written.provenance isMark
      · exact Bool.false_ne_true ((plain _ isItem).symm.trans introduces)
      · exact unlisted root isRoot
          ⟨id, locals, statements, reached, known, (List.mem_filter.mp isFirst).1⟩
    | introduces other statement =>
      obtain rfl := of_decide_eq_true introduces
      obtain isItem | isPending | ⟨root, isRoot, listed⟩ := written.introduces_mem isMark
      · exact Bool.false_ne_true ((plain _ isItem).symm.trans introduces)
      · exact absent isPending
      · exact unlisted root isRoot listed
    | _ => cases introduces

/-- Statements that have nothing to do with a variable are written without a meaning about it. -/
theorem Writes.spaced_silent {first : List NodeId}
    (written : Writes registry arena pending (spacedItems arena level first) pieces after)
    (untouched : ∀ earlier ∈ first, ¬ arena.Reaches earlier binding) :
    ∀ mark ∈ marksOf pieces, mark.concerns binding = false :=
  written.silent (fun root isRoot => untouched root ((spacedItems_spec first).2 ▸ isRoot))
    (by rw [(spacedItems_spec first).1]; simp)

/-- A meaning in what is written for statements belongs to one of them. -/
theorem Writes.from_spaced {first : List NodeId} {mark : Mark}
    (written : Writes registry arena pending (spacedItems arena level first) pieces after)
    (isMark : mark ∈ marksOf pieces) : ∃ root ∈ first, mark.From arena root := by
  obtain isItem | ⟨root, isRoot, isFrom⟩ := written.provenance isMark
  · rw [(spacedItems_spec first).1] at isItem
    cases isItem
  · rw [(spacedItems_spec first).2] at isRoot
    exact ⟨root, isRoot, isFrom⟩

end Segments

section Declarations

/-- A meaning in a declaration is one of a declared variable. -/
theorem mem_declarationMarks {bindings : List NodeId} {mark : Mark}
    (isMark : mark ∈ declarationMarks bindings) :
    ∃ binding ∈ bindings, mark = .declares binding ∨ mark = .mentions binding := by
  simpa [declarationMarks] using isMark

/-- Declarations of other variables are not about a variable. -/
theorem declarationMarks_silent {bindings : List NodeId} (absent : binding ∉ bindings) :
    ∀ mark ∈ declarationMarks bindings, mark.concerns binding = false := by
  intro mark isMark
  obtain ⟨other, isListed, rfl | rfl⟩ := mem_declarationMarks isMark <;>
    exact decide_eq_false fun same => absent (same ▸ isListed)

/-- Declarations have no braces. -/
theorem declarationMarks_nesting (bindings : List NodeId) (depth : Nat) :
    nesting (declarationMarks bindings) depth = some depth :=
  nesting_of_no_brace depth fun mark isMark => by
    obtain ⟨other, -, rfl | rfl⟩ := mem_declarationMarks isMark <;> simp

/-- Declarations leave no block. -/
theorem leaves_not_mem_declarationMarks (bindings : List NodeId) (block : NodeId) :
    .leaves block ∉ declarationMarks bindings := by
  intro isMark
  obtain ⟨other, -, same | same⟩ := mem_declarationMarks isMark <;> cases same

/-- A declaration introduces each variable as often as it is listed. -/
theorem count_declarationMarks (bindings : List NodeId) (binding : NodeId) :
    (declarationMarks bindings).count (.declares binding) = bindings.count binding := by
  induction bindings with
  | nil => rfl
  | cons other rest ih =>
    rw [declarationMarks] at ih ⊢
    simp [List.flatMap_cons, List.count_cons, ih]

end Declarations

section Blocks

variable {block : NodeId} {locals statements pending after : List NodeId} {own : List Piece}
  {before later : List Mark} {level : Nat} {yields : Bool}

/-- A block is written as its declarations and its statements. -/
theorem Writes.block_parts
    (areVariables : ∀ binding ∈ locals, ∃ name, arena.kind binding = .ok (.var name))
    (written : Writes registry arena pending
      (blockItems registry arena level block yields locals statements) own after) :
    ∃ middle sequence, marksOf own = .enters block ::
        (declarationMarks (declaredFirst arena locals statements) ++
          (marksOf sequence ++ [.leaves block])) ∧
      Writes registry arena pending (sequenceItems arena level yields statements) sequence
        middle := by
  rw [blockItems, List.append_assoc] at written
  cases written with
  | piece _ written =>
    obtain ⟨_, first, second, rfl, declared, writtenLater⟩ := written.split
    obtain ⟨rfl, marks⟩ := declared.declarations fun binding isFirst =>
      areVariables binding (List.mem_filter.mp isFirst).1
    obtain ⟨middle, sequence, last, rfl, writtenSequence, left⟩ := writtenLater.split
    cases left with
    | piece _ left =>
      cases left
      exact ⟨_, sequence, by simp [Piece.mark?, marks, declaredFirst], writtenSequence⟩

variable (areVariables : ∀ binding ∈ locals, ∃ name, arena.kind binding = .ok (.var name))
  (written : Writes registry arena ((introducedThere arena locals statements).reverse ++ pending)
    (blockItems registry arena level block yields locals statements) own after)
  (unlisted : ∀ statement ∈ statements, ¬ arena.Lists statement binding)
  (absent : binding ∉ pending)
  (unconcerned : ∀ mark ∈ before ++ later, mark.concerns binding = false)

/-- A variable that a statement of its block assigns to is not declared before the statements. -/
theorem undeclared_of_assigned (locals : List NodeId)
    (assigned : assignsTo arena statements binding = true) :
    binding ∉ declaredFirst arena locals statements := by
  intro isFirst
  have unassigned := (List.mem_filter.mp isFirst).2
  rw [assigned] at unassigned
  cases unassigned

/-- What is not about a variable does not introduce it. -/
theorem not_isIntroduction {mark : Mark} (unconcerned : mark.concerns binding = false) :
    mark.isIntroduction binding = false :=
  Bool.eq_false_iff.mpr fun introduces =>
    Bool.false_ne_true (unconcerned.symm.trans (Mark.concerns_of_isIntroduction introduces))

include areVariables written unlisted absent unconcerned in
/-- A variable that no statement of its block assigns to is declared before the statements. -/
theorem declared_once (unassigned : assignsTo arena statements binding = false)
    (single : locals.count binding = 1) :
    IntroducedOnce arena block binding locals statements (before ++ marksOf own ++ later) := by
  obtain ⟨middle, sequence, marks, written⟩ := written.block_parts areVariables
  have listed : binding ∈ declaredFirst arena locals statements :=
    List.mem_filter.mpr ⟨List.count_pos_iff.mp (single ▸ Nat.one_pos), by simp [unassigned]⟩
  obtain ⟨earlier, others, split, notEarlier⟩ := List.eq_append_cons_of_mem listed
  have notOthers : binding ∉ others := by
    have counted : (declaredFirst arena locals statements).count binding = 1 := by
      rw [declaredFirst, List.count_filter (by simp [unassigned]), single]
    rw [split, List.count_append, List.count_cons_self] at counted
    exact List.count_eq_zero.mp (by omega)
  have pendingAbsent : binding ∉ (introducedThere arena locals statements).reverse ++ pending := by
    intro isPending
    obtain isIntroduced | isBefore := List.mem_append.mp isPending
    · have assigned := (List.mem_filter.mp (List.mem_reverse.mp isIntroduced)).2
      exact Bool.false_ne_true (unassigned.symm.trans assigned)
    · exact absent isBefore
  obtain ⟨-, quiet⟩ := written.no_introduction pendingAbsent
    (fun root isRoot => unlisted root (by rwa [(sequenceItems_spec ..).2] at isRoot))
    (fun mark isMark => by
      rw [(sequenceItems_spec ..).1] at isMark
      split at isMark
      · obtain ⟨value, -, rfl⟩ := List.mem_map.mp isMark
        rfl
      · cases isMark)
  refine ⟨before, declarationMarks earlier, .declares binding, .mentions binding ::
    (declarationMarks others ++ (marksOf sequence ++ .leaves block :: later)), ?_, ?_⟩
  · rw [marks, split]
    simp [declarationMarks]
  · refine ⟨.inl ⟨rfl, fun other isMark => ?_⟩, declarationMarks_nesting earlier 0,
      leaves_not_mem_declarationMarks earlier block, fun other isMark => ?_, fun other isMark => ?_⟩
    · obtain ⟨sibling, isEarlier, same⟩ := mem_declarationMarks isMark
      have isFirst : sibling ∈ declaredFirst arena locals statements :=
        split ▸ List.mem_append_left _ isEarlier
      exact ⟨sibling, (List.mem_filter.mp isFirst).1, same⟩
    · obtain isBefore | isInside := List.mem_append.mp isMark
      · exact unconcerned other (List.mem_append_left _ isBefore)
      · exact declarationMarks_silent notEarlier other isInside
    · simp only [List.mem_cons, List.mem_append] at isMark
      obtain rfl | isOther | isSequence | rfl | isLater := isMark
      · rfl
      · exact not_isIntroduction (declarationMarks_silent notOthers other isOther)
      · exact quiet other isSequence
      · rfl
      · exact not_isIntroduction (unconcerned other (List.mem_append_right _ isLater))

include areVariables written unlisted unconcerned in
/-- A variable whose first statement is an assignment that is not returned is introduced there. -/
theorem assigned_once (listed : binding ∈ locals)
    (apart : ∀ statement ∈ statements, ¬ arena.Reaches statement block)
    {first rest : List NodeId} {statement : NodeId}
    (split : statements = first ++ statement :: rest)
    (isAssigned : isKind arena (isAssignmentTo binding) statement = true)
    (untouched : ∀ earlier ∈ first, ¬ arena.Reaches earlier binding)
    (goesOn : yields = true → rest ≠ []) :
    IntroducedOnce arena block binding locals statements (before ++ marksOf own ++ later) := by
  obtain ⟨last, sequence, marks, written⟩ := written.block_parts areVariables
  have assigned : assignsTo arena statements binding = true :=
    List.any_eq_true.mpr ⟨statement, by simp [split], isAssigned⟩
  have isPending : binding ∈ (introducedThere arena locals statements).reverse ++ pending :=
    List.mem_append_left _ (List.mem_reverse.mpr (List.mem_filter.mpr ⟨listed, assigned⟩))
  have undeclared := undeclared_of_assigned locals assigned
  obtain ⟨others, isSequence, areReturns, nodes⟩ :=
    exists_sequenceItems_cons arena level statement rest goesOn
  have inOrder : sequenceItems arena level yields statements =
      spacedItems arena level first ++ .statement level statement :: others := by
    rw [split, sequenceItems_append, isSequence]
  rw [inOrder] at written
  obtain ⟨middle, spaced, more, rfl, writtenFirst, writtenMore⟩ := written.split
  have stillPending : binding ∈ middle := writtenFirst.keeps
    (fun root isRoot => untouched root ((spacedItems_spec first).2 ▸ isRoot)) isPending
  obtain ⟨value, between, tail, moreMarks, writtenValue, writtenTail⟩ :=
    writtenMore.introduces isAssigned stillPending
  have isPart : statement ∈ statements := by simp [split]
  obtain ⟨betweenAbsent, quietValue⟩ := writtenValue.no_introduction (by simp)
    (fun root isRoot => List.mem_singleton.mp isRoot ▸ unlisted statement isPart) (by simp)
  obtain ⟨-, quietTail⟩ := writtenTail.no_introduction betweenAbsent
    (fun root isRoot => unlisted root (by rw [nodes] at isRoot; simp [split, isRoot]))
    (fun mark isMark => by
      obtain ⟨value, rfl⟩ := areReturns mark isMark
      rfl)
  refine ⟨before, declarationMarks (declaredFirst arena locals statements) ++ marksOf spaced,
    .introduces binding statement, marksOf value ++ (marksOf tail ++ .leaves block :: later), ?_,
    ?_⟩
  · rw [marks, marksOf_append, moreMarks]
    simp
  · refine ⟨.inr ⟨statement, isPart, isAssigned, rfl⟩, ?_, ?_, fun other isMark => ?_,
      fun other isMark => ?_⟩
    · rw [nesting_append, declarationMarks_nesting, Option.bind_some, writtenFirst.nesting_eq,
        (spacedItems_spec first).1]
      rfl
    · intro isMark
      obtain isDeclared | isFirst := List.mem_append.mp isMark
      · exact leaves_not_mem_declarationMarks _ block isDeclared
      · obtain ⟨root, isRoot, id, kind, reached, -, same, -⟩ := writtenFirst.from_spaced isFirst
        exact apart root (by simp [split, isRoot]) (same ▸ reached)
    · simp only [List.mem_append] at isMark
      obtain isBefore | isDeclared | isFirst := isMark
      · exact unconcerned other (List.mem_append_left _ isBefore)
      · exact declarationMarks_silent undeclared other isDeclared
      · exact writtenFirst.spaced_silent untouched other isFirst
    · simp only [List.mem_append, List.mem_cons] at isMark
      obtain isValue | isTail | rfl | isLater := isMark
      · exact quietValue other isValue
      · exact quietTail other isTail
      · rfl
      · exact not_isIntroduction (unconcerned other (List.mem_append_right _ isLater))

/-- What is not about a variable does not hold the first meaning about it. -/
theorem find?_of_silent {marks more : List Mark}
    (silent : ∀ mark ∈ marks, mark.concerns binding = false) :
    (marks ++ more).find? (Mark.concerns binding) = more.find? (Mark.concerns binding) := by
  have nowhere : marks.find? (Mark.concerns binding) = none :=
    List.find?_eq_none.mpr fun mark isMark concerns =>
      Bool.false_ne_true ((silent mark isMark).symm.trans concerns)
  rw [List.find?_append, nowhere, Option.none_or]

/-- The first meaning about a variable that is introduced once introduces it. -/
theorem IntroducedOnce.find? {marks : List Mark}
    (once : IntroducedOnce arena block binding locals statements marks) :
    ∃ mark, marks.find? (Mark.concerns binding) = some mark ∧
      (mark = .declares binding ∨ ∃ statement ∈ statements,
        isKind arena (isAssignmentTo binding) statement = true ∧
          mark = .introduces binding statement) := by
  obtain ⟨earlier, inside, mark, rest, rfl, holds⟩ := once
  have introduces := holds.place.imp_left And.left
  have concerns : mark.concerns binding = true := by
    obtain rfl | ⟨statement, -, -, rfl⟩ := introduces <;> exact decide_eq_true rfl
  refine ⟨mark, ?_, introduces⟩
  have silent : ∀ other ∈ earlier ++ .enters block :: inside, other.concerns binding = false := by
    intro other isMark
    simp only [List.mem_append, List.mem_cons] at isMark
    obtain isEarlier | rfl | isInside := isMark
    · exact holds.first other (List.mem_append_left _ isEarlier)
    · rfl
    · exact holds.first other (List.mem_append_right _ isInside)
  have split : earlier ++ .enters block :: (inside ++ mark :: rest) =
      (earlier ++ .enters block :: inside) ++ mark :: rest := by simp
  rw [split, find?_of_silent silent, List.find?_cons_of_pos concerns]

/-- A variable that is introduced once is declared at most once. -/
theorem IntroducedOnce.count_le {marks : List Mark}
    (once : IntroducedOnce arena block binding locals statements marks) :
    marks.count (.declares binding) ≤ 1 := by
  obtain ⟨earlier, inside, mark, rest, rfl, holds⟩ := once
  have notBefore : (earlier ++ inside).count (.declares binding) = 0 :=
    List.count_eq_zero.mpr fun isMark => by
      have unconcerned := holds.first _ isMark
      simp [Mark.concerns] at unconcerned
  have notAfter : rest.count (.declares binding) = 0 :=
    List.count_eq_zero.mpr fun isMark => by
      have quiet := holds.once _ isMark
      simp [Mark.isIntroduction] at quiet
  rw [List.count_append] at notBefore
  simp only [List.count_append, List.count_cons, reduceCtorEq, beq_iff_eq, if_false]
  split <;> omega

/-- An assignment that is returned mentions its variable, and does not introduce it. -/
theorem Writes.returned {statement : NodeId} {name : String}
    (isVariable : arena.kind binding = .ok (.var name))
    (isAssigned : isKind arena (isAssignmentTo binding) statement = true)
    (written : Writes registry arena pending (returnItems level statement) own after) :
    ∃ more, marksOf own = .returns statement :: .mentions binding :: more := by
  cases written with
  | piece _ written =>
    cases written with
    | piece _ written =>
      cases written with
      | @expression _ _ _ _ inner pieces _ node found isPlain inside later =>
        obtain ⟨value, sort⟩ := exists_assign found isAssigned
        rw [expressionItems, sort] at inside
        obtain ⟨more, marks, -⟩ := inside.variable isVariable
        exact ⟨marksOf more ++ marksOf pieces, by simp [Piece.mark?, marks]⟩
      | inner found notPlain =>
        obtain ⟨value, sort⟩ := exists_assign found isAssigned
        rw [sort] at notPlain
        cases notPlain

/-- If the first meaning about a variable introduces it elsewhere, statements that come before have
nothing to do with the variable. -/
theorem Writes.untouched_of_find? {first : List NodeId} {mark : Mark} {more : List Mark}
    {name : String}
    (written : Writes registry arena pending (spacedItems arena level first) own after)
    (formed : arena.Formed registry) (isVariable : arena.kind binding = .ok (.var name))
    (unlisted : ∀ earlier ∈ first, ¬ arena.Lists earlier binding)
    (isFirst : (marksOf own ++ more).find? (Mark.concerns binding) = some mark)
    (elsewhere : mark = .declares binding ∨ ∃ other, mark = .introduces binding other ∧
      ∀ earlier ∈ first, ¬ arena.Reaches earlier other) :
    ∀ earlier ∈ first, ¬ arena.Reaches earlier binding := by
  intro earlier isEarlier reached
  have mentioned : .mentions binding ∈ marksOf own :=
    written.mentions formed isVariable ((spacedItems_spec first).2.symm ▸ isEarlier) reached
      (unlisted earlier isEarlier)
  have someFound : ((marksOf own).find? (Mark.concerns binding)).isSome = true :=
    List.find?_isSome.mpr ⟨_, mentioned, decide_eq_true rfl⟩
  obtain ⟨found, isFound⟩ := Option.isSome_iff_exists.mp someFound
  rw [List.find?_append, isFound, Option.some_or] at isFirst
  obtain rfl := Option.some.inj isFirst
  obtain ⟨root, isRoot, id, kind, further, known, isOf⟩ :=
    written.from_spaced (List.mem_of_find?_eq_some isFound)
  obtain rfl | ⟨other, rfl, unreached⟩ := elsewhere
  · obtain ⟨locals, statements, rfl, isDeclared⟩ := isOf
    exact unlisted root isRoot
      ⟨id, locals, statements, further, known, (List.mem_filter.mp isDeclared).1⟩
  · obtain rfl := isOf.1
    exact unreached root isRoot further

include areVariables written unlisted unconcerned in
/-- A variable that is introduced once is one that its first statement introduces, if any does. -/
theorem assignedFirst_of_once (formed : arena.Formed registry) {name : String}
    (isVariable : arena.kind binding = .ok (.var name)) (listed : binding ∈ locals)
    (alone : ∀ part ∈ statements, ∀ other ∈ statements,
      isKind arena (isAssignmentTo binding) other = true → arena.Reaches part other → part = other)
    (once : IntroducedOnce arena block binding locals statements
      (before ++ marksOf own ++ later)) :
    AssignedFirst arena binding yields locals statements := by
  obtain ⟨last, sequence, marks, written⟩ := written.block_parts areVariables
  cases assigned : assignsTo arena statements binding with
  | false =>
    refine .inl ⟨assigned, Nat.le_antisymm ?_ (List.count_pos_iff.mpr listed)⟩
    have declared : (declarationMarks (declaredFirst arena locals statements)).count
        (.declares binding) = locals.count binding := by
      rw [count_declarationMarks, declaredFirst, List.count_filter (by simp [assigned])]
    have most := once.count_le
    rw [marks] at most
    simp only [List.count_append, List.count_cons] at most
    omega
  | true =>
    have undeclared := undeclared_of_assigned locals assigned
    obtain ⟨mark, isFirst, introduces⟩ := once.find?
    -- The first meaning about the variable is in what is written for the statements.
    have isFirstThere : (marksOf sequence ++ (Mark.leaves block :: later)).find?
        (Mark.concerns binding) = some mark := by
      rw [marks, List.append_assoc, find?_of_silent fun mark isMark =>
        unconcerned mark (List.mem_append_left _ isMark)] at isFirst
      rw [List.cons_append, List.find?_cons_of_neg (by simp [Mark.concerns]), List.append_assoc,
        find?_of_silent (declarationMarks_silent undeclared), List.append_assoc] at isFirst
      exact isFirst
    obtain ⟨statement, found⟩ := Option.isSome_iff_exists.mp (List.find?_isSome.mpr
      (List.any_eq_true.mp assigned))
    obtain ⟨isAssigned, first, rest, split, noneBefore⟩ := List.find?_eq_some_iff_append.mp found
    have inOrder : sequenceItems arena level yields statements =
        spacedItems arena level first ++ sequenceItems arena level yields (statement :: rest) := by
      rw [split, sequenceItems_append]
    rw [inOrder] at written
    obtain ⟨middle, spaced, more, rfl, writtenFirst, writtenMore⟩ := written.split
    have arePart : ∀ earlier ∈ first, earlier ∈ statements := fun earlier isEarlier => by
      simp [split, isEarlier]
    have elsewhere : mark = .declares binding ∨ ∃ other, mark = .introduces binding other ∧
        ∀ earlier ∈ first, ¬ arena.Reaches earlier other := by
      obtain declares | ⟨other, isOther, isAssigned, same⟩ := introduces
      · exact .inl declares
      · refine .inr ⟨other, same, fun earlier isEarlier reached => ?_⟩
        obtain rfl := alone earlier (arePart earlier isEarlier) other isOther isAssigned reached
        simpa [isAssigned] using noneBefore earlier isEarlier
    have untouched : ∀ earlier ∈ first, ¬ arena.Reaches earlier binding := by
      rw [marksOf_append, List.append_assoc] at isFirstThere
      exact writtenFirst.untouched_of_find? formed isVariable
        (fun earlier isEarlier => unlisted earlier (arePart earlier isEarlier)) isFirstThere
        elsewhere
    refine .inr ⟨first, statement, rest, split, isAssigned, untouched, ?_⟩
    rintro rfl rfl
    have isPlain := isExpression_of_assigned isAssigned
    rw [sequenceItems, isPlain, Bool.true_and, if_pos rfl] at writtenMore
    obtain ⟨tail, moreMarks⟩ := writtenMore.returned isVariable isAssigned
    have silent := writtenFirst.spaced_silent untouched
    rw [marksOf_append, List.append_assoc, find?_of_silent silent, moreMarks, List.cons_append,
      List.find?_cons_of_neg (by simp [Mark.concerns]), List.cons_append,
      List.find?_cons_of_pos (by simp [Mark.concerns])] at isFirstThere
    obtain rfl := Option.some.inj isFirstThere
    obtain same | ⟨other, -, -, same⟩ := introduces <;> cases same

end Blocks

/-- A variable that one block of a tree lists, and that is mentioned in the block only. -/
structure Owned (arena : Arena) (root block binding : NodeId) (locals statements : ListRange) :
    Prop where
  /-- The block is part of the tree. -/
  reached : arena.Reaches root block
  /-- It has the variables and the statements. -/
  isBlock : arena.kind block = .ok (.block locals statements)
  /-- It lists the variable. -/
  listed : binding ∈ arena.list locals
  /-- No other block does. -/
  sole : ∀ other others body, arena.Reaches root other →
    arena.kind other = .ok (.block others body) → binding ∈ arena.list others → other = block
  /-- Every mention of the variable is inside the block. -/
  encloses : arena.Encloses root block binding

section Owned

variable {root block : NodeId} {locals statements : ListRange}

/-- No statement of its block has a block that lists the variable again. -/
theorem Owned.unlisted (formed : arena.Formed registry)
    (owned : Owned arena root block binding locals statements) :
    ∀ statement ∈ arena.list statements, ¬ arena.Lists statement binding := by
  rintro statement isPart ⟨other, others, body, reached, known, isListed⟩
  have isChild : statement ∈ arena.children (.block locals statements) :=
    List.mem_append_right _ isPart
  obtain rfl := owned.sole other others body
    (owned.reached.trans (.child owned.isBlock isChild reached)) known isListed
  exact formed.part_apart owned.isBlock isChild reached

/-- An assignment that is a statement of the block is in no other statement of it. -/
theorem Owned.alone (tree : arena.IsTree root)
    (owned : Owned arena root block binding locals statements) :
    ∀ part ∈ arena.list statements, ∀ other ∈ arena.list statements,
      isKind arena (isAssignmentTo binding) other = true → arena.Reaches part other →
        part = other := by
  intro part isPart other isOther isAssigned gets
  obtain ⟨node, found⟩ : ∃ node, arena.node? other = some node := by
    rw [isKind] at isAssigned
    split at isAssigned
    next node found => exact ⟨node, found⟩
    next => cases isAssigned
  obtain ⟨value, sort⟩ := exists_assign found isAssigned
  exact tree.same_part owned.reached owned.isBlock (List.mem_append_right _ isPart)
    (List.mem_append_right _ isOther)
    (Arena.binds_eq (Arena.kind_eq_ok.mpr ⟨node, found, sort⟩)) gets (.refl _)

/-- The variables that a block lists. -/
def listedBy (arena : Arena) : NodeKind → List NodeId
  | .block locals _ => arena.list locals
  | _ => []

/-- Whether a variable is owned can be read off the ways down. -/
theorem Owned.of_ways (formed : arena.Formed registry) {depth : Nat} (enough : root.index < depth)
    (reached : ∃ way ∈ arena.ways depth root, way.getLast? = some block)
    (isBlock : arena.kind block = .ok (.block locals statements))
    (listed : binding ∈ arena.list locals)
    (sole : ∀ way ∈ arena.ways depth root, ∀ other ∈ way.getLast?, ∀ node ∈ arena.node? other,
      binding ∈ listedBy arena node.kind → other = block)
    (encloses : ∀ way ∈ arena.ways depth root, way.getLast? = some binding → block ∈ way) :
    Owned arena root block binding locals statements where
  reached := by
    obtain ⟨way, isWay, ends⟩ := reached
    exact ((formed.descends_iff enough).mpr ⟨isWay, ends⟩).reaches
  isBlock := isBlock
  listed := listed
  sole other others body reached known isListed := by
    obtain ⟨path, descends⟩ := reached.exists_descends
    obtain ⟨isWay, ends⟩ := (formed.descends_iff enough).mp descends
    obtain ⟨node, found, sort⟩ := Arena.kind_eq_ok.mp known
    exact sole path isWay other ends node found (by rw [sort]; exact isListed)
  encloses path descends := by
    obtain ⟨isWay, ends⟩ := (formed.descends_iff enough).mp descends
    exact encloses path isWay ends

end Owned

end Source

open Source

/-- A variable that is listed by one block and mentioned only inside of it is introduced once by
what is written for a function's body exactly if it is assigned first. -/
theorem Source.WritesBody.once_iff_assignedFirst {registry : Registry} {arena : Arena}
    {root block binding : NodeId} {locals statements : ListRange}
    (formed : arena.Formed registry) (tree : arena.IsTree root)
    (owned : Owned arena root block binding locals statements) {node : Node}
    (found : arena.node? root = some node) {pieces : List Piece}
    (written : WritesBody registry arena root pieces) :
    IntroducedOnce arena block binding (arena.list locals) (arena.list statements)
        (marksOf pieces) ↔
      AssignedFirst arena binding (root = block && node.type ≠ .void) (arena.list locals)
        (arena.list statements) := by
  obtain ⟨blockNode, blockFound, sort⟩ := Arena.kind_eq_ok.mp owned.isBlock
  have areVariables := (formed block blockNode blockFound).locals locals statements sort
  obtain ⟨name, isVariable⟩ := areVariables binding owned.listed
  have distinct : binding ≠ block := by
    rintro rfl
    cases isVariable.symm.trans owned.isBlock
  have unlisted := owned.unlisted formed
  obtain ⟨before, own, later, pending, level, last, marks, absent, writtenBlock, unconcerned⟩ :=
    written.stands formed tree owned.isBlock owned.encloses distinct owned.reached found
  rw [marks]
  constructor
  · exact assignedFirst_of_once areVariables writtenBlock unlisted unconcerned formed isVariable
      owned.listed (owned.alone tree)
  · rintro (⟨unassigned, single⟩ | ⟨first, statement, rest, split, isAssigned, untouched, goesOn⟩)
    · exact declared_once areVariables writtenBlock unlisted absent unconcerned unassigned single
    · refine assigned_once areVariables writtenBlock unlisted unconcerned owned.listed ?_ split
        isAssigned untouched goesOn
      exact fun part isPart => formed.part_apart owned.isBlock (List.mem_append_right _ isPart)

/-- In the text of every tree that constructors fill, a variable that is listed by one block and
mentioned only inside of it is introduced once, at the level of the block and before it is
mentioned, exactly if no statement of the block assigns to it, or the first statement that has to do
with it is an assignment that is not returned. -/
theorem Arena.Assembled.introduced_once_iff {registry : Registry} {arena : Arena}
    {root block binding : NodeId} {locals statements : ListRange} (complete : registry.Complete)
    (assembled : arena.Assembled registry) (has : arena.Has root)
    (tree : arena.IsTree (bodyOf arena root))
    (owned : Owned arena (bodyOf arena root) block binding locals statements) :
    ∃ node pieces, arena.node? (bodyOf arena root) = some node ∧
      WritesBody registry arena (bodyOf arena root) pieces ∧
      (∀ width, bodyText registry arena width root = textOf width (linesOf pieces)) ∧
      (IntroducedOnce arena block binding (arena.list locals) (arena.list statements)
          (marksOf pieces) ↔
        AssignedFirst arena binding (bodyOf arena root = block && node.type ≠ .void)
          (arena.list locals) (arena.list statements)) := by
  have formed := assembled.formed complete
  obtain ⟨node, found⟩ := Arena.has_iff.mp (bodyOf_has formed has)
  obtain ⟨pieces, after, written, lines⟩ := bodyLines_eq_ok complete.toClosed formed has
  exact ⟨node, pieces, found, written, bodyText_eq lines,
    written.once_iff_assignedFirst formed tree owned found⟩

section Samples

open Construction

/-- A function whose body has a variable `x` and runs two statements before it gives the variable,
among them `x = 1` and `if (flag) { x = 2; }`. -/
def branching (first second : NodeId) : Arena where
  nodes := #[⟨.parameter "flag", .bool⟩, ⟨.var "x", .int⟩, ⟨.int 1, .int⟩,
    ⟨.assign ⟨1⟩ ⟨2⟩, .int⟩, ⟨.int 2, .int⟩, ⟨.assign ⟨1⟩ ⟨4⟩, .int⟩, ⟨.ifThen ⟨0⟩ ⟨5⟩, .void⟩,
    ⟨.block ⟨0, 1⟩ ⟨1, 3⟩, .int⟩, ⟨.lambda ⟨4, 1⟩ ⟨7⟩, .int⟩]
  lists := #[⟨1⟩, first, second, ⟨1⟩, ⟨0⟩]
  labels := 0

/-- The function that assigns to its variable first. -/
def assignmentFirst : Arena := branching ⟨3⟩ ⟨6⟩

/-- The function that has the branch first. -/
def branchFirst : Arena := branching ⟨6⟩ ⟨3⟩

/-- Constructors fill the arena of either function. -/
theorem branching_assembled {first second : NodeId} (isFirst : first.index < 7)
    (isSecond : second.index < 7) : (branching first second).Assembled .initial := by
  have flag := Arena.Assembled.node .empty
    (.parameter "flag" (by decide) : Step .initial _ (parameter "flag" .bool)) rfl
  have x := Arena.Assembled.node flag (.var "x" (by decide) : Step .initial _ (var "x" .int)) rfl
  have one := Arena.Assembled.node x (.int 1) rfl
  have assigned := Arena.Assembled.node one
    (.assign (by decide) : Step .initial _ (assign ⟨1⟩ ⟨2⟩)) rfl
  have two := Arena.Assembled.node assigned (.int 2) rfl
  have inside := Arena.Assembled.node two
    (.assign (by decide) : Step .initial _ (assign ⟨1⟩ ⟨4⟩)) rfl
  have branch := Arena.Assembled.node inside
    (.ifThen (by decide) (by decide) : Step .initial _ (ifThen ⟨0⟩ ⟨5⟩)) rfl
  have whole := Arena.Assembled.node branch
    (.block (by simpa using ⟨isFirst, isSecond, by decide⟩) :
      Step .initial _ (block [⟨1⟩] [first, second, ⟨1⟩])) rfl
  exact .node whole (.lambda : Step .initial _ (lambda [⟨0⟩] ⟨7⟩)) rfl

/-- Every node of the function that assigns first makes sense. -/
theorem assignmentFirst_formed : assignmentFirst.Formed .initial :=
  (branching_assembled (by decide) (by decide)).formed Registry.initial_complete

/-- Every node of the function that has the branch first makes sense. -/
theorem branchFirst_formed : branchFirst.Formed .initial :=
  (branching_assembled (by decide) (by decide)).formed Registry.initial_complete

/-- The function that assigns to its variable first introduces it once. -/
theorem assignmentFirst_introduced_once : ∃ pieces,
    WritesBody .initial assignmentFirst ⟨7⟩ pieces ∧
    bodyText .initial assignmentFirst 4 ⟨8⟩ = textOf 4 (linesOf pieces) ∧
    IntroducedOnce assignmentFirst ⟨7⟩ ⟨1⟩ [⟨1⟩] [⟨3⟩, ⟨6⟩, ⟨1⟩] (marksOf pieces) := by
  have tree : assignmentFirst.IsTree ⟨7⟩ :=
    assignmentFirst_formed.isTree (by decide : (7 : Nat) < 8) (by decide +kernel)
      (by decide +kernel)
  have owned : Owned assignmentFirst ⟨7⟩ ⟨7⟩ ⟨1⟩ ⟨0, 1⟩ ⟨1, 3⟩ :=
    .of_ways assignmentFirst_formed (by decide : (7 : Nat) < 8) (by decide +kernel) rfl
      (by decide +kernel) (by decide +kernel) (by decide +kernel)
  obtain ⟨node, pieces, -, written, text, iff⟩ := Arena.Assembled.introduced_once_iff
    Registry.initial_complete (branching_assembled (by decide) (by decide) :
      assignmentFirst.Assembled .initial) (by decide : assignmentFirst.Has ⟨8⟩) tree owned
  exact ⟨pieces, written, text 4, iff.mpr (.inr
    ⟨[], ⟨3⟩, [⟨6⟩, ⟨1⟩], by decide +kernel, by decide +kernel, nofun, by simp⟩)⟩

/-- The function that has the branch first introduces its variable there, inside other braces, and
not at the level of the block. -/
theorem branchFirst_not_introduced_once : branchFirst.Assembled .initial ∧
    branchFirst.IsTree ⟨7⟩ ∧ Owned branchFirst ⟨7⟩ ⟨7⟩ ⟨1⟩ ⟨0, 1⟩ ⟨1, 3⟩ ∧
    bodyText .initial branchFirst 4 ⟨8⟩ =
      .ok "if (flag)\n\x7b\n    var x = 2;\n\x7d\n\nx = 1;\nreturn x;" ∧
    ∀ pieces, WritesBody .initial branchFirst ⟨7⟩ pieces →
      ¬ IntroducedOnce branchFirst ⟨7⟩ ⟨1⟩ [⟨1⟩] [⟨6⟩, ⟨3⟩, ⟨1⟩] (marksOf pieces) := by
  have tree : branchFirst.IsTree ⟨7⟩ :=
    branchFirst_formed.isTree (by decide : (7 : Nat) < 8) (by decide +kernel) (by decide +kernel)
  have owned : Owned branchFirst ⟨7⟩ ⟨7⟩ ⟨1⟩ ⟨0, 1⟩ ⟨1, 3⟩ :=
    .of_ways branchFirst_formed (by decide : (7 : Nat) < 8) (by decide +kernel) rfl
      (by decide +kernel) (by decide +kernel) (by decide +kernel)
  refine ⟨branching_assembled (by decide) (by decide), tree, owned, by decide +kernel,
    fun pieces written once => ?_⟩
  have assigned := (written.once_iff_assignedFirst branchFirst_formed tree owned
    (rfl : branchFirst.node? ⟨7⟩ = some _)).mp once
  have gets : branchFirst.Reaches ⟨6⟩ ⟨1⟩ :=
    .child (rfl : branchFirst.kind ⟨6⟩ = .ok (.ifThen ⟨0⟩ ⟨5⟩)) (by decide)
      (.child (rfl : branchFirst.kind ⟨5⟩ = .ok (.assign ⟨1⟩ ⟨4⟩)) (by decide) (.refl _))
  obtain ⟨unassigned, -⟩ | ⟨first, statement, rest, split, isAssigned, untouched, -⟩ := assigned
  · revert unassigned
    decide +kernel
  · have listed : branchFirst.list ⟨1, 3⟩ = [⟨6⟩, ⟨3⟩, ⟨1⟩] := by decide +kernel
    rw [listed] at split
    cases first with
    | nil =>
      obtain ⟨rfl, rfl⟩ := List.cons.inj split
      revert isAssigned
      decide +kernel
    | cons next more =>
      obtain ⟨rfl, -⟩ := List.cons.inj split
      exact untouched _ List.mem_cons_self gets

end Samples

end Foreach
