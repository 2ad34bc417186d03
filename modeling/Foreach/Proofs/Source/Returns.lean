import Foreach.Proofs.Evaluation.Origins
import Foreach.Proofs.Source.Marks

/-!
# Which values are returned

What is written for a function's body returns a value exactly if the body has one and either is no
statement itself or is a block that ends with something that is no statement
(`WritesBody.returns_iff`). The value that is returned is then the one that the body has
(`Arena.Assembled.value_returned_iff`). A body whose value comes from further inside, from a block
in the block or from a statement with a cleanup, is written without a return, although it has a
value.
-/
namespace Foreach

namespace Source

/-- A node is where a function's body ends: it is the body, or the last statement of the body, which
is a block. -/
def AtEnd (arena : Arena) (body value : NodeId) : Prop :=
  value = body ∨ ∃ locals statements, arena.kind body = .ok (.block locals statements) ∧
    (arena.list statements).getLast? = some value

variable {registry : Registry} {arena : Arena} {root body value : NodeId} {node : Node}

/-- What is no statement is written inside a line. -/
theorem isExpression_eq_not_isStatement (kind : NodeKind) :
    isExpression kind = !kind.isStatement := by
  cases kind <;> rfl

/-- A value is returned exactly if the body has a value and ends with this one, which is no
statement. -/
theorem WritesBody.returns_iff (found : arena.node? body = some node) {pieces : List Piece}
    (written : WritesBody registry arena body pieces) :
    .returns value ∈ marksOf pieces ↔
      node.type ≠ .void ∧ AtEnd arena body value ∧ isKind arena isExpression value = true := by
  obtain ⟨_, after, foundToo, written⟩ := written
  obtain rfl := Option.some.inj (found.symm.trans foundToo)
  have known : arena.kind body = .ok node.kind := Arena.kind_eq_ok.mpr ⟨node, found, rfl⟩
  -- No node further inside returns anything.
  have ofItem : .returns value ∈ marksOf pieces ↔
      .returns value ∈ itemMarks (bodyItems registry arena body node) := by
    refine ⟨fun isMark => ?_, fun isItem => written.itemMarks_subset isItem⟩
    obtain isItem | ⟨_, _, _, _, _, _, isOf⟩ := written.provenance isMark
    · exact isItem
    · exact isOf.elim
  have isPlain := isKind_eq isExpression found
  rw [ofItem, bodyItems]
  split
  next locals statements sort =>
    rw [sort] at known isPlain
    have atEnd : AtEnd arena body value ∧ isKind arena isExpression value = true ↔
        (arena.list statements).getLast? = some value ∧
          isKind arena isExpression value = true := by
      refine and_congr_left fun isWritten => ⟨?_, fun isLast => .inr ⟨_, _, known, isLast⟩⟩
      rintro (rfl | ⟨_, _, knownToo, isLast⟩)
      · cases isPlain.symm.trans isWritten
      · cases known.symm.trans knownToo
        exact isLast
    rw [atEnd, (blockItems_spec ..).1]
    simp [Option.filter_eq_some_iff]
  next noBlock =>
    have atEnd : AtEnd arena body value ∧ isKind arena isExpression value = true ↔
        value = body ∧ isExpression node.kind = true := by
      constructor
      · rintro ⟨rfl | ⟨locals, statements, knownToo, -⟩, isWritten⟩
        · exact ⟨rfl, isPlain ▸ isWritten⟩
        · exact absurd (Except.ok.inj (known.symm.trans knownToo)) (noBlock locals statements)
      · rintro ⟨rfl, isWritten⟩
        exact ⟨.inl rfl, isPlain.trans isWritten⟩
    rw [atEnd]
    by_cases returns : node.type ≠ .void ∧ isExpression node.kind = true
    · simp [returns, returnItems]
    · rw [if_neg (by simpa using returns)]
      rw [itemMarks_statement, itemMarks_nil]
      refine iff_of_false List.not_mem_nil ?_
      rintro ⟨hasValue, -, isWritten⟩
      exact returns ⟨hasValue, isWritten⟩

section Lines

variable {kind : NodeKind} {lines : List Line} {after : List NodeId} {text : String}

/-- Statements that end with a value to return are written as lines that end with its line. -/
theorem sequence_ends {writes : NodeId → Checked String} {shows : NodeId → Writing (List Line)}
    {level : Nat} {statements pending : List NodeId} (isLast : statements.getLast? = some value)
    (known : arena.kind value = .ok kind) (isWritten : isExpression kind = true)
    (written : sequence arena writes shows level true statements pending = .ok (lines, after)) :
    ∃ text, writes value = .ok text ∧ lines.getLast? = some (returnLine level text) := by
  induction statements generalizing pending lines after with
  | nil => cases isLast
  | cons next rest ih =>
    cases rest with
    | nil =>
      obtain rfl := Option.some.inj isLast
      rw [sequence] at written
      obtain ⟨_, _, asked, written⟩ := Work.bind_eq_ok.mp written
      obtain ⟨knownToo, rfl⟩ := Work.lift_eq_ok.mp asked
      obtain rfl := Except.ok.inj (known.symm.trans knownToo)
      rw [isWritten, Bool.true_and, if_pos rfl] at written
      obtain ⟨text, _, read, written⟩ := Work.bind_eq_ok.mp written
      cases written
      exact ⟨text, (Work.lift_eq_ok.mp read).1, rfl⟩
    | cons second more =>
      rw [List.getLast?_cons_cons] at isLast
      rw [sequence] at written
      · obtain ⟨_, _, -, written⟩ := Work.bind_eq_ok.mp written
        obtain ⟨_, _, -, written⟩ := Work.bind_eq_ok.mp written
        obtain ⟨others, _, later, written⟩ := Work.bind_eq_ok.mp written
        obtain ⟨text, read, ends⟩ := ih isLast later
        cases written
        exact ⟨text, read, by rw [List.getLast?_append, ends, Option.some_or]⟩
      · simp

/-- The lines of a body that has a value and ends with it end with the line that returns it. -/
theorem linesOfBody_ends {pending : List NodeId} (found : arena.node? body = some node)
    (hasValue : node.type ≠ .void) (atEnd : AtEnd arena body value)
    (known : arena.kind value = .ok kind) (isWritten : isExpression kind = true)
    (written : linesOfBody registry arena body node pending = .ok (lines, after)) :
    ∃ text, expressionText registry arena value = .ok text ∧
      lines.getLast? = some (returnLine 0 text) := by
  have bodyKnown : arena.kind body = .ok node.kind := Arena.kind_eq_ok.mpr ⟨node, found, rfl⟩
  have returns : decide (node.type ≠ .void) = true := decide_eq_true hasValue
  cases sort : node.kind with
  | block locals statements =>
    rw [sort] at bodyKnown
    rw [linesOfBody, sort] at written
    obtain rfl | ⟨_, _, knownToo, isLast⟩ := atEnd
    · obtain rfl := Except.ok.inj (known.symm.trans bodyKnown)
      cases isWritten
    · cases bodyKnown.symm.trans knownToo
      obtain ⟨_, _, -, written⟩ := Work.bind_eq_ok.mp written
      obtain ⟨others, _, shown, written⟩ := Work.bind_eq_ok.mp written
      rw [returns] at shown
      obtain ⟨text, read, ends⟩ := sequence_ends isLast known isWritten shown
      cases written
      exact ⟨text, read, by rw [List.getLast?_append, ends, Option.some_or]⟩
  | _ =>
    rw [sort] at bodyKnown
    obtain rfl | ⟨locals, statements, knownToo, -⟩ := atEnd
    · obtain rfl := Except.ok.inj (known.symm.trans bodyKnown)
      simp only [linesOfBody, sort, returns, isWritten, Bool.and_self, if_true] at written
      obtain ⟨text, _, read, written⟩ := Work.bind_eq_ok.mp written
      cases written
      exact ⟨text, (Work.lift_eq_ok.mp read).1, rfl⟩
    · cases bodyKnown.symm.trans knownToo

/-- A text whose last line returns a value ends with that line. -/
theorem bodyText_ends {width : Nat} {whole : String}
    (written : bodyLines registry arena root [] = .ok (lines, after))
    (isLast : lines.getLast? = some (returnLine 0 text))
    (shown : bodyText registry arena width root = .ok whole) :
    ∃ earlier, whole = earlier ++ (returnLine 0 text).text := by
  have semicolon : (returnLine 0 text).text.toList.getLast? = some ';' := by
    rw [returnLine, String.toList_append, List.getLast?_append]
    rfl
  rw [bodyText, written] at shown
  have trimmed := (IndentedText.lines_trimmed isLast semicolon (by decide)).symm.trans shown
  split at trimmed
  · obtain ⟨first, rfl⟩ := List.getLast?_eq_some_iff.mp isLast
    obtain rfl := Except.ok.inj trimmed
    exact layout_ends width first (returnLine 0 text)
  · cases trimmed

end Lines

/-- The pieces of a function's body return a value, on the last line of its text. -/
structure ReturnsLast (registry : Registry) (arena : Arena) (root value : NodeId)
    (pieces : List Piece) : Prop where
  /-- The value is returned. -/
  marked : .returns value ∈ marksOf pieces
  /-- The text ends with the line that returns it. -/
  ends : ∃ text, expressionText registry arena value = .ok text ∧
    (linesOf pieces).getLast? = some (returnLine 0 text) ∧
    ∀ width whole, bodyText registry arena width root = .ok whole →
      ∃ earlier, whole = earlier ++ (returnLine 0 text).text

/-- What a body ends with gives its value, if it is no statement. -/
theorem AtEnd.gives (atEnd : AtEnd arena body value)
    (isWritten : isKind arena isExpression value = true) : arena.Gives body value := by
  have here : arena.Gives value value := by
    rw [isKind] at isWritten
    split at isWritten
    next node found =>
      rw [isExpression_eq_not_isStatement, Bool.not_eq_true'] at isWritten
      exact .here (Arena.kind_eq_ok.mpr ⟨node, found, rfl⟩) isWritten
    next => cases isWritten
  obtain rfl | ⟨locals, statements, known, isLast⟩ := atEnd
  · exact here
  · exact .part known isLast here

/-- What gives the value of a body is returned if the body ends with it, and otherwise nothing is
returned. -/
theorem WritesBody.returnsLast_iff {rootNode : Node} {pieces : List Piece} {after : List NodeId}
    (rootFound : arena.node? root = some rootNode)
    (found : arena.node? (bodyOf arena root) = some node) (hasValue : node.type ≠ .void)
    (gives : arena.Gives (bodyOf arena root) value)
    (written : WritesBody registry arena (bodyOf arena root) pieces)
    (lines : bodyLines registry arena root [] = .ok (linesOf pieces, after)) :
    (ReturnsLast registry arena root value pieces ↔ AtEnd arena (bodyOf arena root) value) ∧
      (¬ AtEnd arena (bodyOf arena root) value → ∀ other, .returns other ∉ marksOf pieces) := by
  have returns (other : NodeId) : .returns other ∈ marksOf pieces ↔ node.type ≠ .void ∧
      AtEnd arena (bodyOf arena root) other ∧ isKind arena isExpression other = true :=
    written.returns_iff found
  refine ⟨⟨fun returned => ((returns value).mp returned.marked).2.1, fun atEnd => ?_⟩, ?_⟩
  · obtain ⟨kind, known, noStatement⟩ := gives.source_kind
    obtain ⟨valueNode, valueFound, sort⟩ := Arena.kind_eq_ok.mp known
    have isWritten : isExpression kind = true := by
      rw [isExpression_eq_not_isStatement, noStatement]
      rfl
    have isPlain : isKind arena isExpression value = true := by
      rw [isKind_eq isExpression valueFound, sort, isWritten]
    obtain ⟨text, read, isLast⟩ := linesOfBody_ends found hasValue atEnd known isWritten
      ((bodyLines_eq rootFound found).symm.trans lines)
    exact ⟨(returns value).mpr ⟨hasValue, atEnd, isPlain⟩, text, read, isLast,
      fun _ _ shown => bodyText_ends lines isLast shown⟩
  · intro notAtEnd other isMark
    obtain ⟨-, atEnd, isPlain⟩ := (returns other).mp isMark
    obtain rfl := gives.unique (atEnd.gives isPlain)
    exact notAtEnd atEnd

end Source

open Source

/-- In the text of the body of every function that constructors make, nothing is returned if the
body has no value. If it has one, the text ends with a return of what the value comes from exactly
if this is the body itself or the last statement of the body, and else nothing is returned. -/
theorem Arena.Assembled.value_returned_iff {registry : Registry} {arena : Arena} {root : NodeId}
    {type : TypeId} (complete : registry.Complete) (assembled : arena.Assembled registry)
    (has : arena.Has root) (typed : arena.typeOf (bodyOf arena root) = .ok type) :
    ∃ pieces, WritesBody registry arena (bodyOf arena root) pieces ∧
      (∀ width, bodyText registry arena width root = textOf width (linesOf pieces)) ∧
      (type = .void → ∀ value, .returns value ∉ marksOf pieces) ∧
      (type ≠ .void → ∃ value, arena.Gives (bodyOf arena root) value ∧
        arena.WorksOut (bodyOf arena root) value ∧
        (ReturnsLast registry arena root value pieces ↔ AtEnd arena (bodyOf arena root) value) ∧
        (¬ AtEnd arena (bodyOf arena root) value → ∀ other, .returns other ∉ marksOf pieces)) := by
  have formed := assembled.formed complete
  obtain ⟨rootNode, rootFound⟩ := Arena.has_iff.mp has
  obtain ⟨node, found, rfl⟩ := Arena.typeOf_eq_ok.mp typed
  obtain ⟨pieces, after, written, lines⟩ := bodyLines_eq_ok complete.toClosed formed has
  refine ⟨pieces, written, bodyText_eq lines, fun noValue value isMark => ?_, fun hasValue => ?_⟩
  · exact ((written.returns_iff found).mp isMark).1 noValue
  · obtain ⟨value, gives, -⟩ := formed.exists_gives typed hasValue
    exact ⟨value, gives, gives.worksOut,
      written.returnsLast_iff rootFound found hasValue gives lines⟩

section Samples

open Construction

/-- A function without parameters whose body is a block that ends with a node, among them the number
seven and a block of the number. -/
def ending (last : NodeId) : Arena where
  nodes := #[⟨.int 7, .int⟩, ⟨.block .empty ⟨0, 1⟩, .int⟩, ⟨.block .empty ⟨1, 1⟩, .int⟩,
    ⟨.lambda .empty ⟨2⟩, .int⟩]
  lists := #[⟨0⟩, last]
  labels := 0

/-- Constructors fill the arena of the function. -/
theorem ending_assembled {last : NodeId} (isLast : last = ⟨0⟩ ∨ last = ⟨1⟩) :
    (ending last).Assembled .initial := by
  have seven := Arena.Assembled.node .empty (.int 7 : Step .initial _ (int 7)) rfl
  have inner := Arena.Assembled.node seven (.block (by decide) :
    Step .initial _ (block [] [⟨0⟩])) rfl
  obtain rfl | rfl := isLast
  · have outer := Arena.Assembled.node inner (.block (by decide) :
      Step .initial _ (block [] [⟨0⟩])) rfl
    exact .node outer (.lambda : Step .initial _ (lambda [] ⟨2⟩)) rfl
  · have outer := Arena.Assembled.node inner (.block (by decide) :
      Step .initial _ (block [] [⟨1⟩])) rfl
    exact .node outer (.lambda : Step .initial _ (lambda [] ⟨2⟩)) rfl

/-- The function whose body ends with the number returns it. -/
theorem ending_returned : ∃ pieces,
    WritesBody .initial (ending ⟨0⟩) ⟨2⟩ pieces ∧
    bodyText .initial (ending ⟨0⟩) 4 ⟨3⟩ = textOf 4 (linesOf pieces) ∧
    ReturnsLast .initial (ending ⟨0⟩) ⟨3⟩ ⟨0⟩ pieces := by
  obtain ⟨pieces, written, text, -, returned⟩ := Arena.Assembled.value_returned_iff
    Registry.initial_complete (ending_assembled (.inl rfl)) (by decide : (ending ⟨0⟩).Has ⟨3⟩)
    (rfl : (ending ⟨0⟩).typeOf ⟨2⟩ = .ok .int)
  obtain ⟨value, gives, -, iff, -⟩ := returned (by decide)
  have atEnd : AtEnd (ending ⟨0⟩) ⟨2⟩ ⟨0⟩ := .inr ⟨_, _, rfl, by decide +kernel⟩
  obtain rfl := gives.unique (atEnd.gives rfl)
  exact ⟨pieces, written, text 4, iff.mpr atEnd⟩

/-- The function whose body ends with a block of the number has the number as its value, but
returns nothing. -/
theorem ending_not_returned : (ending ⟨1⟩).Assembled .initial ∧
    (ending ⟨1⟩).typeOf (bodyOf (ending ⟨1⟩) ⟨3⟩) = .ok .int ∧
    (⟨.initial, ending ⟨1⟩, .empty⟩ : Program).invoke 4 ⟨3⟩ [] (.start .empty) =
      .ok (.ok (.int 7), .start .empty) ∧
    bodyText .initial (ending ⟨1⟩) 4 ⟨3⟩ = .ok "7;" ∧
    ∀ pieces, WritesBody .initial (ending ⟨1⟩) ⟨2⟩ pieces →
      ∀ value, .returns value ∉ marksOf pieces := by
  refine ⟨ending_assembled (.inr rfl), rfl, rfl, by decide +kernel,
    fun pieces written value isMark => ?_⟩
  obtain ⟨-, rfl | ⟨locals, statements, isBlock, isLast⟩, isPlain⟩ :=
    (written.returns_iff (rfl : (ending ⟨1⟩).node? ⟨2⟩ = some _)).mp isMark
  · cases isPlain
  · cases isBlock
    obtain rfl : (⟨1⟩ : NodeId) = value := Option.some.inj (Eq.trans (by decide +kernel) isLast)
    cases isPlain

end Samples

end Foreach
