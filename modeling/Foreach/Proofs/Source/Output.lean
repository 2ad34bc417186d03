import Foreach.Proofs.Source.Pieces
import Foreach.Proofs.Source.Written
import Foreach.Proofs.Text.Layout
import Foreach.Proofs.Tree.Assembled
import Foreach.Proofs.Types.Named

/-!
# What is written is made of pieces

In a formed arena every node is written, at every depth that its handle allows, and what is written
is the layout of the pieces that `Writes` says (`Formed.part`). So the lines of a function's body
are the lines of its pieces (`bodyLines_eq_ok`), and its text is the text of these lines
(`bodyText_eq`).
-/
namespace Foreach.Source

/-- Pieces add a text to the line that they stand in. -/
def Inline (pieces : List Piece) (text : String) : Prop :=
  ∀ rest, layOut (pieces ++ rest) = (text ++ (layOut rest).1, (layOut rest).2)

/-- Pieces are lines of their own, if a line ends with them. -/
def Rows (pieces : List Piece) (lines : List Line) : Prop :=
  ∀ rest, (layOut rest).1 = "" → layOut (pieces ++ rest) = ("", lines ++ (layOut rest).2)

section Layout

variable {pieces more : List Piece} {text later : String} {lines others : List Line}

/-- Texts in order are a text. -/
theorem Inline.append (first : Inline pieces text) (second : Inline more later) :
    Inline (pieces ++ more) (text ++ later) := by
  intro rest
  rw [List.append_assoc, first, second, String.append_assoc]

/-- Lines in order are lines. -/
theorem Rows.append (first : Rows pieces lines) (second : Rows more others) :
    Rows (pieces ++ more) (lines ++ others) := by
  intro rest ends
  rw [List.append_assoc, first _ (by rw [second rest ends]), second rest ends, List.append_assoc]

/-- A text behind the beginning of a line is a line. -/
theorem Inline.line (level : Nat) (inline : Inline pieces text) :
    Rows (.line level :: pieces) [⟨level, text⟩] := by
  intro rest ends
  rw [List.cons_append, layOut, inline, ends, String.append_empty]
  rfl

/-- Meanings without text add nothing to a line. -/
theorem inline_silent (marks : List Mark) : Inline (marks.map (Piece.mark · "")) "" := by
  induction marks with
  | nil =>
    intro rest
    rw [List.map_nil, List.nil_append, String.empty_append]
  | cons mark marks ih =>
    intro rest
    rw [List.map_cons, List.cons_append, layOut, ih, String.empty_append]

/-- A meaning without text adds no line. -/
theorem rows_silent (mark : Mark) : Rows [.mark mark ""] [] := by
  intro rest ends
  show ("" ++ (layOut rest).1, (layOut rest).2) = _
  rw [ends]
  rfl

/-- The lines of pieces that are lines of their own. -/
theorem Rows.linesOf (rows : Rows pieces lines) : linesOf pieces = lines := by
  have whole := rows [] rfl
  rw [List.append_nil] at whole
  rw [Source.linesOf, whole]
  exact List.append_nil lines

end Layout

variable {registry : Registry} {arena : Arena}

/-- Items in order are written as pieces in order. -/
theorem Writes.append {pending middle after : List NodeId} {items others : List Item}
    {pieces more : List Piece} (first : Writes registry arena pending items pieces middle)
    (second : Writes registry arena middle others more after) :
    Writes registry arena pending (items ++ others) (pieces ++ more) after := by
  induction first with
  | nil => exact second
  | piece piece _ ih => exact .piece piece (ih second)
  | expression found isPlain inside _ _ ih =>
    rw [List.append_assoc]
    exact .expression found isPlain inside (ih second)
  | inner found notPlain inside isText _ _ ih =>
    simp only [List.cons_append, List.append_assoc]
    exact .inner found notPlain inside isText (ih second)
  | statement found inside _ _ ih =>
    rw [List.append_assoc]
    exact .statement found inside (ih second)

section Parts

variable (registry arena)

/-- Items are written as a text inside a line. -/
def Says (items : List Item) (text : String) : Prop :=
  ∃ pieces, Inline pieces text ∧ ∀ pending, Writes registry arena pending items pieces pending

/-- Items are written as lines. -/
def Tells (pending : List NodeId) (items : List Item) (lines : List Line) (after : List NodeId) :
    Prop :=
  ∃ pieces, Rows pieces lines ∧ Writes registry arena pending items pieces after

/-- A node is written inside a line as its pieces say. -/
def Plain (depth : Nat) (id : NodeId) : Prop :=
  ∃ text, expression registry arena depth id = .ok text ∧ Says registry arena [.expression id] text

/-- A node is written as a statement as its pieces say. -/
def Stated (depth : Nat) (id : NodeId) : Prop :=
  ∀ level pending, ∃ lines after,
    statement registry arena depth level id pending = .ok (lines, after) ∧
      Tells registry arena pending [.statement level id] lines after

end Parts

section Composition

variable {items others : List Item} {text later : String} {lines more : List Line}
  {pending middle after : List NodeId} {level : Nat}

/-- Nothing is no text. -/
theorem says_nil : Says registry arena [] "" :=
  ⟨[], fun rest => by rw [List.nil_append, String.empty_append], fun _ => .nil⟩

/-- A plain word is its text. -/
theorem says_word (text : String) : Says registry arena [.word text] text :=
  ⟨[.word text], fun _ => rfl, fun _ => .piece _ .nil⟩

/-- A word with a meaning is its text. -/
theorem says_mark (mark : Mark) (text : String) : Says registry arena [.mark mark text] text :=
  ⟨[.mark mark text], fun _ => rfl, fun _ => .piece _ .nil⟩

/-- Items in order are their texts in order. -/
theorem Says.append (first : Says registry arena items text)
    (second : Says registry arena others later) :
    Says registry arena (items ++ others) (text ++ later) := by
  obtain ⟨pieces, inline, written⟩ := first
  obtain ⟨more, inlineToo, writtenToo⟩ := second
  exact ⟨pieces ++ more, inline.append inlineToo, fun pending =>
    (written pending).append (writtenToo pending)⟩

/-- An item behind a word. -/
theorem Says.after_word (text : String) (said : Says registry arena others later) :
    Says registry arena (.word text :: others) (text ++ later) :=
  (says_word text).append said

/-- No items are no lines. -/
theorem tells_nil : Tells registry arena pending [] [] pending :=
  ⟨[], fun _ ends => Prod.ext ends rfl, .nil⟩

/-- A meaning without text is no line. -/
theorem tells_mark (mark : Mark) : Tells registry arena pending [.mark mark ""] [] pending :=
  ⟨[.mark mark ""], rows_silent mark, .piece _ .nil⟩

/-- Items in order are their lines in order. -/
theorem Tells.append (first : Tells registry arena pending items lines middle)
    (second : Tells registry arena middle others more after) :
    Tells registry arena pending (items ++ others) (lines ++ more) after := by
  obtain ⟨pieces, rows, written⟩ := first
  obtain ⟨rest, rowsToo, writtenToo⟩ := second
  exact ⟨pieces ++ rest, rows.append rowsToo, written.append writtenToo⟩

/-- A text behind the beginning of a line is a line. -/
theorem Says.line (level : Nat) (said : Says registry arena items text) :
    Tells registry arena pending (.line level :: items) [⟨level, text⟩] pending := by
  obtain ⟨pieces, inline, written⟩ := said
  exact ⟨.line level :: pieces, inline.line level, .piece _ (written pending)⟩

/-- A keyword is a line of its own. -/
theorem keyword_line (text : String) (level : Nat) (pending : List NodeId) :
    Tells registry arena pending [.line level, .word text] [⟨level, text⟩] pending :=
  (says_word text).line level

/-- The condition of a statement is a line of its own. -/
theorem Says.condition (said : Says registry arena items text) (level : Nat)
    (pending : List NodeId) :
    Tells registry arena pending (.line level :: .word "if (" :: (items ++ [.word ")"]))
      [⟨level, "if (" ++ text ++ ")"⟩] pending := by
  rw [String.append_assoc]
  exact ((said.append (says_word ")")).after_word "if (").line level

/-- A body stands between two braces. -/
theorem Stated.braced {depth : Nat} {body : NodeId} (stated : Stated registry arena depth body)
    (level : Nat) (pending : List NodeId) :
    ∃ lines after, statement registry arena depth (level + 1) body pending = .ok (lines, after) ∧
      Tells registry arena pending (bracedItems level body) (braced level lines) after := by
  obtain ⟨lines, after, written, told⟩ := stated (level + 1) pending
  have opened : Tells registry arena pending [.line level, .mark .opens openBrace]
      [⟨level, openBrace⟩] pending := (says_mark _ _).line level
  have closed : Tells registry arena after [.line level, .mark .closes closeBrace]
      [⟨level, closeBrace⟩] after := (says_mark _ _).line level
  exact ⟨lines, after, written, (opened.append told).append closed⟩

end Composition

section Nodes

variable {id : NodeId} {node : Node} {depth : Nat}

/-- A node inside a line is written as its items are. -/
theorem says_expression {text : String} (found : arena.node? id = some node)
    (isPlain : isExpression node.kind = true)
    (said : Says registry arena (expressionItems registry arena id node) text) :
    Says registry arena [.expression id] text := by
  obtain ⟨pieces, inline, written⟩ := said
  refine ⟨pieces, inline, fun pending => ?_⟩
  have whole : Writes registry arena pending [.expression id] (pieces ++ []) pending :=
    .expression found isPlain (written []) .nil
  rwa [List.append_nil] at whole

/-- A statement is written as its items are. -/
theorem tells_statement {level : Nat} {lines : List Line} {pending after : List NodeId}
    (found : arena.node? id = some node)
    (told : Tells registry arena (pendingIn arena pending node.kind)
      (statementItems registry arena pending level id node.kind) lines after) :
    Tells registry arena pending [.statement level id] lines after := by
  obtain ⟨pieces, rows, written⟩ := told
  have whole := Writes.statement found written .nil
  rw [List.append_nil] at whole
  exact ⟨pieces, rows, whole⟩

/-- Lines are always written on one line. -/
theorem inlined_ok (lines : List Line) : ∃ text, inlined lines = .ok text := by
  have written : ∃ written, (IndentedText.start 0).lines lines = .ok written := by
    by_cases present : lines = []
    · rw [present]
      exact ⟨_, rfl⟩
    · exact ⟨_, IndentedText.lines_eq_ok present fun line _ => by
        show line.level * 0 < UInt64.size
        rw [Nat.mul_zero]
        decide⟩
  obtain ⟨written, isWritten⟩ := written
  exact ⟨_, Work.checked_bind_eq_ok.mpr ⟨written, isWritten, rfl⟩⟩

/-- A statement inside a line is written on one line. -/
theorem Stated.plain (stated : Stated registry arena depth id) (found : arena.node? id = some node)
    (notPlain : isExpression node.kind = false) : Plain registry arena (depth + 1) id := by
  obtain ⟨lines, after, written, pieces, rows, told⟩ := stated 0 []
  obtain ⟨text, isText⟩ := inlined_ok lines
  have known : arena.kind id = .ok node.kind := Arena.kind_eq_ok.mpr ⟨node, found, rfl⟩
  refine ⟨text, (expression_of_statement known notPlain).mpr ⟨lines, after, written, isText⟩, ?_⟩
  · refine ⟨.word text :: .mark .opens "" ::
      ((marksOf pieces).map (Piece.mark · "") ++ [.mark .closes ""]), ?_, fun pending =>
        .inner found notPlain told (rows.linesOf.symm ▸ isText) .nil⟩
    have worded : Inline [.word text] text := fun _ => rfl
    have silent := inline_silent (.opens :: (marksOf pieces ++ [.closes]))
    rw [List.map_cons, List.map_append] at silent
    have whole := worded.append silent
    rwa [String.append_empty] at whole

/-- A receiver or operand is written in parentheses or not, by what it is. -/
theorem Plain.operand (plain : Plain registry arena depth id) (has : arena.Has id) :
    ∃ text kind, expression registry arena depth id = .ok text ∧ arena.kind id = .ok kind ∧
      Says registry arena (operandItems arena id) (operandText kind text) := by
  obtain ⟨text, written, said⟩ := plain
  obtain ⟨node, found⟩ := Arena.has_iff.mp has
  refine ⟨text, node.kind, written, Arena.kind_eq_ok.mpr ⟨node, found, rfl⟩, ?_⟩
  rw [operandItems, operandText, isKind_eq isAtomic found]
  cases isAtomic node.kind with
  | true => exact said
  | false => exact ((says_word "(").append said).append (says_word ")")

/-- Nodes are written with commas between them. -/
theorem says_separated {ids : List NodeId} (each : ∀ id ∈ ids, Plain registry arena depth id) :
    ∃ texts, ids.mapM (expression registry arena depth) = .ok texts ∧
      Says registry arena (separated ids) (", ".intercalate texts) := by
  induction ids with
  | nil => exact ⟨[], rfl, says_nil⟩
  | cons id rest ih =>
    obtain ⟨text, written, said⟩ := each id List.mem_cons_self
    obtain ⟨texts, others, saidToo⟩ :=
      ih fun other inRest => each other (List.mem_cons_of_mem _ inRest)
    refine ⟨text :: texts, ?_, ?_⟩
    · rw [List.mapM_cons, written, others]
      rfl
    · cases rest with
      | nil =>
        obtain rfl : [] = texts := Except.ok.inj others
        rw [String.intercalate_singleton]
        exact said
      | cons next more =>
        obtain ⟨first, later, same⟩ : ∃ first later, texts = first :: later := by
          cases Work.mapM_eq_ok.mp others with
          | cons => exact ⟨_, _, rfl⟩
        rw [same, String.intercalate_cons_cons, ← same, String.append_assoc]
        exact said.append (saidToo.after_word ", ")

/-- A node that is no statement is written if its parts are. -/
theorem plain_of_parts (closed : registry.Closed) (found : arena.node? id = some node)
    (isPlain : isExpression node.kind = true) (suits : arena.Suits registry id node)
    (parts : ∀ child ∈ arena.children node.kind,
      arena.Has child ∧ Plain registry arena depth child) :
    Plain registry arena (depth + 1) id := by
  obtain ⟨kind, type⟩ := node
  have known : arena.kind id = .ok kind := Arena.kind_eq_ok.mpr ⟨_, found, rfl⟩
  have written {text : String} (said : Says registry arena (expressionItems registry arena id
      ⟨kind, type⟩) text) := says_expression found isPlain said
  have named {member : MemberId} (isUsed : member ∈ kind.member?) :
      ∃ entry, registry.member? member = some entry ∧ memberWord registry member = entry.name := by
    obtain ⟨entry, isMember⟩ := Registry.hasMember_iff.mp (suits.member member isUsed)
    exact ⟨entry, isMember, by rw [memberWord, isMember]⟩
  cases kind with
  | parameter name | var name =>
    exact ⟨name, (expression_of_word known rfl).mpr rfl, written (says_mark _ _)⟩
  | int | bool | null =>
    exact ⟨_, (expression_of_word known rfl).mpr rfl, written (says_word _)⟩
  | assign target value =>
    obtain ⟨-, left, isLeft, saidLeft⟩ := parts target (by simp [Arena.children])
    obtain ⟨-, right, isRight, saidRight⟩ := parts value (by simp [Arena.children])
    exact ⟨left ++ " = " ++ right,
      (expression_of_sign known rfl).mpr ⟨left, right, isLeft, isRight, rfl⟩,
      written ((saidLeft.append (says_word " = ")).append saidRight)⟩
  | addAssign target value =>
    obtain ⟨-, left, isLeft, saidLeft⟩ := parts target (by simp [Arena.children])
    obtain ⟨-, right, isRight, saidRight⟩ := parts value (by simp [Arena.children])
    exact ⟨left ++ " += " ++ right,
      (expression_of_sign known rfl).mpr ⟨left, right, isLeft, isRight, rfl⟩,
      written ((saidLeft.append (says_word " += ")).append saidRight)⟩
  | notEqual left right =>
    obtain ⟨-, first, isFirst, saidFirst⟩ := parts left (by simp [Arena.children])
    obtain ⟨-, second, isSecond, saidSecond⟩ := parts right (by simp [Arena.children])
    exact ⟨first ++ " != " ++ second,
      (expression_of_sign known rfl).mpr ⟨first, second, isFirst, isSecond, rfl⟩,
      written ((saidFirst.append (says_word " != ")).append saidSecond)⟩
  | call receiver method arguments =>
    obtain ⟨receiverHas, plain⟩ := parts receiver (by simp [Arena.children])
    obtain ⟨text, kind, isText, receiverKnown, saidReceiver⟩ := plain.operand receiverHas
    have each : ∀ argument ∈ arena.list arguments, Plain registry arena depth argument :=
      fun argument isListed => (parts argument (by simp [Arena.children, isListed])).2
    obtain ⟨texts, listed, saidTexts⟩ := says_separated each
    obtain ⟨entry, isMember, isName⟩ := named rfl
    refine ⟨_, (expression_of_call known).mpr
      ⟨texts, text, kind, entry, listed, isText, receiverKnown, isMember, rfl⟩, written ?_⟩
    have whole := (saidReceiver.append
      (saidTexts.after_word ("." ++ memberWord registry method ++ "("))).append (says_word ")")
    rw [← String.append_assoc, ← String.append_assoc, ← String.append_assoc] at whole
    rw [← isName]
    exact whole
  | property receiver property =>
    obtain ⟨receiverHas, plain⟩ := parts receiver (by simp [Arena.children])
    obtain ⟨text, kind, isText, receiverKnown, saidReceiver⟩ := plain.operand receiverHas
    obtain ⟨entry, isMember, isName⟩ := named rfl
    refine ⟨_, (expression_of_property known).mpr
      ⟨text, kind, entry, isText, receiverKnown, isMember, rfl⟩, written ?_⟩
    rw [← isName, String.append_assoc]
    exact saidReceiver.append (says_word _)
  | convert operand =>
    obtain ⟨operandHas, plain⟩ := parts operand (by simp [Arena.children])
    obtain ⟨text, kind, isText, operandKnown, said⟩ := plain.operand operandHas
    obtain ⟨name, isName⟩ := closed.displayName_ok suits.typed
    have typed : arena.typeOf id = .ok type := Arena.typeOf_eq_ok.mpr ⟨_, found, rfl⟩
    refine ⟨_, (expression_of_convert known typed).mpr
      ⟨name, text, kind, isName, isText, operandKnown, rfl⟩, written ?_⟩
    have isWord : typeWord registry type = name := by rw [typeWord, isName]
    rw [← isWord]
    exact said.after_word _
  | lambda parameters body =>
    have each : ∀ parameter ∈ arena.list parameters, Plain registry arena depth parameter :=
      fun parameter isListed => (parts parameter (by simp [Arena.children, isListed])).2
    obtain ⟨texts, listed, saidTexts⟩ := says_separated each
    obtain ⟨-, text, isText, said⟩ := parts body (by simp [Arena.children])
    refine ⟨_, (expression_of_lambda known).mpr ⟨texts, text, listed, isText, rfl⟩, written ?_⟩
    rw [String.append_assoc, String.append_assoc]
    exact (saidTexts.append (said.after_word ") => ")).after_word "("
  | block | ifThen | ifThenElse | loop | breakTo | tryFinally => cases isPlain

/-- An expression is a line of its own. -/
theorem Says.lineItems {text : String} {level : Nat} {pending : List NodeId}
    (said : Says registry arena [.expression id] text) :
    Tells registry arena pending (lineItems level id) [⟨level, text ++ ";"⟩] pending :=
  (said.append (says_word ";")).line level

/-- An expression behind a word is a line of its own. -/
theorem Says.markedLine {text : String} {level : Nat} {pending : List NodeId} (mark : Mark)
    (word : String) (said : Says registry arena [.expression id] text) :
    Tells registry arena pending [.line level, .mark mark word, .expression id, .word ";"]
      [⟨level, word ++ text ++ ";"⟩] pending :=
  (((says_mark mark word).append said).append (says_word ";")).line level

/-- A node inside a line is written as a statement too. -/
theorem Plain.stated (plain : Plain registry arena depth id) (found : arena.node? id = some node)
    (isPlain : isExpression node.kind = true) : Stated registry arena (depth + 1) id := by
  obtain ⟨text, written, said⟩ := plain
  have known : arena.kind id = .ok node.kind := Arena.kind_eq_ok.mpr ⟨node, found, rfl⟩
  intro level pending
  by_cases introduces : ∃ target value, node.kind = .assign target value ∧ target ∈ pending
  · obtain ⟨target, value, isAssign, isPending⟩ := introduces
    rw [isAssign] at known
    have line : statement registry arena (depth + 1) level id pending =
        .ok ([⟨level, "var " ++ text ++ ";"⟩], pending.filter (· ≠ target)) :=
      (statement_of_assign known).mpr ⟨text, written, .inl ⟨isPending, rfl, rfl⟩⟩
    refine ⟨_, _, line, tells_statement found ?_⟩
    rw [isAssign, pendingIn, statementItems, if_pos isPending]
    exact said.markedLine _ "var "
  · have line : statement registry arena (depth + 1) level id pending =
        .ok ([⟨level, text ++ ";"⟩], pending) := by
      by_cases isAssign : ∃ target value, node.kind = .assign target value
      · obtain ⟨target, value, sort⟩ := isAssign
        have notPending : target ∉ pending :=
          fun isPending => introduces ⟨target, value, sort, isPending⟩
        rw [sort] at known
        exact (statement_of_assign known).mpr ⟨text, written, .inr ⟨notPending, rfl, rfl⟩⟩
      · have other : ∀ target value, node.kind ≠ .assign target value :=
          fun target value sort => isAssign ⟨target, value, sort⟩
        exact (statement_of_expression known isPlain other).mpr ⟨text, written, rfl, rfl⟩
    refine ⟨_, _, line, tells_statement found ?_⟩
    cases sort : node.kind with
    | assign target value =>
      have notPending : target ∉ pending :=
        fun isPending => introduces ⟨target, value, sort, isPending⟩
      have same : pending.filter (· ≠ target) = pending := List.filter_eq_self.mpr
        fun other isListed => decide_eq_true fun isTarget => notPending (isTarget ▸ isListed)
      rw [pendingIn, statementItems, if_neg notPending, same]
      exact said.lineItems
    | block | ifThen | ifThenElse | loop | breakTo | tryFinally =>
      rw [sort] at isPlain
      cases isPlain
    | _ => exact said.lineItems

end Nodes

section Blocks

variable {id : NodeId} {depth : Nat} {statements : List NodeId}

/-- What is known of a part when a node is written. -/
structure Part (registry : Registry) (arena : Arena) (depth : Nat) (id : NodeId) : Prop where
  /-- The part is in the arena. -/
  has : arena.Has id
  /-- It is written inside a line. -/
  plain : Plain registry arena depth id
  /-- It is written as a statement. -/
  stated : Stated registry arena depth id

/-- A variable that is a part can be declared. -/
theorem Part.binding (part : Part registry arena depth id) (formed : arena.Formed registry) :
    Plain registry arena depth id ∧
      ∃ node, arena.node? id = some node ∧ registry.Has node.type := by
  obtain ⟨node, found⟩ := Arena.has_iff.mp part.has
  exact ⟨part.plain, node, found, (formed id node found).typed⟩

/-- Variables are introduced by a statement of their block or declared before the statements. -/
theorem introductions_told (closed : registry.Closed) {locals : List NodeId}
    (present : ∀ statement ∈ statements, arena.Has statement)
    (each : ∀ binding ∈ locals, Plain registry arena depth binding ∧
      ∃ node, arena.node? binding = some node ∧ registry.Has node.type)
    (level : Nat) (pending : List NodeId) :
    ∃ lines, introductions registry arena (expression registry arena depth) level statements locals
        pending = .ok (lines, (introducedThere arena locals statements).reverse ++ pending) ∧
      ∀ held, Tells registry arena held
        ((declaredFirst arena locals statements).flatMap (declarationItems registry arena level))
        lines held := by
  have known : ∀ statement ∈ statements, ∃ kind, arena.kind statement = .ok kind := by
    intro statement isListed
    obtain ⟨node, found⟩ := Arena.has_iff.mp (present statement isListed)
    exact ⟨node.kind, Arena.kind_eq_ok.mpr ⟨node, found, rfl⟩⟩
  induction locals generalizing pending with
  | nil => exact ⟨[], rfl, fun _ => tells_nil⟩
  | cons binding rest ih =>
    have others := ih fun other inRest => each other (List.mem_cons_of_mem _ inRest)
    obtain ⟨⟨text, written, said⟩, node, found, typed⟩ := each binding List.mem_cons_self
    rw [introducedThere, declaredFirst, List.filter_cons, List.filter_cons]
    cases assigned : assignsTo arena statements binding with
    | true =>
      obtain ⟨lines, introduced, told⟩ := others (binding :: pending)
      refine ⟨lines, ?_, told⟩
      refine Work.bind_eq_ok.mpr ⟨_, _, anyM_assignsTo known binding pending, ?_⟩
      rw [assigned]
      refine Work.bind_eq_ok.mpr ⟨(), _, Work.modify_eq_ok.mpr rfl, ?_⟩
      rw [if_pos rfl, List.reverse_cons, List.append_assoc]
      exact introduced
    | false =>
      obtain ⟨lines, introduced, told⟩ := others pending
      obtain ⟨name, isName⟩ := closed.displayName_ok typed
      have isType : arena.typeOf binding = .ok node.type :=
        Arena.typeOf_eq_ok.mpr ⟨node, found, rfl⟩
      refine ⟨⟨level, name ++ " " ++ text ++ ";"⟩ :: lines, ?_, fun held => ?_⟩
      · refine Work.bind_eq_ok.mpr ⟨_, _, anyM_assignsTo known binding pending, ?_⟩
        rw [assigned]
        exact Work.bind_eq_ok.mpr ⟨_, _, Work.lift_eq_ok.mpr ⟨isType, rfl⟩,
          Work.bind_eq_ok.mpr ⟨_, _, Work.lift_eq_ok.mpr ⟨isName, rfl⟩,
            Work.bind_eq_ok.mpr ⟨_, _, Work.lift_eq_ok.mpr ⟨written, rfl⟩,
              Work.bind_eq_ok.mpr ⟨_, _, introduced, rfl⟩⟩⟩⟩
      · have declared : Tells registry arena held (declarationItems registry arena level binding)
            [⟨level, name ++ " " ++ text ++ ";"⟩] held := by
          have isWord : typeWord registry node.type = name := by rw [typeWord, isName]
          rw [declarationItems, found, ← isWord]
          exact said.markedLine _ _
        exact declared.append (told held)

/-- Statements in order are written one after the other. -/
theorem sequence_told (each : ∀ statement ∈ statements, Part registry arena depth statement)
    (level : Nat) (yields : Bool) (pending : List NodeId) :
    ∃ lines after, sequence arena (expression registry arena depth)
        (statement registry arena depth level) level yields statements pending =
          .ok (lines, after) ∧
      Tells registry arena pending (sequenceItems arena level yields statements) lines after := by
  induction statements generalizing pending with
  | nil => exact ⟨[], pending, rfl, tells_nil⟩
  | cons next rest ih =>
    have part := each next List.mem_cons_self
    obtain ⟨text, written, said⟩ := part.plain
    obtain ⟨node, found⟩ := Arena.has_iff.mp part.has
    have known : arena.kind next = .ok node.kind := Arena.kind_eq_ok.mpr ⟨node, found, rfl⟩
    obtain ⟨lines, middle, shown, told⟩ := part.stated level pending
    cases rest with
    | nil =>
      rw [sequenceItems, isKind_eq isExpression found]
      cases returns : yields && isExpression node.kind with
      | true =>
        exact ⟨[returnLine level text], pending, (sequence_last_eq_ok known).mpr
          (.inl ⟨returns, text, written, rfl, rfl⟩), said.markedLine _ "return "⟩
      | false =>
        exact ⟨lines, middle, (sequence_last_eq_ok known).mpr (.inr ⟨returns, shown⟩), told⟩
    | cons second more =>
      obtain ⟨others, after, later, toldToo⟩ :=
        ih (fun other inRest => each other (List.mem_cons_of_mem _ inRest)) middle
      have gap : Tells registry arena middle
          (if isMultiLine node.kind then [.line Line.blank.level] else [])
          (if isMultiLine node.kind then [Line.blank] else []) middle := by
        cases isMultiLine node.kind with
        | true => exact says_nil.line Line.blank.level
        | false => exact tells_nil
      refine ⟨_, after, sequence_cons_eq_ok.mpr
        ⟨lines, middle, node.kind, others, shown, known, later, rfl⟩, ?_⟩
      rw [sequenceItems, isKind_eq isMultiLine found, List.append_assoc]
      · exact told.append (gap.append toldToo)
      · simp

/-- A block is written as its items are. -/
theorem blockLines_told (closed : registry.Closed) {locals : List NodeId}
    (bindings : ∀ binding ∈ locals, Plain registry arena depth binding ∧
      ∃ node, arena.node? binding = some node ∧ registry.Has node.type)
    (each : ∀ statement ∈ statements, Part registry arena depth statement)
    (level : Nat) (block : NodeId) (yields : Bool) (pending : List NodeId) :
    ∃ lines after, blockLines registry arena (expression registry arena depth)
        (statement registry arena depth level) level yields locals statements pending =
          .ok (lines, after) ∧
      Tells registry arena ((introducedThere arena locals statements).reverse ++ pending)
        (blockItems registry arena level block yields locals statements) lines after := by
  obtain ⟨declared, introduced, told⟩ := introductions_told closed
    (fun statement isListed => (each statement isListed).has) bindings level pending
  obtain ⟨lines, after, shown, toldToo⟩ := sequence_told each level yields
    ((introducedThere arena locals statements).reverse ++ pending)
  refine ⟨declared ++ lines, after,
    blockLines_eq_ok.mpr ⟨declared, _, lines, introduced, shown, rfl⟩, ?_⟩
  have whole := ((tells_mark (.enters block)).append ((told _).append toldToo)).append
    (tells_mark (.leaves block))
  rw [List.nil_append, List.append_nil] at whole
  exact whole

end Blocks

section Trees

variable {id : NodeId} {node : Node} {depth : Nat}

/-- A statement is written if its parts are. -/
theorem stated_of_parts (closed : registry.Closed) (formed : arena.Formed registry)
    (found : arena.node? id = some node) (notPlain : isExpression node.kind = false)
    (parts : ∀ child ∈ arena.children node.kind, Part registry arena depth child) :
    Stated registry arena (depth + 1) id := by
  have known : arena.kind id = .ok node.kind := Arena.kind_eq_ok.mpr ⟨node, found, rfl⟩
  have started {lines : List Line} {level : Nat} {pending after : List NodeId}
      (told : Tells registry arena (pendingIn arena pending node.kind)
        (statementItems registry arena pending level id node.kind) lines after) :=
    tells_statement found told
  intro level pending
  cases sort : node.kind with
  | block locals statements =>
    rw [sort] at known started parts
    have bindings : ∀ binding ∈ arena.list locals, Plain registry arena depth binding ∧
        ∃ node, arena.node? binding = some node ∧ registry.Has node.type :=
      fun binding isListed => (parts binding (List.mem_append_left _ isListed)).binding formed
    have each : ∀ statement ∈ arena.list statements, Part registry arena depth statement :=
      fun statement isListed => parts statement (List.mem_append_right _ isListed)
    obtain ⟨lines, after, shown, told⟩ :=
      blockLines_told closed bindings each level id false pending
    exact ⟨lines, after, (statement_of_block known).mpr shown, started told⟩
  | ifThen condition consequence =>
    rw [sort] at known started parts
    obtain ⟨text, written, said⟩ := (parts condition (by simp [Arena.children])).plain
    obtain ⟨lines, after, shown, told⟩ :=
      (parts consequence (by simp [Arena.children])).stated.braced level pending
    have header := said.condition level pending
    exact ⟨_, after, (statement_of_ifThen known).mpr ⟨text, lines, written, shown, rfl⟩,
      started (header.append told)⟩
  | ifThenElse condition consequence alternative =>
    rw [sort] at known started parts
    obtain ⟨text, written, said⟩ := (parts condition (by simp [Arena.children])).plain
    obtain ⟨lines, middle, shown, told⟩ :=
      (parts consequence (by simp [Arena.children])).stated.braced level pending
    obtain ⟨others, after, shownToo, toldToo⟩ :=
      (parts alternative (by simp [Arena.children])).stated.braced level middle
    have header := said.condition level pending
    exact ⟨_, after, (statement_of_ifThenElse known).mpr
        ⟨text, lines, middle, others, written, shown, shownToo, rfl⟩,
      started ((header.append told).append ((keyword_line "else" level middle).append toldToo))⟩
  | loop body exit =>
    rw [sort] at known started parts
    obtain ⟨lines, after, shown, told⟩ :=
      (parts body (by simp [Arena.children])).stated.braced level pending
    exact ⟨_, after, (statement_of_loop known).mpr ⟨lines, shown, rfl⟩,
      started ((keyword_line "while (true)" level pending).append told)⟩
  | breakTo label =>
    rw [sort] at known started
    exact ⟨_, pending, (statement_of_breakTo known).mpr ⟨rfl, rfl⟩,
      started (keyword_line "break;" level pending)⟩
  | tryFinally body cleanup =>
    rw [sort] at known started parts
    obtain ⟨lines, middle, shown, told⟩ :=
      (parts body (by simp [Arena.children])).stated.braced level pending
    obtain ⟨others, after, shownToo, toldToo⟩ :=
      (parts cleanup (by simp [Arena.children])).stated.braced level middle
    exact ⟨_, after, (statement_of_tryFinally known).mpr
        ⟨lines, middle, others, shown, shownToo, rfl⟩,
      started (((keyword_line "try" level pending).append told).append
        ((keyword_line "finally" level middle).append toldToo))⟩
  | _ =>
    rw [sort] at notPlain
    cases notPlain

/-- Every node of a formed arena is written, as deep as its handle is large. -/
theorem Formed.part (closed : registry.Closed) (formed : arena.Formed registry)
    (has : arena.Has id) (enough : 2 * id.index + 2 ≤ depth) :
    Part registry arena depth id := by
  -- A node is written one step after its parts, or two if it has to stand inside a line as a
  -- statement, or as a statement inside a line; its parts have smaller handles.
  induction size : id.index using Nat.strongRecOn generalizing id depth with
  | ind index ih =>
    obtain ⟨node, found⟩ := Arena.has_iff.mp has
    have suits := formed id node found
    have parts (deep : Nat) (enough : 2 * id.index ≤ deep) :
        ∀ child ∈ arena.children node.kind, Part registry arena deep child := by
      intro child isChild
      have older := suits.older child isChild
      exact ih child.index (size ▸ older) (Nat.lt_trans older has) (by omega) rfl
    obtain ⟨deep, rfl⟩ : ∃ deep, depth = deep + 2 := ⟨depth - 2, by omega⟩
    cases isPlain : isExpression node.kind with
    | true =>
      have written (deep : Nat) (enough : 2 * id.index ≤ deep) :
          Plain registry arena (deep + 1) id :=
        plain_of_parts closed found isPlain suits fun child isChild =>
          have part := parts deep enough child isChild
          ⟨part.has, part.plain⟩
      exact ⟨has, written (deep + 1) (by omega), (written deep (by omega)).stated found isPlain⟩
    | false =>
      have written (deep : Nat) (enough : 2 * id.index ≤ deep) :
          Stated registry arena (deep + 1) id :=
        stated_of_parts closed formed found isPlain (parts deep enough)
      exact ⟨has, (written deep (by omega)).plain found isPlain, written (deep + 1) (by omega)⟩

/-- The bound on nesting is deep enough for every node of an arena. -/
theorem Formed.within_bound (closed : registry.Closed) (formed : arena.Formed registry)
    (has : arena.Has id) : Part registry arena (depthBound arena) id := by
  refine Formed.part closed formed has ?_
  have inside : id.index < arena.size := has
  rw [depthBound]
  omega

/-- The node whose text is asked for, or the body of the function that it is, is in the arena. -/
theorem bodyOf_has (formed : arena.Formed registry) (has : arena.Has id) :
    arena.Has (bodyOf arena id) := by
  obtain ⟨node, found⟩ := Arena.has_iff.mp has
  rw [bodyOf, found]
  split
  next parameters body type same =>
    cases same
    have older := (formed id _ found).older body (by simp [Arena.children])
    exact Nat.lt_trans older has
  next => exact has

/-- The lines of a function's body, given the node. -/
def linesOfBody (registry : Registry) (arena : Arena) (body : NodeId) (node : Node) :
    Writing (List Line) :=
  match node.kind with
  | .block locals statements =>
    blockLines registry arena (expression registry arena (depthBound arena))
      (statement registry arena (depthBound arena) 0) 0 (node.type ≠ .void)
      (arena.list locals) (arena.list statements)
  | kind =>
    if node.type ≠ .void && isExpression kind then
      return [returnLine 0 (← expression registry arena (depthBound arena) body)]
    else statement registry arena (depthBound arena) 0 body

/-- The lines of a function's body are those of its node. -/
theorem bodyLines_eq {root : Node} (known : arena.node? id = some root)
    (found : arena.node? (bodyOf arena id) = some node) :
    bodyLines registry arena id [] = linesOfBody registry arena (bodyOf arena id) node [] := by
  obtain ⟨kind, type⟩ := root
  have isKind : arena.kind id = .ok kind := Arena.kind_eq_ok.mpr ⟨_, known, rfl⟩
  have isNode : arena.node (bodyOf arena id) = .ok node := Checked.ofOption_eq_ok.mpr found
  refine (Work.lift_bind_of_ok isKind).trans ?_
  cases kind with
  | lambda parameters body =>
    have same : bodyOf arena id = body := by rw [bodyOf, known]
    rw [same] at isNode ⊢
    exact Work.lift_bind_of_ok isNode
  | _ =>
    have same : bodyOf arena id = id := by rw [bodyOf, known]
    rw [same] at isNode ⊢
    exact Work.lift_bind_of_ok isNode

/-- The body of every function of a formed arena is written, as its pieces say. -/
theorem bodyLines_eq_ok (closed : registry.Closed) (formed : arena.Formed registry)
    (has : arena.Has id) :
    ∃ pieces after, WritesBody registry arena (bodyOf arena id) pieces ∧
      bodyLines registry arena id [] = .ok (linesOf pieces, after) := by
  have bodyHas := bodyOf_has formed has
  obtain ⟨root, known⟩ := Arena.has_iff.mp has
  obtain ⟨node, found⟩ := Arena.has_iff.mp bodyHas
  rw [bodyLines_eq known found]
  suffices written : ∃ lines after,
      linesOfBody registry arena (bodyOf arena id) node [] = .ok (lines, after) ∧
      Tells registry arena (pendingInBody arena node)
        (bodyItems registry arena (bodyOf arena id) node) lines after by
    obtain ⟨lines, after, shown, pieces, rows, told⟩ := written
    exact ⟨pieces, after, ⟨node, after, found, told⟩, rows.linesOf.symm ▸ shown⟩
  have part := Formed.within_bound closed formed bodyHas
  generalize bodyOf arena id = body at found part
  have whole : ∃ lines after,
      (if node.type ≠ .void && isExpression node.kind then do
        return [returnLine 0 (← expression registry arena (depthBound arena) body)]
      else statement registry arena (depthBound arena) 0 body : Writing (List Line)) [] =
        .ok (lines, after) ∧
      Tells registry arena [] (if node.type ≠ .void && isExpression node.kind then
        returnItems 0 body else [.statement 0 body]) lines after := by
    cases returns : decide (node.type ≠ .void) && isExpression node.kind with
    | true =>
      obtain ⟨text, written, said⟩ := part.plain
      refine ⟨[returnLine 0 text], [], ?_, said.markedLine _ "return "⟩
      exact Work.bind_eq_ok.mpr ⟨_, _, Work.lift_eq_ok.mpr ⟨written, rfl⟩, rfl⟩
    | false => exact part.stated 0 []
  cases sort : node.kind with
  | block locals statements =>
    have parts : ∀ child ∈ arena.children node.kind, Part registry arena (depthBound arena) child :=
      fun child isChild => Formed.within_bound closed formed
        (Nat.lt_trans ((formed _ node found).older child isChild) part.has)
    rw [sort] at parts
    rw [linesOfBody, bodyItems, pendingInBody, sort]
    exact blockLines_told closed
      (fun binding isListed => (parts binding (List.mem_append_left _ isListed)).binding formed)
      (fun statement isListed => parts statement (List.mem_append_right _ isListed)) 0 body
      (node.type ≠ .void) []
  | _ =>
    rw [linesOfBody, bodyItems, pendingInBody, sort]
    rw [sort] at whole
    exact whole

/-- The text of lines: it is the lines as they are laid out, without line ends after them, if the
spaces in front of the lines can be counted. -/
def textOf (width : Nat) (lines : List Line) : Checked String :=
  if ∀ line ∈ lines, line.level * width < UInt64.size then
    .ok (IndentedText.mk (layout width lines ++ "\n") width).trimTrailingNewlines.text
  else .error .violation

/-- The text of a body is the text of its lines. -/
theorem bodyText_eq {lines : List Line} {after : List NodeId}
    (written : bodyLines registry arena id [] = .ok (lines, after)) (width : Nat) :
    bodyText registry arena width id = textOf width lines := by
  have whole : bodyText registry arena width id = (do
      let written ← (IndentedText.start width).lines lines
      return written.trimTrailingNewlines.text : Checked String) := by
    rw [bodyText, written]
    rfl
  rw [whole, textOf]
  by_cases fit : ∀ line ∈ lines, line.level * width < UInt64.size
  · rw [if_pos fit]
    by_cases present : lines = []
    · rw [present]
      show Except.ok (IndentedText.start width).trimTrailingNewlines.text = _
      simp [IndentedText.trimTrailingNewlines, IndentedText.start, layout]
    · rw [IndentedText.lines_eq_ok present fit, IndentedText.emit, IndentedText.start,
        String.empty_append]
      rfl
  · rw [if_neg fit]
    simp only [Classical.not_forall] at fit
    obtain ⟨line, isListed, exceeds⟩ := fit
    rw [IndentedText.lines_eq_error isListed exceeds]
    rfl

end Trees

end Foreach.Source
