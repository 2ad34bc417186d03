import Foreach.Proofs.Source.Depth
import Foreach.Proofs.Text.Nesting
import Foreach.Proofs.Tree.Reach
import Foreach.Proofs.Types.Spelling

/-!
# The text of a function is laid out well

If the names that a tree is written with are identifiers, what is written of it is nested: the lines
of a body stand between two braces of their own, one level deeper (`Source.Nested`), and every other
text, among them a statement that is written on one line, can be a line. The induction is on the
bound on nesting, for both ways of writing a node at once. So the text of every function that
constructors make is laid out well, with levels of any width (`Arena.Assembled.wellLaidOut`).
-/
namespace Foreach

open Text

/-- The names that a node is written with are identifiers. -/
structure Node.WellNamed (registry : Registry) (node : Node) : Prop where
  /-- The name of a binding is one. -/
  binding : ∀ name ∈ node.kind.bindingName?, isIdentifier name = true
  /-- The name of a member is one. -/
  member : ∀ member ∈ node.kind.member?, ∀ entry ∈ registry.member? member,
    isIdentifier entry.name = true
  /-- The names in the name of the type are. -/
  type : registry.Spelt node.type

/-- The names that a tree is written with are identifiers. -/
def Arena.WellNamed (registry : Registry) (arena : Arena) (root : NodeId) : Prop :=
  ∀ id node, arena.Reaches root id → arena.node? id = some node → node.WellNamed registry

/-- The names that parts of a tree are written with are identifiers. -/
theorem Arena.WellNamed.child {registry : Registry} {arena : Arena} {parent child : NodeId}
    {node : Node} (named : arena.WellNamed registry parent)
    (found : arena.node? parent = some node) (isChild : child ∈ arena.children node.kind) :
    arena.WellNamed registry child :=
  fun id other reached =>
    named id other (.child (kind_eq_ok.mpr ⟨node, found, rfl⟩) isChild reached)

namespace Source

/-- Lines are nested at a level: what is deeper stands between two braces at that level. -/
inductive Nested : Nat → List Line → Prop where
  /-- Nothing is. -/
  | nil {level : Nat} : Nested level []
  /-- A line with nothing on it does not count. -/
  | blank {level : Nat} {rest : List Line} (below : Nested level rest) :
    Nested level (.blank :: rest)
  /-- A line stands at the level. -/
  | line {level : Nat} {text : String} {rest : List Line} (solid : Solid text)
    (below : Nested level rest) : Nested level (⟨level, text⟩ :: rest)
  /-- A body stands one level deeper, in braces. -/
  | body {level : Nat} {lines rest : List Line} (inside : Nested (level + 1) lines)
    (below : Nested level rest) : Nested level (braced level lines ++ rest)

section Lines

variable {level : Nat} {lines more : List Line} {text : String}

/-- Nested lines in order are nested. -/
theorem Nested.append (nested : Nested level lines) (nestedToo : Nested level more) :
    Nested level (lines ++ more) := by
  induction nested with
  | nil => exact nestedToo
  | blank below ih => exact .blank (ih nestedToo)
  | line solid below ih => exact .line solid (ih nestedToo)
  | body inside below _ ih =>
    rw [List.append_assoc]
    exact .body inside (ih nestedToo)

/-- A line of its own is nested. -/
theorem Nested.single (solid : Solid text) : Nested level [⟨level, text⟩] := .line solid .nil

/-- A body of its own is nested. -/
theorem Nested.braced (inside : Nested (level + 1) lines) : Nested level (braced level lines) := by
  have whole : Nested level (Source.braced level lines ++ []) := .body inside .nil
  rwa [List.append_nil] at whole

/-- A nested line is blank, or what stands on it has no blanks at its ends and does not end the
line. -/
theorem Nested.tight (nested : Nested level lines) :
    ∀ line ∈ lines, line = .blank ∨ '\n' ∉ line.text.toList ∧
      (∃ first, line.text.toList.head? = some first ∧ isBlank first = false) ∧
        ∃ last, line.text.toList.getLast? = some last ∧ isBlank last = false := by
  induction nested with
  | nil => exact nofun
  | blank below ih =>
    rintro line (_ | ⟨_, isListed⟩)
    · exact .inl rfl
    · exact ih line isListed
  | line solid below ih =>
    rintro line (_ | ⟨_, isListed⟩)
    · exact .inr ⟨solid.flat.oneLine, solid.opens.starts, solid.closes.ends⟩
    · exact ih line isListed
  | body inside below ihInside ihBelow =>
    have isBrace (brace : String) (isOne : brace = openBrace ∨ brace = closeBrace) :
        '\n' ∉ brace.toList ∧ (∃ first, brace.toList.head? = some first ∧ isBlank first = false) ∧
          ∃ last, brace.toList.getLast? = some last ∧ isBlank last = false := by
      obtain rfl | rfl := isOne
      · exact ⟨by decide, ⟨_, rfl, rfl⟩, _, rfl, rfl⟩
      · exact ⟨by decide, ⟨_, rfl, rfl⟩, _, rfl, rfl⟩
    intro line isListed
    obtain inBody | isLater := List.mem_append.mp isListed
    · obtain isInside | isClosing := List.mem_append.mp inBody
      · obtain rfl | isInside := List.mem_cons.mp isInside
        · exact .inr (isBrace openBrace (.inl rfl))
        · exact ihInside line isInside
      · cases List.mem_singleton.mp isClosing
        exact .inr (isBrace closeBrace (.inr rfl))
    · exact ihBelow line isLater

/-- A line stands behind its spaces. -/
theorem Line.toList_layout (width : Nat) (line : Line) :
    (line.layout width).toList = indentation width line.level ++ line.text.toList := by
  rw [Line.layout, IndentedText.spaces, String.toList_append, String.toList_ofList]
  rfl

/-- A blank line stands behind no spaces. -/
theorem Line.layout_blank (width : Nat) : (Line.blank.layout width).toList = [] := by
  rw [Line.toList_layout, Line.blank, indentation, Nat.zero_mul]
  rfl

/-- A line that is written without indentation is what stands on it. -/
theorem Line.layout_zero (line : Line) : (line.layout 0).toList = line.text.toList := by
  rw [Line.toList_layout, indentation, Nat.mul_zero]
  rfl

/-- Lines that are laid out are put together with line ends between them. -/
theorem toList_layout (width : Nat) (lines : List Line) :
    (layout width lines).toList =
      ['\n'].intercalate (lines.map fun line => (line.layout width).toList) := by
  rw [layout, String.toList_intercalate, List.map_map]
  rfl

/-- No line end is in a nested line. -/
theorem Nested.oneLine (nested : Nested level lines) (width : Nat) :
    ∀ line ∈ lines, '\n' ∉ (line.layout width).toList := by
  intro line isListed
  obtain rfl | ⟨oneLine, -⟩ := nested.tight line isListed
  · rw [Line.layout_blank]
    exact nofun
  · rw [Line.toList_layout, List.mem_append, not_or]
    exact ⟨fun inSpaces => by simp [indentation] at inSpaces, oneLine⟩

/-- Nested lines are nested well once they stand behind their spaces. -/
theorem Nested.wellNested (nested : Nested level lines) (width : Nat) {after : List (List Char)}
    (below : WellNested width level after) :
    WellNested width level ((lines.map fun line => (line.layout width).toList) ++ after) := by
  induction nested generalizing after with
  | nil => exact below
  | blank _ ih =>
    rw [List.map_cons, List.cons_append, Line.layout_blank]
    exact .empty (ih below)
  | @line level text rest solid _ ih =>
    obtain ⟨first, isFirst, starts⟩ := solid.opens.starts
    obtain ⟨others, characters⟩ := List.head?_eq_some_iff.mp isFirst
    have balanced := solid.flat.balanced 0
    rw [List.map_cons, List.cons_append, Line.toList_layout]
    rw [characters] at balanced ⊢
    exact .inside starts balanced (ih below)
  | body _ _ ihInside ihBelow =>
    have closed := ihInside (.closing (ihBelow below))
    have opened := WellNested.opening closed
    simpa [Source.braced, Line.toList_layout, openBrace, closeBrace] using opened

/-- What stands on nested lines, each followed by a space, opens and closes as many braces. -/
theorem Nested.balanced (nested : Nested level lines) (depth : Nat) :
    braceDepth (((lines.map (·.text.toList)).filter (· ≠ [])).flatMap (· ++ [' '])) depth =
      some depth := by
  induction nested generalizing depth with
  | nil => rfl
  | blank _ ih => exact ih depth
  | @line level text rest solid _ ih =>
    obtain ⟨first, isFirst, -⟩ := solid.opens.starts
    have present : text.toList ≠ [] := fun isEmpty => by simp [isEmpty] at isFirst
    rw [List.map_cons, List.filter_cons_of_pos (by simpa using present), List.flatMap_cons,
      braceDepth_append, (solid.flat.append (flat_of_plain rfl)).balanced]
    exact ih depth
  | @body level lines rest _ _ ihInside ihBelow =>
    have split : (((Source.braced level lines ++ rest).map (·.text.toList)).filter (· ≠ [])).flatMap
        (· ++ [' ']) = ['\x7b', ' '] ++
          (((lines.map (·.text.toList)).filter (· ≠ [])).flatMap (· ++ [' ']) ++
            (['\x7d', ' '] ++
              ((rest.map (·.text.toList)).filter (· ≠ [])).flatMap (· ++ [' ']))) := by
      simp [Source.braced, openBrace, closeBrace]
    rw [split, braceDepth_append]
    show braceDepth _ (depth + 1) = _
    rw [braceDepth_append, ihInside, Option.bind_some, braceDepth_append]
    exact ihBelow depth

/-- Pieces with spaces between them are the pieces each followed by a space, but for the last
space. -/
theorem flatMap_space {pieces : List (List Char)} (present : pieces ≠ []) :
    pieces.flatMap (· ++ [' ']) = [' '].intercalate pieces ++ [' '] := by
  induction pieces with
  | nil => exact absurd rfl present
  | cons piece rest ih =>
    by_cases isLast : rest = []
    · rw [isLast, List.intercalate_singleton, List.flatMap_cons, List.flatMap_nil, List.append_nil]
    · rw [List.flatMap_cons, ih isLast, List.intercalate_cons_of_ne_nil isLast]
      simp

/-- Characters without blanks at their ends stay as they are. -/
theorem trimBlank_of_solid {characters : List Char}
    (starts : ∃ first, characters.head? = some first ∧ isBlank first = false)
    (ends : ∃ last, characters.getLast? = some last ∧ isBlank last = false) :
    trimBlank characters = characters := by
  obtain ⟨first, isFirst, solid⟩ := starts
  obtain ⟨rest, rfl⟩ := List.head?_eq_some_iff.mp isFirst
  obtain ⟨last, isLast, solidToo⟩ := ends
  obtain ⟨earlier, whole⟩ := List.getLast?_eq_some_iff.mp isLast
  rw [trimBlank, List.dropWhile_cons_of_neg (by simp [solid]), whole, List.reverse_append,
    List.reverse_singleton, List.singleton_append,
    List.dropWhile_cons_of_neg (by simp [solidToo]), List.reverse_cons, List.reverse_reverse]

/-- The lines of what nested lines are written as without indentation are what stands on them, and
an empty one. -/
theorem Nested.splitAt_lines (nested : Nested level lines) :
    ∃ written, (IndentedText.start 0).lines lines = .ok written ∧
      splitAt '\n' written.text.toList = lines.map (·.text.toList) ++ [[]] := by
  by_cases present : lines = []
  · rw [present]
    exact ⟨_, rfl, rfl⟩
  · have fit : ∀ line ∈ lines, line.level * (IndentedText.start 0).width < UInt64.size := by
      intro line _
      rw [IndentedText.start, Nat.mul_zero]
      decide
    have pieces : (lines.map fun line => (line.layout 0).toList) = lines.map (·.text.toList) :=
      List.map_congr_left fun line _ => Line.layout_zero line
    refine ⟨_, IndentedText.lines_eq_ok present fit, ?_⟩
    have whole : ((IndentedText.start 0).emit (layout 0 lines ++ "\n")).text.toList =
        ['\n'].intercalate (lines.map (·.text.toList) ++ [[]]) := by
      rw [intercalate_concat (by simpa using present), ← pieces, ← toList_layout,
        IndentedText.emit, IndentedText.start, String.empty_append, String.toList_append]
      rfl
    rw [IndentedText.start] at whole ⊢
    rw [whole]
    refine splitAt_intercalate (by simp) fun piece isPiece => ?_
    obtain isText | isEmpty := List.mem_append.mp isPiece
    · obtain ⟨line, isListed, rfl⟩ := List.mem_map.mp isText
      exact Line.layout_zero line ▸ nested.oneLine 0 line isListed
    · rw [List.mem_singleton.mp isEmpty]
      exact List.not_mem_nil

/-- Nested lines are inlined as what stands on them, if it is anything, between spaces and
braces. -/
theorem Nested.inlined_eq (nested : Nested level lines) :
    inlined lines = .ok (openBrace ++ " " ++ " ".intercalate
      (((lines.map (·.text.toList)).filter (· ≠ [])).map String.ofList) ++ " " ++ closeBrace) := by
  obtain ⟨written, isWritten, pieces⟩ := nested.splitAt_lines
  have trimmed : (lines.map (·.text.toList)).map trimBlank = lines.map (·.text.toList) := by
    rw [List.map_map]
    refine List.map_congr_left fun line isListed => ?_
    obtain rfl | ⟨-, starts, ends⟩ := nested.tight line isListed
    · rfl
    · exact trimBlank_of_solid starts ends
  rw [inlined, isWritten]
  show Except.ok _ = _
  have nothing : trimBlank [] = [] := rfl
  rw [pieces, List.map_append, trimmed, List.filter_append]
  simp [nothing]

/-- A statement that is written on one line can be a line. -/
theorem Nested.inlined_solid (nested : Nested level lines) (shown : inlined lines = .ok text) :
    Solid text := by
  have each : ∀ piece ∈ (lines.map (·.text.toList)).filter (· ≠ []), '\n' ∉ piece := by
    intro piece isPiece
    obtain ⟨line, isListed, rfl⟩ := List.mem_map.mp (List.mem_of_mem_filter isPiece)
    exact Line.layout_zero line ▸ nested.oneLine 0 line isListed
  have balanced := nested.balanced
  have whole := Except.ok.inj (nested.inlined_eq.symm.trans shown)
  generalize (lines.map (·.text.toList)).filter (· ≠ []) = pieces at each balanced whole
  have characters : text.toList = ['\x7b', ' '] ++ (([' '].intercalate pieces ++ [' ']) ++
      ['\x7d']) := by
    rw [← whole]
    simp [openBrace, closeBrace, String.toList_intercalate, Function.comp_def]
  have inside : Flat ([' '].intercalate pieces ++ [' ']) := by
    by_cases isEmpty : pieces = []
    · rw [isEmpty]
      exact flat_of_plain rfl
    · rw [← flatMap_space isEmpty]
      refine ⟨fun isEnd => ?_, balanced⟩
      obtain ⟨piece, isPiece, isEnd⟩ := List.mem_flatMap.mp isEnd
      simp [each piece isPiece] at isEnd
  have flat : Flat text.toList := by
    rw [characters]
    refine ⟨?_, fun depth => ?_⟩
    · simp only [List.mem_append, not_or]
      exact ⟨by decide, List.mem_append.not.mp inside.oneLine |> not_or.mp, by decide⟩
    · rw [braceDepth_append]
      show braceDepth _ (depth + 1) = _
      rw [braceDepth_append, inside.balanced]
      rfl
  refine ⟨⟨flat, '\x7b', ?_, rfl⟩, ⟨flat, '\x7d', ?_, rfl⟩⟩
  · rw [characters]
    rfl
  · rw [characters, ← List.append_assoc, List.getLast?_concat]

end Lines

section Writing

variable {registry : Registry} {arena : Arena} {depth : Nat}

/-- Nodes whose names are identifiers are written inside a line as texts that can be lines. -/
def WritesSolid (registry : Registry) (arena : Arena) (depth : Nat) : Prop :=
  ∀ id text, arena.WellNamed registry id → expression registry arena depth id = .ok text →
    Solid text

/-- Nodes whose names are identifiers are written as nested lines. -/
def WritesNested (registry : Registry) (arena : Arena) (depth : Nat) : Prop :=
  ∀ id level pending lines after, arena.WellNamed registry id →
    statement registry arena depth level id pending = .ok (lines, after) → Nested level lines

section Expressions

variable {id : NodeId} {node : Node} {text : String}

/-- A receiver or operand can be a line if the text of its node can. -/
theorem operandText_solid (kind : NodeKind) (solid : Solid text) :
    Solid (operandText kind text) := by
  have opening : Opens "(" := ⟨flat_of_plain rfl, '(', rfl, rfl⟩
  have closing : Closes ")" := ⟨flat_of_plain rfl, ')', rfl, rfl⟩
  rw [operandText]
  split
  · exact solid
  · exact solid.within opening closing

/-- A node is written inside a line as a text that can be a line, if its parts are. -/
theorem expression_solid (solid : WritesSolid registry arena depth)
    (nested : WritesNested registry arena depth) : WritesSolid registry arena (depth + 1) := by
  intro id text named written
  obtain ⟨⟨kind, type⟩, isNode, -⟩ := Work.checked_bind_eq_ok.mp written
  have found : arena.node? id = some ⟨kind, type⟩ := Checked.ofOption_eq_ok.mp isNode
  have known : arena.kind id = .ok kind := Arena.kind_eq_ok.mpr ⟨_, found, rfl⟩
  have own := named id _ (.refl id) found
  have part : ∀ child ∈ arena.children kind, ∀ text,
      expression registry arena depth child = .ok text → Solid text :=
    fun child isChild text => solid child text (named.child found isChild)
  have opening : Opens "(" := ⟨flat_of_plain rfl, '(', rfl, rfl⟩
  have closing : Closes ")" := ⟨flat_of_plain rfl, ')', rfl, rfl⟩
  cases kind with
  | parameter | var =>
    obtain rfl := (expression_of_word known rfl).mp written
    exact solid_of_isIdentifier (own.binding _ rfl)
  | int value =>
    obtain rfl := (expression_of_word known rfl).mp written
    exact solid_writeInteger value
  | bool value =>
    obtain rfl := (expression_of_word known rfl).mp written
    cases value <;> exact solid_of_isIdentifier rfl
  | null =>
    obtain rfl := (expression_of_word known rfl).mp written
    exact solid_of_isIdentifier rfl
  | assign left right | addAssign left right | notEqual left right =>
    obtain ⟨first, second, isFirst, isSecond, rfl⟩ := (expression_of_sign known rfl).mp written
    exact (part left (by simp [Arena.children]) first isFirst).between (flat_of_plain rfl)
      (part right (by simp [Arena.children]) second isSecond)
  | call receiver method arguments =>
    obtain ⟨texts, receiverText, kind, entry, listed, isReceiver, -, isMember, rfl⟩ :=
      (expression_of_call known).mp written
    have isName := own.member method rfl entry isMember
    have first := operandText_solid kind (part receiver (by simp [Arena.children]) _ isReceiver)
    have inside : Flat (", ".intercalate texts).toList := by
      refine flat_intercalate (flat_of_plain rfl) fun argument isListed => ?_
      obtain ⟨child, isChild, isText⟩ := Work.exists_of_mem_mapM listed isListed
      exact (part child (by simp [Arena.children, isChild]) argument isText).flat
    have called : Solid (operandText kind receiverText ++ "." ++ entry.name) :=
      first.between (flat_of_plain rfl) (solid_of_isIdentifier isName)
    have opened : Opens (operandText kind receiverText ++ "." ++ entry.name ++ "(") :=
      called.opens.append (flat_of_plain rfl)
    exact (opened.append inside).close closing
  | property receiver member =>
    obtain ⟨receiverText, kind, entry, isReceiver, -, isMember, rfl⟩ :=
      (expression_of_property known).mp written
    have isName := own.member member rfl entry isMember
    have first := operandText_solid kind (part receiver (by simp [Arena.children]) _ isReceiver)
    exact first.between (flat_of_plain rfl) (solid_of_isIdentifier isName)
  | convert value =>
    have typed : arena.typeOf id = .ok type := Arena.typeOf_eq_ok.mpr ⟨_, found, rfl⟩
    obtain ⟨typeName, valueText, kind, isTypeName, isValue, -, rfl⟩ :=
      (expression_of_convert known typed).mp written
    have second := operandText_solid kind (part value (by simp [Arena.children]) _ isValue)
    have cast := (own.type.isTypeName isTypeName).solid.within opening closing
    exact cast.opens.close second.closes
  | lambda parameters body =>
    obtain ⟨texts, bodyText, listed, isBody, rfl⟩ := (expression_of_lambda known).mp written
    have inside : Flat (", ".intercalate texts).toList := by
      refine flat_intercalate (flat_of_plain rfl) fun parameter isListed => ?_
      obtain ⟨child, isChild, isText⟩ := Work.exists_of_mem_mapM listed isListed
      exact (part child (by simp [Arena.children, isChild]) parameter isText).flat
    have second := part body (by simp [Arena.children]) bodyText isBody
    exact ((opening.append inside).append (flat_of_plain rfl)).close second.closes
  | block | ifThen | ifThenElse | loop | breakTo | tryFinally =>
    obtain ⟨lines, after, shown, isInlined⟩ := (expression_of_statement known rfl).mp written
    exact (nested id 0 [] lines after named shown).inlined_solid isInlined

end Expressions

section Statements

variable {level : Nat} {statements locals pending after : List NodeId} {lines : List Line}

/-- Variables are declared on nested lines. -/
theorem introductions_nested (solid : WritesSolid registry arena depth)
    (named : ∀ binding ∈ locals, arena.WellNamed registry binding)
    (written : introductions registry arena (expression registry arena depth) level statements
      locals pending = .ok (lines, after)) : Nested level lines := by
  induction locals generalizing pending lines after with
  | nil =>
    cases written
    exact .nil
  | cons binding rest ih =>
    have others := fun other isListed => named other (List.mem_cons_of_mem binding isListed)
    have own := named binding List.mem_cons_self
    obtain ⟨assigned, middle, -, written⟩ := Work.bind_eq_ok.mp written
    cases assigned with
    | true =>
      obtain ⟨_, _, -, written⟩ := Work.bind_eq_ok.mp written
      exact ih others written
    | false =>
      obtain ⟨type, _, asked, written⟩ := Work.bind_eq_ok.mp written
      obtain ⟨typeName, _, askedName, written⟩ := Work.bind_eq_ok.mp written
      obtain ⟨name, _, askedText, written⟩ := Work.bind_eq_ok.mp written
      obtain ⟨more, _, later, written⟩ := Work.bind_eq_ok.mp written
      obtain ⟨typed, -⟩ := Work.lift_eq_ok.mp asked
      obtain ⟨isTypeName, -⟩ := Work.lift_eq_ok.mp askedName
      obtain ⟨isName, -⟩ := Work.lift_eq_ok.mp askedText
      cases written
      obtain ⟨node, found, rfl⟩ := Arena.typeOf_eq_ok.mp typed
      have spelt := (own binding node (.refl binding) found).type
      have declared : Solid (typeName ++ " " ++ name) :=
        (spelt.isTypeName isTypeName).solid.between (flat_of_plain rfl)
          (solid binding name own isName)
      exact .line declared.ended (ih others later)

/-- A value is returned on a line. -/
theorem returnLine_nested {value : String} (solid : Solid value) :
    Nested level [returnLine level value] :=
  .single (solid.within ⟨flat_of_plain rfl, 'r', rfl, rfl⟩ ⟨flat_of_plain rfl, ';', rfl, rfl⟩)

/-- Statements in order are nested lines. -/
theorem sequence_nested (solid : WritesSolid registry arena depth)
    (nested : WritesNested registry arena depth) {yields : Bool}
    (named : ∀ statement ∈ statements, arena.WellNamed registry statement)
    (written : sequence arena (expression registry arena depth)
      (statement registry arena depth level) level yields statements pending =
        .ok (lines, after)) : Nested level lines := by
  induction statements generalizing pending lines after with
  | nil =>
    cases written
    exact .nil
  | cons next rest ih =>
    have own := named next List.mem_cons_self
    have others := fun other isListed => named other (List.mem_cons_of_mem next isListed)
    cases rest with
    | nil =>
      obtain ⟨kind, _, asked, -⟩ := Work.bind_eq_ok.mp written
      obtain ⟨known, -⟩ := Work.lift_eq_ok.mp asked
      rcases (sequence_last_eq_ok known).mp written with ⟨-, value, isValue, rfl, -⟩ | ⟨-, shown⟩
      · exact returnLine_nested (solid next value own isValue)
      · exact nested next level _ lines after own shown
    | cons second more =>
      obtain ⟨first, middle, kind, later, isFirst, -, isLater, rfl⟩ :=
        sequence_cons_eq_ok.mp written
      have gap : Nested level (if isMultiLine kind then [Line.blank] else []) := by
        split
        · exact .blank .nil
        · exact .nil
      exact ((nested next level _ first _ own isFirst).append gap).append (ih others isLater)

/-- A block is written as nested lines. -/
theorem blockLines_nested (solid : WritesSolid registry arena depth)
    (nested : WritesNested registry arena depth) {yields : Bool}
    (named : ∀ part ∈ locals ++ statements, arena.WellNamed registry part)
    (written : blockLines registry arena (expression registry arena depth)
      (statement registry arena depth level) level yields locals statements pending =
        .ok (lines, after)) : Nested level lines := by
  obtain ⟨declared, _, shown, introduced, listed, rfl⟩ := blockLines_eq_ok.mp written
  have first := introductions_nested solid
    (fun binding isListed => named binding (List.mem_append_left _ isListed)) introduced
  have second := sequence_nested solid nested
    (fun statement isListed => named statement (List.mem_append_right _ isListed)) listed
  exact first.append second

/-- A node is written as nested lines, if its parts are. -/
theorem statement_nested (solid : WritesSolid registry arena depth)
    (nested : WritesNested registry arena depth) : WritesNested registry arena (depth + 1) := by
  intro id level pending lines after named written
  obtain ⟨kind, _, asked, -⟩ := Work.bind_eq_ok.mp written
  obtain ⟨known, -⟩ := Work.lift_eq_ok.mp asked
  obtain ⟨node, found, rfl⟩ := Arena.kind_eq_ok.mp known
  have part {child : NodeId} (isChild : child ∈ arena.children node.kind) :=
    named.child found isChild
  have word {text : String} (isWord : isIdentifier text = true) :
      Nested level [⟨level, text⟩] := .single (solid_of_isIdentifier isWord)
  have condition {text : String} (isText : Solid text) :
      Nested level [⟨level, "if (" ++ text ++ ")"⟩] :=
    .single (isText.within ⟨flat_of_plain rfl, 'i', rfl, rfl⟩ ⟨flat_of_plain rfl, ')', rfl, rfl⟩)
  have line (text : String) (isText : expression registry arena depth id = .ok text) :
      Solid text := solid id text named isText
  cases sort : node.kind with
  | block locals statements =>
    rw [sort] at known part
    exact blockLines_nested solid nested (fun child isChild => part isChild)
      ((statement_of_block known).mp written)
  | ifThen test consequence =>
    rw [sort] at known part
    obtain ⟨text, body, isText, isBody, rfl⟩ := (statement_of_ifThen known).mp written
    have inside := nested consequence _ _ body _ (part (by simp [Arena.children])) isBody
    exact (condition (solid test text (part (by simp [Arena.children])) isText)).append
      inside.braced
  | ifThenElse test consequence alternative =>
    rw [sort] at known part
    obtain ⟨text, body, _, other, isText, isBody, isOther, rfl⟩ :=
      (statement_of_ifThenElse known).mp written
    have inside := nested consequence _ _ body _ (part (by simp [Arena.children])) isBody
    have otherwise := nested alternative _ _ other _ (part (by simp [Arena.children])) isOther
    have first := (condition (solid test text (part (by simp [Arena.children])) isText)).append
      inside.braced
    exact first.append ((word rfl).append otherwise.braced)
  | loop body exit =>
    rw [sort] at known part
    obtain ⟨body', isBody, rfl⟩ := (statement_of_loop known).mp written
    have inside := nested body _ _ body' _ (part (by simp [Arena.children])) isBody
    have header : Solid "while (true)" :=
      solid_of_plain rfl rfl rfl rfl rfl
    exact (Nested.single header).append inside.braced
  | breakTo label =>
    rw [sort] at known
    obtain ⟨rfl, -⟩ := (statement_of_breakTo known).mp written
    have isWord : isIdentifier "break" = true := rfl
    exact .single (solid_of_isIdentifier isWord).ended
  | tryFinally body cleanup =>
    rw [sort] at known part
    obtain ⟨body', _, cleanup', isBody, isCleanup, rfl⟩ :=
      (statement_of_tryFinally known).mp written
    have inside := nested body _ _ body' _ (part (by simp [Arena.children])) isBody
    have finally' := nested cleanup _ _ cleanup' _ (part (by simp [Arena.children])) isCleanup
    exact ((word rfl).append inside.braced).append ((word rfl).append finally'.braced)
  | assign target value =>
    rw [sort] at known
    obtain ⟨text, isText, ⟨-, rfl, -⟩ | ⟨-, rfl, -⟩⟩ := (statement_of_assign known).mp written
    · exact .single ((line text isText).within ⟨flat_of_plain rfl, 'v', rfl, rfl⟩
        ⟨flat_of_plain rfl, ';', rfl, rfl⟩)
    · exact .single (line text isText).ended
  | parameter | var | int | bool | null | addAssign | call | property | convert | notEqual
  | lambda =>
    rw [sort] at known
    obtain ⟨text, isText, rfl, -⟩ :=
      (statement_of_expression known rfl fun _ _ same => by cases same).mp written
    exact .single (line text isText).ended

/-- At every bound on nesting, nodes are written as nested lines and as texts that can be lines. -/
theorem writes_nested (registry : Registry) (arena : Arena) (depth : Nat) :
    WritesSolid registry arena depth ∧ WritesNested registry arena depth := by
  induction depth with
  | zero =>
    constructor
    · intro id text named written
      cases written
    · intro id level pending lines after named written
      cases written
  | succ depth ih => exact ⟨expression_solid ih.1 ih.2, statement_nested ih.1 ih.2⟩

/-- The names that the body of a function is written with are among those of the function. -/
theorem wellNamed_bodyOf {root : NodeId} (named : arena.WellNamed registry root) :
    arena.WellNamed registry (bodyOf arena root) := by
  rw [bodyOf]
  split
  next parameters body type found => exact named.child found (by simp [Arena.children])
  next => exact named

/-- The lines of a function's body are nested. -/
theorem bodyLines_nested {root : NodeId} {rootNode node : Node}
    (named : arena.WellNamed registry root) (known : arena.node? root = some rootNode)
    (found : arena.node? (bodyOf arena root) = some node)
    (written : bodyLines registry arena root [] = .ok (lines, after)) : Nested 0 lines := by
  obtain ⟨solid, nested⟩ := writes_nested registry arena (depthBound arena)
  have own := wellNamed_bodyOf named
  rw [bodyLines_eq known found] at written
  generalize bodyOf arena root = body at found own written
  have plain (shown : (if node.type ≠ .void && isExpression node.kind then do
        return [returnLine 0 (← expression registry arena (depthBound arena) body)]
      else statement registry arena (depthBound arena) 0 body : Writing (List Line)) [] =
        .ok (lines, after)) : Nested 0 lines := by
    split at shown
    · obtain ⟨value, _, asked, shown⟩ := Work.bind_eq_ok.mp shown
      obtain ⟨isValue, -⟩ := Work.lift_eq_ok.mp asked
      cases shown
      exact returnLine_nested (solid body value own isValue)
    · exact nested body 0 [] lines after own shown
  cases sort : node.kind with
  | block locals statements =>
    rw [linesOfBody, sort] at written
    refine blockLines_nested solid nested (fun child isChild => own.child found ?_) written
    rw [sort]
    exact isChild
  | _ =>
    rw [linesOfBody, sort] at written
    rw [sort] at plain
    exact plain written

end Statements

end Writing

/-- Nested lines make a text that is laid out well. -/
theorem Nested.textOf_wellLaidOut {lines : List Line} {width : Nat} {text : String}
    (nested : Nested 0 lines) (shown : textOf width lines = .ok text) : WellLaidOut width text := by
  rw [textOf] at shown
  split at shown
  · cases shown
    have fromTop := nested.wellNested width .done
    rw [List.append_nil] at fromTop
    refine wellLaidOut_of_lines fromTop (fun piece isPiece => ?_) (fun piece isPiece => ?_) ?_
    · obtain ⟨line, isListed, rfl⟩ := List.mem_map.mp isPiece
      exact nested.oneLine width line isListed
    · obtain ⟨line, isListed, rfl⟩ := List.mem_map.mp isPiece
      intro last isLast
      obtain rfl | ⟨-, -, final, isFinal, solid⟩ := nested.tight line isListed
      · rw [Line.layout_blank] at isLast
        cases isLast
      · rw [Line.toList_layout, List.getLast?_append, isFinal] at isLast
        cases isLast
        exact solid
    · rw [IndentedText.trimTrailingNewlines, String.toList_ofList, String.toList_append,
        toList_layout]
      rfl
  · cases shown

end Source

open Source

/-- For every function that constructors make, with identifiers for the names of its bindings,
members and types: the text is there for every width of a level for which the spaces in front of the
deepest statement can be counted, and it is laid out well. That statement stands less deep than
there are nodes. -/
theorem Arena.Assembled.wellLaidOut {registry : Registry} {arena : Arena} {root : NodeId}
    (complete : registry.Complete) (assembled : arena.Assembled registry) (has : arena.Has root)
    (named : arena.WellNamed registry root) :
    ∃ deepest, arena.Deepest (bodyOf arena root) deepest ∧ deepest < arena.size ∧ ∀ width,
      if deepest * width < UInt64.size then
        ∃ text, bodyText registry arena width root = .ok text ∧ WellLaidOut width text
      else bodyText registry arena width root = .error .violation := by
  have formed := assembled.formed complete
  obtain ⟨rootNode, known⟩ := Arena.has_iff.mp has
  have bodyHas := bodyOf_has formed has
  obtain ⟨node, found⟩ := Arena.has_iff.mp bodyHas
  obtain ⟨pieces, after, -, written⟩ := bodyLines_eq_ok complete.toClosed formed has
  have nested := bodyLines_nested named known found written
  obtain ⟨deepest, isDeepest, counted⟩ := (bodyLines_standing known found written).exists_deepest
  have older : arena.ChildrenOlder := fun id node found => (formed id node found).older
  refine ⟨deepest, isDeepest, isDeepest.lt_size older bodyHas, fun width => ?_⟩
  rw [bodyText_eq written width]
  split
  next fits =>
    have shown : textOf width (linesOf pieces) = .ok _ := if_pos ((counted width).mpr fits)
    exact ⟨_, shown, nested.textOf_wellLaidOut shown⟩
  next exceeds => exact if_neg (mt (counted width).mp exceeds)

section Samples

open Construction

/-- The names of a tree are identifiers if those of all nodes are. -/
theorem Arena.wellNamed_of_nodes {registry : Registry} {arena : Arena}
    (each : ∀ node ∈ arena.nodes.toList, node.WellNamed registry) (root : NodeId) :
    arena.WellNamed registry root :=
  fun _ node _ found => each node (Array.mem_toList_iff.mpr (Array.mem_of_getElem? found))

/-- A function of a flag, with a branch, and a comparison with a block that stands inside a line. -/
def inlining : Arena where
  nodes := #[⟨.parameter "flag", .bool⟩, ⟨.int 1, .int⟩, ⟨.block .empty ⟨0, 1⟩, .int⟩,
    ⟨.ifThen ⟨0⟩ ⟨2⟩, .void⟩, ⟨.notEqual ⟨1⟩ ⟨2⟩, .bool⟩, ⟨.block .empty ⟨1, 2⟩, .bool⟩,
    ⟨.lambda ⟨3, 1⟩ ⟨5⟩, .bool⟩]
  lists := #[⟨1⟩, ⟨3⟩, ⟨4⟩, ⟨0⟩]
  labels := 0

/-- Constructors fill the arena of the function. -/
theorem inlining_assembled : inlining.Assembled .initial := by
  have flag := Arena.Assembled.node .empty
    (.parameter "flag" (by decide) : Step .initial _ (parameter "flag" .bool)) rfl
  have one := Arena.Assembled.node flag (.int 1 : Step .initial _ (int 1)) rfl
  have inner := Arena.Assembled.node one (.block (by decide) :
    Step .initial _ (block [] [⟨1⟩])) rfl
  have branch := Arena.Assembled.node inner (.ifThen (by decide) (by decide) :
    Step .initial _ (ifThen ⟨0⟩ ⟨2⟩)) rfl
  have compared := Arena.Assembled.node branch (.notEqual (by decide) (by decide) :
    Step .initial _ (notEqual ⟨1⟩ ⟨2⟩)) rfl
  have outer := Arena.Assembled.node compared (.block (by decide) :
    Step .initial _ (block [] [⟨3⟩, ⟨4⟩])) rfl
  exact .node outer (.lambda : Step .initial _ (lambda [⟨0⟩] ⟨5⟩)) rfl

/-- The text of the function is laid out well. -/
theorem inlining_wellLaidOut :
    bodyText .initial inlining 4 ⟨6⟩ =
      .ok "if (flag)\n\x7b\n    1;\n\x7d\n\nreturn 1 != \x7b 1; \x7d;" ∧
    WellLaidOut 4 "if (flag)\n\x7b\n    1;\n\x7d\n\nreturn 1 != \x7b 1; \x7d;" := by
  have named : inlining.WellNamed .initial ⟨6⟩ := by
    refine Arena.wellNamed_of_nodes (fun node isNode => ?_) ⟨6⟩
    have keyword : Registry.keyword? node.type ≠ none ∧ node.kind.member? = none ∧
        ∀ name ∈ node.kind.bindingName?, isIdentifier name = true := by
      revert node
      decide +kernel
    obtain ⟨isKeyword, noMember, binding⟩ := keyword
    obtain ⟨word, isWord⟩ := Option.ne_none_iff_exists'.mp isKeyword
    exact ⟨binding, by rw [noMember]; exact nofun, .keyword isWord⟩
  obtain ⟨deepest, -, -, laidOut⟩ := Arena.Assembled.wellLaidOut Registry.initial_complete
    inlining_assembled (by decide : inlining.Has ⟨6⟩) named
  have shown : bodyText .initial inlining 4 ⟨6⟩ =
      .ok "if (flag)\n\x7b\n    1;\n\x7d\n\nreturn 1 != \x7b 1; \x7d;" := by
    decide +kernel
  have there := laidOut 4
  split at there
  · obtain ⟨text, isText, wellLaidOut⟩ := there
    cases shown.symm.trans isText
    exact ⟨shown, wellLaidOut⟩
  · cases shown.symm.trans there

end Samples

end Foreach
