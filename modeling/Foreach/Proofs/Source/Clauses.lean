import Foreach.Proofs.Tree.Typed
import Foreach.Source.Writing

/-!
# What nodes of each kind are written as

For nodes of each kind there is one statement of what the text inside a line is, and one of what the
lines of a statement are, both in terms of what the parts are written as, nested one level less. All
else that is said of the written text is read off these statements.
-/
namespace Foreach

/-- A node with what it is and the type of its value. -/
theorem Arena.node_of_kind {arena : Arena} {id : NodeId} {kind : NodeKind}
    (known : arena.kind id = .ok kind) :
    ∃ type, arena.node id = .ok ⟨kind, type⟩ ∧ arena.typeOf id = .ok type := by
  obtain ⟨⟨_, type⟩, found, rfl⟩ := Arena.kind_eq_ok.mp known
  have isNode : arena.node id = .ok ⟨_, type⟩ := Checked.ofOption_eq_ok.mpr found
  exact ⟨type, isNode, Work.checked_bind_eq_ok.mpr ⟨_, isNode, rfl⟩⟩

namespace Source

/-- The text of a receiver or operand of some kind. -/
def operandText (kind : NodeKind) (text : String) : String :=
  if isAtomic kind then text else "(" ++ text ++ ")"

/-- The text of a node without parts. -/
def word? : NodeKind → Option String
  | .parameter name | .var name => some name
  | .int value => some (Text.writeInteger value)
  | .bool value => some (if value then "true" else "false")
  | .null => some "null"
  | _ => none

/-- The parts of a node and the sign between them. -/
def sign? : NodeKind → Option (NodeId × String × NodeId)
  | .assign target value => some (target, " = ", value)
  | .addAssign target value => some (target, " += ", value)
  | .notEqual left right => some (left, " != ", right)
  | _ => none

variable {registry : Registry} {arena : Arena} {depth : Nat} {id : NodeId} {kind : NodeKind}

/-- An operand is put in parentheses or not by what it is. -/
theorem operand_eq_ok {text shown : String} :
    operand arena id text = .ok shown ↔
      ∃ kind, arena.kind id = .ok kind ∧ shown = operandText kind text := by
  refine Work.checked_bind_eq_ok.trans (exists_congr fun kind => and_congr_right fun _ => ?_)
  exact (Except.ok.injEq ..).to_iff.trans eq_comm

section Expressions

variable {text : String}

/-- A node without parts is written as its word. -/
theorem expression_of_word {word : String} (known : arena.kind id = .ok kind)
    (isWord : word? kind = some word) :
    expression registry arena (depth + 1) id = .ok text ↔ text = word := by
  obtain ⟨type, isNode, -⟩ := Arena.node_of_kind known
  have written : expression registry arena (depth + 1) id = .ok word := by
    refine Work.checked_bind_eq_ok.mpr ⟨_, isNode, ?_⟩
    cases kind <;> cases isWord <;> rfl
  rw [written, Except.ok.injEq]
  exact eq_comm

/-- A node with a sign is written with the sign between its parts. -/
theorem expression_of_sign {left right : NodeId} {sign : String}
    (known : arena.kind id = .ok kind) (isSigned : sign? kind = some (left, sign, right)) :
    expression registry arena (depth + 1) id = .ok text ↔
      ∃ first second, expression registry arena depth left = .ok first ∧
        expression registry arena depth right = .ok second ∧ text = first ++ sign ++ second := by
  obtain ⟨type, isNode, -⟩ := Arena.node_of_kind known
  have clause : expression registry arena (depth + 1) id = (do
      let first ← expression registry arena depth left
      return first ++ sign ++ (← expression registry arena depth right)) := by
    refine (Work.checked_bind_of_ok isNode).trans ?_
    cases kind <;> cases isSigned <;> rfl
  rw [clause]
  constructor
  · intro written
    obtain ⟨first, isFirst, written⟩ := Work.checked_bind_eq_ok.mp written
    obtain ⟨second, isSecond, written⟩ := Work.checked_bind_eq_ok.mp written
    exact ⟨first, second, isFirst, isSecond, (Except.ok.inj written).symm⟩
  · rintro ⟨first, second, isFirst, isSecond, rfl⟩
    exact Work.checked_bind_eq_ok.mpr ⟨first, isFirst,
      Work.checked_bind_eq_ok.mpr ⟨second, isSecond, rfl⟩⟩

/-- A property is written behind what it is read of. -/
theorem expression_of_property {receiver : NodeId} {property : MemberId}
    (known : arena.kind id = .ok (.property receiver property)) :
    expression registry arena (depth + 1) id = .ok text ↔
      ∃ own kind entry, expression registry arena depth receiver = .ok own ∧
        arena.kind receiver = .ok kind ∧ registry.member? property = some entry ∧
        text = operandText kind own ++ "." ++ entry.name := by
  obtain ⟨type, isNode, -⟩ := Arena.node_of_kind known
  refine (Work.checked_bind_of_ok isNode).congr_left.trans ?_
  constructor
  · intro written
    obtain ⟨own, isOwn, written⟩ := Work.checked_bind_eq_ok.mp written
    obtain ⟨shown, isShown, written⟩ := Work.checked_bind_eq_ok.mp written
    obtain ⟨entry, isMember, written⟩ := Work.checked_bind_eq_ok.mp written
    obtain ⟨kind, receiverKnown, rfl⟩ := operand_eq_ok.mp isShown
    exact ⟨own, kind, entry, isOwn, receiverKnown, Checked.ofOption_eq_ok.mp isMember,
      (Except.ok.inj written).symm⟩
  · rintro ⟨own, kind, entry, isOwn, receiverKnown, isMember, rfl⟩
    refine Work.checked_bind_eq_ok.mpr ⟨own, isOwn, ?_⟩
    refine Work.checked_bind_eq_ok.mpr ⟨_, operand_eq_ok.mpr ⟨kind, receiverKnown, rfl⟩, ?_⟩
    exact Work.checked_bind_eq_ok.mpr ⟨entry, Checked.ofOption_eq_ok.mpr isMember, rfl⟩

/-- A call is written behind what it is made on, with commas between its arguments. -/
theorem expression_of_call {receiver : NodeId} {method : MemberId} {arguments : ListRange}
    (known : arena.kind id = .ok (.call receiver method arguments)) :
    expression registry arena (depth + 1) id = .ok text ↔
      ∃ texts own kind entry,
        (arena.list arguments).mapM (expression registry arena depth) = .ok texts ∧
        expression registry arena depth receiver = .ok own ∧ arena.kind receiver = .ok kind ∧
        registry.member? method = some entry ∧
        text = operandText kind own ++ "." ++ entry.name ++ "(" ++ ", ".intercalate texts ++
          ")" := by
  obtain ⟨type, isNode, -⟩ := Arena.node_of_kind known
  refine (Work.checked_bind_of_ok isNode).congr_left.trans ?_
  constructor
  · intro written
    obtain ⟨texts, listed, written⟩ := Work.checked_bind_eq_ok.mp written
    obtain ⟨own, isOwn, written⟩ := Work.checked_bind_eq_ok.mp written
    obtain ⟨shown, isShown, written⟩ := Work.checked_bind_eq_ok.mp written
    obtain ⟨entry, isMember, written⟩ := Work.checked_bind_eq_ok.mp written
    obtain ⟨kind, receiverKnown, rfl⟩ := operand_eq_ok.mp isShown
    exact ⟨texts, own, kind, entry, listed, isOwn, receiverKnown,
      Checked.ofOption_eq_ok.mp isMember, (Except.ok.inj written).symm⟩
  · rintro ⟨texts, own, kind, entry, listed, isOwn, receiverKnown, isMember, rfl⟩
    refine Work.checked_bind_eq_ok.mpr ⟨texts, listed, ?_⟩
    refine Work.checked_bind_eq_ok.mpr ⟨own, isOwn, ?_⟩
    refine Work.checked_bind_eq_ok.mpr ⟨_, operand_eq_ok.mpr ⟨kind, receiverKnown, rfl⟩, ?_⟩
    exact Work.checked_bind_eq_ok.mpr ⟨entry, Checked.ofOption_eq_ok.mpr isMember, rfl⟩

/-- A conversion is written with the name of its type in front. -/
theorem expression_of_convert {value : NodeId} {type : TypeId}
    (known : arena.kind id = .ok (.convert value)) (typed : arena.typeOf id = .ok type) :
    expression registry arena (depth + 1) id = .ok text ↔
      ∃ name own kind, registry.displayName type = .ok name ∧
        expression registry arena depth value = .ok own ∧ arena.kind value = .ok kind ∧
        text = "(" ++ name ++ ")" ++ operandText kind own := by
  obtain ⟨_, isNode, same⟩ := Arena.node_of_kind known
  cases typed.symm.trans same
  refine (Work.checked_bind_of_ok isNode).congr_left.trans ?_
  constructor
  · intro written
    obtain ⟨name, named, written⟩ := Work.checked_bind_eq_ok.mp written
    obtain ⟨own, isOwn, written⟩ := Work.checked_bind_eq_ok.mp written
    obtain ⟨shown, isShown, written⟩ := Work.checked_bind_eq_ok.mp written
    obtain ⟨kind, valueKnown, rfl⟩ := operand_eq_ok.mp isShown
    exact ⟨name, own, kind, named, isOwn, valueKnown, (Except.ok.inj written).symm⟩
  · rintro ⟨name, own, kind, named, isOwn, valueKnown, rfl⟩
    refine Work.checked_bind_eq_ok.mpr ⟨name, named, ?_⟩
    refine Work.checked_bind_eq_ok.mpr ⟨own, isOwn, ?_⟩
    exact Work.checked_bind_eq_ok.mpr ⟨_, operand_eq_ok.mpr ⟨kind, valueKnown, rfl⟩, rfl⟩

/-- A function is written with its parameters in front of its body. -/
theorem expression_of_lambda {parameters : ListRange} {body : NodeId}
    (known : arena.kind id = .ok (.lambda parameters body)) :
    expression registry arena (depth + 1) id = .ok text ↔
      ∃ texts own, (arena.list parameters).mapM (expression registry arena depth) = .ok texts ∧
        expression registry arena depth body = .ok own ∧
        text = "(" ++ ", ".intercalate texts ++ ") => " ++ own := by
  obtain ⟨type, isNode, -⟩ := Arena.node_of_kind known
  refine (Work.checked_bind_of_ok isNode).congr_left.trans ?_
  constructor
  · intro written
    obtain ⟨texts, listed, written⟩ := Work.checked_bind_eq_ok.mp written
    obtain ⟨own, isOwn, written⟩ := Work.checked_bind_eq_ok.mp written
    exact ⟨texts, own, listed, isOwn, (Except.ok.inj written).symm⟩
  · rintro ⟨texts, own, listed, isOwn, rfl⟩
    refine Work.checked_bind_eq_ok.mpr ⟨texts, listed, ?_⟩
    exact Work.checked_bind_eq_ok.mpr ⟨own, isOwn, rfl⟩

/-- What is no expression is written as its lines, put into one. -/
theorem expression_of_statement (known : arena.kind id = .ok kind)
    (notPlain : isExpression kind = false) :
    expression registry arena (depth + 1) id = .ok text ↔
      ∃ lines after, statement registry arena depth 0 id [] = .ok (lines, after) ∧
        inlined lines = .ok text := by
  obtain ⟨type, isNode, -⟩ := Arena.node_of_kind known
  have clause : expression registry arena (depth + 1) id = (do
      let shown ← statement registry arena depth 0 id []
      inlined shown.1) := by
    refine (Work.checked_bind_of_ok isNode).trans ?_
    cases kind <;> cases notPlain <;> rfl
  rw [clause]
  exact Work.checked_bind_eq_ok.trans Prod.exists

end Expressions

section Statements

variable {level : Nat} {pending after : List NodeId} {lines : List Line}

/-- A block is written as its variables and statements. -/
theorem statement_of_block {locals statements : ListRange}
    (known : arena.kind id = .ok (.block locals statements)) :
    statement registry arena (depth + 1) level id pending = .ok (lines, after) ↔
      blockLines registry arena (expression registry arena depth)
        (statement registry arena depth level) level false (arena.list locals)
        (arena.list statements) pending = .ok (lines, after) := by
  exact (Work.lift_bind_of_ok known).congr_left

/-- A statement under a condition stands in braces one level deeper. -/
theorem statement_of_ifThen {condition consequence : NodeId}
    (known : arena.kind id = .ok (.ifThen condition consequence)) :
    statement registry arena (depth + 1) level id pending = .ok (lines, after) ↔
      ∃ text body, expression registry arena depth condition = .ok text ∧
        statement registry arena depth (level + 1) consequence pending = .ok (body, after) ∧
        lines = ⟨level, "if (" ++ text ++ ")"⟩ :: braced level body := by
  refine (Work.lift_bind_of_ok known).congr_left.trans ?_
  constructor
  · intro written
    obtain ⟨text, _, asked, written⟩ := Work.bind_eq_ok.mp written
    obtain ⟨isText, rfl⟩ := Work.lift_eq_ok.mp asked
    obtain ⟨body, _, isBody, written⟩ := Work.bind_eq_ok.mp written
    obtain ⟨rfl, rfl⟩ := Work.pure_eq_ok.mp written
    exact ⟨text, body, isText, isBody, rfl⟩
  · rintro ⟨text, body, isText, isBody, rfl⟩
    refine (Work.lift_bind_of_ok isText).trans ?_
    exact Work.bind_eq_ok.mpr ⟨body, after, isBody, rfl⟩

/-- Both branches of a condition stand in braces one level deeper. -/
theorem statement_of_ifThenElse {condition consequence alternative : NodeId}
    (known : arena.kind id = .ok (.ifThenElse condition consequence alternative)) :
    statement registry arena (depth + 1) level id pending = .ok (lines, after) ↔
      ∃ text body middle other, expression registry arena depth condition = .ok text ∧
        statement registry arena depth (level + 1) consequence pending = .ok (body, middle) ∧
        statement registry arena depth (level + 1) alternative middle = .ok (other, after) ∧
        lines = ⟨level, "if (" ++ text ++ ")"⟩ :: braced level body ++
          ⟨level, "else"⟩ :: braced level other := by
  refine (Work.lift_bind_of_ok known).congr_left.trans ?_
  constructor
  · intro written
    obtain ⟨text, _, asked, written⟩ := Work.bind_eq_ok.mp written
    obtain ⟨isText, rfl⟩ := Work.lift_eq_ok.mp asked
    obtain ⟨body, middle, isBody, written⟩ := Work.bind_eq_ok.mp written
    obtain ⟨other, _, isOther, written⟩ := Work.bind_eq_ok.mp written
    obtain ⟨rfl, rfl⟩ := Work.pure_eq_ok.mp written
    exact ⟨text, body, middle, other, isText, isBody, isOther, rfl⟩
  · rintro ⟨text, body, middle, other, isText, isBody, isOther, rfl⟩
    refine (Work.lift_bind_of_ok isText).trans ?_
    exact Work.bind_eq_ok.mpr ⟨body, middle, isBody,
      Work.bind_eq_ok.mpr ⟨other, after, isOther, rfl⟩⟩

/-- The body of a loop stands in braces one level deeper. -/
theorem statement_of_loop {body : NodeId} {exit : Label}
    (known : arena.kind id = .ok (.loop body exit)) :
    statement registry arena (depth + 1) level id pending = .ok (lines, after) ↔
      ∃ inside, statement registry arena depth (level + 1) body pending = .ok (inside, after) ∧
        lines = ⟨level, "while (true)"⟩ :: braced level inside := by
  refine (Work.lift_bind_of_ok known).congr_left.trans ?_
  constructor
  · intro written
    obtain ⟨inside, _, isInside, written⟩ := Work.bind_eq_ok.mp written
    obtain ⟨rfl, rfl⟩ := Work.pure_eq_ok.mp written
    exact ⟨inside, isInside, rfl⟩
  · rintro ⟨inside, isInside, rfl⟩
    exact Work.bind_eq_ok.mpr ⟨inside, after, isInside, rfl⟩

/-- The end of a loop is a line. -/
theorem statement_of_breakTo {exit : Label} (known : arena.kind id = .ok (.breakTo exit)) :
    statement registry arena (depth + 1) level id pending = .ok (lines, after) ↔
      lines = [⟨level, "break;"⟩] ∧ after = pending := by
  refine (Work.lift_bind_of_ok known).congr_left.trans ?_
  exact Work.pure_eq_ok.trans (and_congr eq_comm eq_comm)

/-- A statement and its cleanup stand in braces one level deeper. -/
theorem statement_of_tryFinally {body cleanup : NodeId}
    (known : arena.kind id = .ok (.tryFinally body cleanup)) :
    statement registry arena (depth + 1) level id pending = .ok (lines, after) ↔
      ∃ inside middle last,
        statement registry arena depth (level + 1) body pending = .ok (inside, middle) ∧
        statement registry arena depth (level + 1) cleanup middle = .ok (last, after) ∧
        lines = ⟨level, "try"⟩ :: braced level inside ++
          ⟨level, "finally"⟩ :: braced level last := by
  refine (Work.lift_bind_of_ok known).congr_left.trans ?_
  constructor
  · intro written
    obtain ⟨inside, middle, isInside, written⟩ := Work.bind_eq_ok.mp written
    obtain ⟨last, _, isLast, written⟩ := Work.bind_eq_ok.mp written
    obtain ⟨rfl, rfl⟩ := Work.pure_eq_ok.mp written
    exact ⟨inside, middle, last, isInside, isLast, rfl⟩
  · rintro ⟨inside, middle, last, isInside, isLast, rfl⟩
    exact Work.bind_eq_ok.mpr ⟨inside, middle, isInside,
      Work.bind_eq_ok.mpr ⟨last, after, isLast, rfl⟩⟩

/-- An assignment is a line, which introduces the variable if that is still to be done. -/
theorem statement_of_assign {target value : NodeId}
    (known : arena.kind id = .ok (.assign target value)) :
    statement registry arena (depth + 1) level id pending = .ok (lines, after) ↔
      ∃ text, expression registry arena depth id = .ok text ∧
        (target ∈ pending ∧ lines = [⟨level, "var " ++ text ++ ";"⟩] ∧
            after = pending.filter (· ≠ target) ∨
          target ∉ pending ∧ lines = [⟨level, text ++ ";"⟩] ∧ after = pending) := by
  refine (Work.lift_bind_of_ok known).congr_left.trans ?_
  constructor
  · intro written
    obtain ⟨_, _, got, written⟩ := Work.bind_eq_ok.mp written
    obtain ⟨text, _, asked, written⟩ := Work.bind_eq_ok.mp written
    obtain ⟨rfl, rfl⟩ := Work.get_eq_ok.mp got
    obtain ⟨isText, rfl⟩ := Work.lift_eq_ok.mp asked
    refine ⟨text, isText, ?_⟩
    by_cases isPending : target ∈ pending
    · rw [if_pos isPending] at written
      cases written
      exact .inl ⟨isPending, rfl, rfl⟩
    · rw [if_neg isPending] at written
      cases written
      exact .inr ⟨isPending, rfl, rfl⟩
  · rintro ⟨text, isText, decided⟩
    refine Work.bind_eq_ok.mpr ⟨pending, pending, Work.get_eq_ok.mpr ⟨rfl, rfl⟩, ?_⟩
    refine (Work.lift_bind_of_ok isText).trans ?_
    rcases decided with ⟨isPending, rfl, rfl⟩ | ⟨notPending, rfl, rfl⟩
    · rw [if_pos isPending]
      rfl
    · rw [if_neg notPending]
      rfl

/-- Every other expression is a line. -/
theorem statement_of_expression (known : arena.kind id = .ok kind)
    (isPlain : isExpression kind = true) (other : ∀ target value, kind ≠ .assign target value) :
    statement registry arena (depth + 1) level id pending = .ok (lines, after) ↔
      ∃ text, expression registry arena depth id = .ok text ∧
        lines = [⟨level, text ++ ";"⟩] ∧ after = pending := by
  have clause : statement registry arena (depth + 1) level id pending = (do
      return [⟨level, (← expression registry arena depth id) ++ ";"⟩] :
        Writing (List Line)) pending := by
    refine (Work.lift_bind_of_ok known).trans ?_
    cases kind with
    | assign target value => exact absurd rfl (other target value)
    | block | ifThen | ifThenElse | loop | breakTo | tryFinally => cases isPlain
    | parameter | var | int | bool | null | addAssign | call | property | convert | notEqual
    | lambda => rfl
  rw [clause]
  constructor
  · intro written
    obtain ⟨text, _, asked, written⟩ := Work.bind_eq_ok.mp written
    obtain ⟨isText, rfl⟩ := Work.lift_eq_ok.mp asked
    obtain ⟨rfl, rfl⟩ := Work.pure_eq_ok.mp written
    exact ⟨text, isText, rfl, rfl⟩
  · rintro ⟨text, isText, rfl, rfl⟩
    exact Work.lift_bind_of_ok isText

end Statements

section Blocks

variable {writes : NodeId → Checked String} {shows : NodeId → Writing (List Line)} {level : Nat}
  {yields : Bool} {pending after : List NodeId} {lines : List Line}

/-- The last statement is returned if it is an expression and a value is expected. -/
theorem sequence_last_eq_ok {last : NodeId} (known : arena.kind last = .ok kind) :
    sequence arena writes shows level yields [last] pending = .ok (lines, after) ↔
      (yields && isExpression kind) = true ∧ (∃ value, writes last = .ok value ∧
          lines = [returnLine level value] ∧ after = pending) ∨
        (yields && isExpression kind) = false ∧ shows last pending = .ok (lines, after) := by
  rw [sequence, Work.lift_bind_of_ok known]
  cases (yields && isExpression kind) with
  | true =>
    rw [if_pos rfl]
    constructor
    · intro written
      obtain ⟨value, _, asked, written⟩ := Work.bind_eq_ok.mp written
      obtain ⟨isValue, rfl⟩ := Work.lift_eq_ok.mp asked
      obtain ⟨rfl, rfl⟩ := Work.pure_eq_ok.mp written
      exact .inl ⟨rfl, value, isValue, rfl, rfl⟩
    · rintro (⟨-, value, isValue, rfl, rfl⟩ | ⟨isFalse, -⟩)
      · exact Work.lift_bind_of_ok isValue
      · cases isFalse
  | false =>
    rw [if_neg Bool.false_ne_true]
    constructor
    · exact fun written => .inr ⟨rfl, written⟩
    · rintro (⟨isTrue, -⟩ | ⟨-, written⟩)
      · cases isTrue
      · exact written

/-- A statement is followed by a blank line, if it takes several lines, and by the others. -/
theorem sequence_cons_eq_ok {next second : NodeId} {rest : List NodeId} :
    sequence arena writes shows level yields (next :: second :: rest) pending =
        .ok (lines, after) ↔
      ∃ first middle kind more, shows next pending = .ok (first, middle) ∧
        arena.kind next = .ok kind ∧
        sequence arena writes shows level yields (second :: rest) middle = .ok (more, after) ∧
        lines = first ++ (if isMultiLine kind then [Line.blank] else []) ++ more := by
  rw [sequence]
  · constructor
    · intro written
      obtain ⟨first, middle, isFirst, written⟩ := Work.bind_eq_ok.mp written
      obtain ⟨kind, _, asked, written⟩ := Work.bind_eq_ok.mp written
      obtain ⟨known, rfl⟩ := Work.lift_eq_ok.mp asked
      obtain ⟨more, _, isMore, written⟩ := Work.bind_eq_ok.mp written
      obtain ⟨rfl, rfl⟩ := Work.pure_eq_ok.mp written
      exact ⟨first, middle, kind, more, isFirst, known, isMore, rfl⟩
    · rintro ⟨first, middle, kind, more, isFirst, known, isMore, rfl⟩
      refine Work.bind_eq_ok.mpr ⟨first, middle, isFirst, ?_⟩
      refine (Work.lift_bind_of_ok known).trans ?_
      exact Work.bind_eq_ok.mpr ⟨more, after, isMore, rfl⟩
  · exact nofun

/-- A block is written as the lines that introduce its variables, and those of its statements. -/
theorem blockLines_eq_ok {locals statements : List NodeId} :
    blockLines registry arena writes shows level yields locals statements pending =
        .ok (lines, after) ↔
      ∃ introduced middle shown,
        introductions registry arena writes level statements locals pending =
          .ok (introduced, middle) ∧
        sequence arena writes shows level yields statements middle = .ok (shown, after) ∧
        lines = introduced ++ shown := by
  constructor
  · intro written
    obtain ⟨introduced, middle, isIntroduced, written⟩ := Work.bind_eq_ok.mp written
    obtain ⟨shown, _, isShown, written⟩ := Work.bind_eq_ok.mp written
    obtain ⟨rfl, rfl⟩ := Work.pure_eq_ok.mp written
    exact ⟨introduced, middle, shown, isIntroduced, isShown, rfl⟩
  · rintro ⟨introduced, middle, shown, isIntroduced, isShown, rfl⟩
    exact Work.bind_eq_ok.mpr ⟨introduced, middle, isIntroduced,
      Work.bind_eq_ok.mpr ⟨shown, after, isShown, rfl⟩⟩

end Blocks

end Source

end Foreach
