import Foreach.Source.Writing

/-!
# Text in pieces

What a tree is written as, piece by piece and in order: the beginnings of lines, plain words, and
words with a meaning, such as the name of a binding where it is mentioned or the word that
introduces a variable (`Source.Mark`). What is written for one node is a list of items, each of them
a piece or a part of the node, to be written in its turn; `Source.Writes` follows the items of a
tree down to the pieces. Variables that are still to be introduced are carried along.

A statement inside a line is written on lines of its own first. Its place in the line is a plain
word, and its marks stand behind that word, in a pair of braces.
-/
namespace Foreach.Source

/-- What a piece of text means. -/
inductive Mark where
  /-- A binding is mentioned. -/
  | mentions (binding : NodeId)
  /-- A variable is declared with its type. -/
  | declares (binding : NodeId)
  /-- A variable is introduced by an assignment. -/
  | introduces (binding statement : NodeId)
  /-- A value is returned. -/
  | returns (value : NodeId)
  /-- What is written for a block begins. -/
  | enters (block : NodeId)
  /-- What is written for a block ends. -/
  | leaves (block : NodeId)
  /-- A brace opens. -/
  | opens
  /-- A brace closes. -/
  | closes
deriving DecidableEq

namespace Mark

/-- Whether a meaning is about a binding. -/
def concerns (binding : NodeId) : Mark → Bool
  | mentions other | declares other | introduces other _ => other = binding
  | _ => false

/-- Whether a meaning introduces a variable. -/
def isIntroduction (binding : NodeId) : Mark → Bool
  | declares other | introduces other _ => other = binding
  | _ => false

end Mark

/-- A piece of text. -/
inductive Piece where
  /-- The beginning of a line at a level. -/
  | line (level : Nat)
  /-- Text without a meaning of its own. -/
  | word (text : String)
  /-- Text with a meaning. -/
  | mark (mark : Mark) (text : String)
deriving DecidableEq

namespace Piece

/-- The text of a piece. -/
def text : Piece → String
  | line _ => ""
  | word text | mark _ text => text

/-- The meaning of a piece. -/
def mark? : Piece → Option Mark
  | line _ | word _ => none
  | mark meaning _ => some meaning

end Piece

/-- The meanings of pieces, in order. -/
def marksOf (pieces : List Piece) : List Mark := pieces.filterMap Piece.mark?

/-- How many braces are open after some meanings, if so many are open before. Nothing is the answer
if a brace is closed that was not opened. -/
def nesting : List Mark → Nat → Option Nat
  | [], depth => some depth
  | .opens :: rest, depth => nesting rest (depth + 1)
  | .closes :: rest, depth + 1 => nesting rest depth
  | .closes :: _, 0 => none
  | _ :: rest, depth => nesting rest depth

/-- The text before the first line of pieces, and the lines. -/
def layOut : List Piece → String × List Line
  | [] => ("", [])
  | .line level :: rest => ("", ⟨level, (layOut rest).1⟩ :: (layOut rest).2)
  | .word text :: rest | .mark _ text :: rest => (text ++ (layOut rest).1, (layOut rest).2)

/-- The lines of pieces. -/
def linesOf (pieces : List Piece) : List Line := (layOut pieces).2

/-- Something to be written. -/
inductive Item where
  /-- A piece of text. -/
  | piece (piece : Piece)
  /-- A node, inside a line. -/
  | expression (id : NodeId)
  /-- A node as a statement, at a level. -/
  | statement (level : Nat) (id : NodeId)
deriving DecidableEq

namespace Item

/-- A plain word. -/
def word (text : String) : Item := piece (.word text)

/-- A word with a meaning. -/
def mark (mark : Mark) (text : String) : Item := piece (.mark mark text)

/-- The beginning of a line. -/
def line (level : Nat) : Item := piece (.line level)

/-- The node to be written. -/
def node? : Item → Option NodeId
  | piece _ => none
  | expression id | statement _ id => some id

/-- The meaning of a piece to be written. -/
def mark? : Item → Option Mark
  | piece given => given.mark?
  | expression _ | statement _ _ => none

end Item

/-- The nodes among items, in order. -/
def nodesOf (items : List Item) : List NodeId := items.filterMap Item.node?

/-- The meanings of the pieces among items, in order. -/
def itemMarks (items : List Item) : List Mark := items.filterMap Item.mark?

/-- Nodes with commas between them. -/
def separated : List NodeId → List Item
  | [] => []
  | [id] => [.expression id]
  | id :: rest => .expression id :: .word ", " :: separated rest

section Items

variable (registry : Registry) (arena : Arena)

/-- The name of a member. -/
def memberWord (member : MemberId) : String :=
  match registry.member? member with
  | some entry => entry.name
  | none => ""

/-- The name of a type. -/
def typeWord (type : TypeId) : String :=
  match registry.displayName type with
  | .ok name => name
  | .error _ => ""

/-- Whether a node is of a kind that passes a test. -/
def isKind (test : NodeKind → Bool) (id : NodeId) : Bool :=
  match arena.node? id with
  | some node => test node.kind
  | none => false

/-- A receiver or operand. -/
def operandItems (id : NodeId) : List Item :=
  if isKind arena isAtomic id then [.expression id]
  else [.word "(", .expression id, .word ")"]

/-- What is written for a node inside a line, if it is no statement. -/
def expressionItems (id : NodeId) (node : Node) : List Item :=
  match node.kind with
  | .parameter name | .var name => [.mark (.mentions id) name]
  | .int value => [.word (Text.writeInteger value)]
  | .bool value => [.word (if value then "true" else "false")]
  | .null => [.word "null"]
  | .assign target value => [.expression target, .word " = ", .expression value]
  | .addAssign target value => [.expression target, .word " += ", .expression value]
  | .call receiver method arguments =>
    operandItems arena receiver ++ .word ("." ++ memberWord registry method ++ "(") ::
      separated (arena.list arguments) ++ [.word ")"]
  | .property receiver property =>
    operandItems arena receiver ++ [.word ("." ++ memberWord registry property)]
  | .convert value => .word ("(" ++ typeWord registry node.type ++ ")") :: operandItems arena value
  | .notEqual left right => [.expression left, .word " != ", .expression right]
  | .lambda parameters body =>
    .word "(" :: separated (arena.list parameters) ++ [.word ") => ", .expression body]
  | .block _ _ | .ifThen _ _ | .ifThenElse _ _ _ | .loop _ _ | .breakTo _ | .tryFinally _ _ => []

/-- A statement in braces. -/
def bracedItems (level : Nat) (body : NodeId) : List Item :=
  [.line level, .mark .opens openBrace, .statement (level + 1) body, .line level,
    .mark .closes closeBrace]

/-- An expression that is a line of its own. -/
def lineItems (level : Nat) (id : NodeId) : List Item :=
  [.line level, .expression id, .word ";"]

/-- A value that is returned. -/
def returnItems (level : Nat) (id : NodeId) : List Item :=
  [.line level, .mark (.returns id) "return ", .expression id, .word ";"]

/-- A variable that is declared with its type. -/
def declarationItems (level : Nat) (binding : NodeId) : List Item :=
  let type := match arena.node? binding with
    | some node => typeWord registry node.type
    | none => ""
  [.line level, .mark (.declares binding) (type ++ " "), .expression binding, .word ";"]

/-- Whether one of some statements assigns to a variable. -/
def assignsTo (statements : List NodeId) (binding : NodeId) : Bool :=
  statements.any (isKind arena (isAssignmentTo binding))

/-- Statements in order; the last one may be a value to return. -/
def sequenceItems (level : Nat) (yields : Bool) : List NodeId → List Item
  | [] => []
  | [last] =>
    if yields && isKind arena isExpression last then returnItems level last
    else [.statement level last]
  | next :: rest =>
    .statement level next ::
      ((if isKind arena isMultiLine next then [.line Line.blank.level] else []) ++
        sequenceItems level yields rest)

/-- The variables of a block that statements of the block introduce. -/
def introducedThere (locals statements : List NodeId) : List NodeId :=
  locals.filter (assignsTo arena statements)

/-- The variables of a block that are declared at its start. -/
def declaredFirst (locals statements : List NodeId) : List NodeId :=
  locals.filter (!assignsTo arena statements ·)

/-- What is written for a block. -/
def blockItems (level : Nat) (block : NodeId) (yields : Bool) (locals statements : List NodeId) :
    List Item :=
  .mark (.enters block) "" ::
    ((declaredFirst arena locals statements).flatMap (declarationItems registry arena level) ++
      sequenceItems arena level yields statements ++ [.mark (.leaves block) ""])

/-- What is written for a node as a statement. -/
def statementItems (pending : List NodeId) (level : Nat) (id : NodeId) :
    NodeKind → List Item
  | .block locals statements =>
    blockItems registry arena level id false (arena.list locals) (arena.list statements)
  | .ifThen condition consequence =>
    [.line level, .word "if (", .expression condition, .word ")"] ++ bracedItems level consequence
  | .ifThenElse condition consequence alternative =>
    [.line level, .word "if (", .expression condition, .word ")"] ++
      bracedItems level consequence ++ .line level :: .word "else" :: bracedItems level alternative
  | .loop body _ => [.line level, .word "while (true)"] ++ bracedItems level body
  | .breakTo _ => [.line level, .word "break;"]
  | .tryFinally body cleanup =>
    [.line level, .word "try"] ++ bracedItems level body ++ .line level :: .word "finally" ::
      bracedItems level cleanup
  | .assign target _ =>
    if target ∈ pending then
      [.line level, .mark (.introduces target id) "var ", .expression id, .word ";"]
    else lineItems level id
  | _ => lineItems level id

/-- The variables that are still to be introduced when a statement is begun. -/
def pendingIn (pending : List NodeId) : NodeKind → List NodeId
  | .block locals statements =>
    (introducedThere arena (arena.list locals) (arena.list statements)).reverse ++ pending
  | .assign target _ => pending.filter (· ≠ target)
  | _ => pending

/-- Items are written as pieces, given the variables that are still to be introduced before, and
those that are after. -/
inductive Writes : List NodeId → List Item → List Piece → List NodeId → Prop where
  /-- Nothing is written. -/
  | nil {pending : List NodeId} : Writes pending [] [] pending
  /-- A piece is written as it is. -/
  | piece {pending after : List NodeId} {rest : List Item} {pieces : List Piece} (piece : Piece)
    (later : Writes pending rest pieces after) :
    Writes pending (.piece piece :: rest) (piece :: pieces) after
  /-- A node inside a line is written as its items are. -/
  | expression {pending after last : List NodeId} {rest : List Item} {own pieces : List Piece}
    {id : NodeId} {node : Node} (found : arena.node? id = some node)
    (isPlain : isExpression node.kind = true)
    (inside : Writes [] (expressionItems registry arena id node) own last)
    (later : Writes pending rest pieces after) :
    Writes pending (.expression id :: rest) (own ++ pieces) after
  /-- A statement inside a line is written on one line. -/
  | inner {pending after last : List NodeId} {rest : List Item} {own pieces : List Piece}
    {id : NodeId} {node : Node} {text : String} (found : arena.node? id = some node)
    (notPlain : isExpression node.kind = false)
    (inside : Writes [] [.statement 0 id] own last) (isText : inlined (linesOf own) = .ok text)
    (later : Writes pending rest pieces after) :
    Writes pending (.expression id :: rest)
      (.word text :: .mark .opens "" :: ((marksOf own).map (Piece.mark · "") ++
        .mark .closes "" :: pieces)) after
  /-- A statement is written as its items are. -/
  | statement {pending middle after : List NodeId} {rest : List Item} {own pieces : List Piece}
    {level : Nat} {id : NodeId} {node : Node} (found : arena.node? id = some node)
    (inside : Writes (pendingIn arena pending node.kind)
      (statementItems registry arena pending level id node.kind) own middle)
    (later : Writes middle rest pieces after) :
    Writes pending (.statement level id :: rest) (own ++ pieces) after

/-- The body of a function, or a node that is no function. -/
def bodyOf (root : NodeId) : NodeId :=
  match arena.node? root with
  | some ⟨.lambda _ body, _⟩ => body
  | _ => root

/-- What is written for a function's body. -/
def bodyItems (body : NodeId) (node : Node) : List Item :=
  match node.kind with
  | .block locals statements =>
    blockItems registry arena 0 body (node.type ≠ .void) (arena.list locals) (arena.list statements)
  | kind =>
    if node.type ≠ .void && isExpression kind then returnItems 0 body else [.statement 0 body]

/-- The variables that are still to be introduced when a function's body is begun. -/
def pendingInBody (node : Node) : List NodeId :=
  match node.kind with
  | .block _ _ => pendingIn arena [] node.kind
  | _ => []

/-- The body of a function is written as pieces. -/
def WritesBody (body : NodeId) (pieces : List Piece) : Prop :=
  ∃ node after, arena.node? body = some node ∧
    Writes registry arena (pendingInBody arena node) (bodyItems registry arena body node) pieces
      after

end Items

end Foreach.Source
