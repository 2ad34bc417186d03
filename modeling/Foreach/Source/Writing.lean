import Foreach.Text.Blank
import Foreach.Text.Decimal
import Foreach.Text.Indented
import Foreach.Text.Split
import Foreach.Tree.Arena
import Foreach.Types.TypeName

/-!
# Writing source text

A program tree is written as statements, one or more lines each, with expressions inside lines.

* A body of control flow stands in braces on lines of their own, one level deeper; the statements
  of an inner block stand at the level of the block.
* A blank line follows every statement of several lines that is not the last of its block.
* A variable of a block is introduced where the block assigns to it first, if one of the block's
  own statements is an assignment to it, and else by a declaration at the start of the block.
* A value is returned where a function is expected to give one.
* An expression is put in parentheses as the receiver of a member or the operand of a conversion,
  unless it is a name, a constant, or itself an access to a member.
* A statement inside an expression is written on one line.

Trees that contain themselves have no text; only they reach the bound on nesting.
-/
namespace Foreach.Source

/-- Writing that keeps track of the variables still to be introduced by an assignment. -/
abbrev Writing := StateT (List NodeId) Checked

/-- Whether a node is written inside a line. -/
def isExpression : NodeKind → Bool
  | .parameter _ | .var _ | .int _ | .bool _ | .null | .assign _ _ | .addAssign _ _
  | .call _ _ _ | .property _ _ | .convert _ | .notEqual _ _ | .lambda _ _ => true
  | .block _ _ | .ifThen _ _ | .ifThenElse _ _ _ | .loop _ _ | .breakTo _ | .tryFinally _ _ => false

/-- Whether a statement takes several lines. -/
def isMultiLine : NodeKind → Bool
  | .block _ _ | .ifThen _ _ | .ifThenElse _ _ _ | .loop _ _ | .tryFinally _ _ => true
  | _ => false

/-- Whether a node needs no parentheses as a receiver or operand. -/
def isAtomic : NodeKind → Bool
  | .parameter _ | .var _ | .int _ | .bool _ | .null | .call _ _ _ | .property _ _ => true
  | _ => false

/-- The line that opens a body. -/
def openBrace : String := "\x7b"

/-- The line that closes a body. -/
def closeBrace : String := "\x7d"

/-- A body in braces, given its lines. -/
def braced (level : Nat) (body : List Line) : List Line :=
  ⟨level, openBrace⟩ :: body ++ [⟨level, closeBrace⟩]

/-- The text of a receiver or operand, given the text of its node. -/
def operand (arena : Arena) (id : NodeId) (text : String) : Checked String := do
  return if isAtomic (← arena.kind id) then text else "(" ++ text ++ ")"

/-- Whether a node is an assignment to a variable. -/
def isAssignmentTo (binding : NodeId) : NodeKind → Bool
  | .assign target _ => target = binding
  | _ => false

/-- The lines that introduce the variables of a block; those that a statement of the block assigns
to are left to be introduced there. -/
def introductions (registry : Registry) (arena : Arena) (expression : NodeId → Checked String)
    (level : Nat) (statements : List NodeId) : List NodeId → Writing (List Line)
  | [] => return []
  | binding :: rest => do
    let assigned ← statements.anyM fun statement =>
      return isAssignmentTo binding (← arena.kind statement)
    if assigned then
      modify fun pending => binding :: pending
      introductions registry arena expression level statements rest
    else
      let typeName ← registry.displayName (← arena.typeOf binding)
      let name ← expression binding
      let lines ← introductions registry arena expression level statements rest
      return ⟨level, typeName ++ " " ++ name ++ ";"⟩ :: lines

/-- The line that returns a value, given its text. -/
def returnLine (level : Nat) (value : String) : Line := ⟨level, "return " ++ value ++ ";"⟩

/-- The lines of statements in order; the last one may be a value to return. -/
def sequence (arena : Arena) (expression : NodeId → Checked String)
    (statement : NodeId → Writing (List Line)) (level : Nat) (yields : Bool) :
    List NodeId → Writing (List Line)
  | [] => return []
  | [last] => do
    let kind ← arena.kind last
    if yields && isExpression kind then return [returnLine level (← expression last)]
    else statement last
  | next :: rest => do
    let lines ← statement next
    let kind ← arena.kind next
    let gap := if isMultiLine kind then [Line.blank] else []
    let more ← sequence arena expression statement level yields rest
    return lines ++ gap ++ more

/-- The lines of a block. -/
def blockLines (registry : Registry) (arena : Arena) (expression : NodeId → Checked String)
    (statement : NodeId → Writing (List Line)) (level : Nat) (yields : Bool)
    (locals statements : List NodeId) : Writing (List Line) := do
  let introduced ← introductions registry arena expression level statements locals
  let lines ← sequence arena expression statement level yields statements
  return introduced ++ lines

/-- Lines as one line: without indentation, blank ends and blank lines, in braces. -/
def inlined (lines : List Line) : Checked String := do
  let written ← (IndentedText.start 0).lines lines
  let pieces := ((Text.splitAt '\n' written.text.toList).map Text.trimBlank).filter (· ≠ [])
  return openBrace ++ " " ++ " ".intercalate (pieces.map String.ofList) ++ " " ++ closeBrace

mutual

/-- The text of a node inside a line, nested at most so deep. -/
def expression (registry : Registry) (arena : Arena) : Nat → NodeId → Checked String
  | 0, _ => .error .exhausted
  | depth + 1, id => do
    let node ← arena.node id
    match node.kind with
    | .parameter name | .var name => return name
    | .int value => return Text.writeInteger value
    | .bool value => return if value then "true" else "false"
    | .null => return "null"
    | .assign target value =>
      let target ← expression registry arena depth target
      return target ++ " = " ++ (← expression registry arena depth value)
    | .addAssign target value =>
      let target ← expression registry arena depth target
      return target ++ " += " ++ (← expression registry arena depth value)
    | .call receiver method arguments =>
      let arguments ← (arena.list arguments).mapM (expression registry arena depth)
      let receiver ← operand arena receiver (← expression registry arena depth receiver)
      let method ← registry.member method
      return receiver ++ "." ++ method.name ++ "(" ++ ", ".intercalate arguments ++ ")"
    | .property receiver property =>
      let receiver ← operand arena receiver (← expression registry arena depth receiver)
      let property ← registry.member property
      return receiver ++ "." ++ property.name
    | .convert value =>
      let typeName ← registry.displayName node.type
      return "(" ++ typeName ++ ")" ++
        (← operand arena value (← expression registry arena depth value))
    | .notEqual left right =>
      let left ← expression registry arena depth left
      return left ++ " != " ++ (← expression registry arena depth right)
    | .lambda parameters body =>
      let parameters ← (arena.list parameters).mapM (expression registry arena depth)
      return "(" ++ ", ".intercalate parameters ++ ") => " ++
        (← expression registry arena depth body)
    | .block _ _ | .ifThen _ _ | .ifThenElse _ _ _ | .loop _ _ | .breakTo _ | .tryFinally _ _ =>
      let (lines, _) ← statement registry arena depth 0 id []
      inlined lines

/-- The lines of a node as a statement, nested at most so deep. -/
def statement (registry : Registry) (arena : Arena) : Nat → Nat → NodeId → Writing (List Line)
  | 0, _, _ => throw .exhausted
  | depth + 1, level, id => do
    let kind ← arena.kind id
    match kind with
    | .block locals statements =>
      blockLines registry arena (expression registry arena depth)
        (statement registry arena depth level) level false
        (arena.list locals) (arena.list statements)
    | .ifThen condition consequence =>
      let condition ← expression registry arena depth condition
      let body ← statement registry arena depth (level + 1) consequence
      return ⟨level, "if (" ++ condition ++ ")"⟩ :: braced level body
    | .ifThenElse condition consequence alternative =>
      let condition ← expression registry arena depth condition
      let body ← statement registry arena depth (level + 1) consequence
      let otherwise ← statement registry arena depth (level + 1) alternative
      return ⟨level, "if (" ++ condition ++ ")"⟩ :: braced level body ++
        ⟨level, "else"⟩ :: braced level otherwise
    | .loop body _ =>
      let body ← statement registry arena depth (level + 1) body
      return ⟨level, "while (true)"⟩ :: braced level body
    | .breakTo _ => return [⟨level, "break;"⟩]
    | .tryFinally body cleanup =>
      let body ← statement registry arena depth (level + 1) body
      let cleanup ← statement registry arena depth (level + 1) cleanup
      return ⟨level, "try"⟩ :: braced level body ++ ⟨level, "finally"⟩ :: braced level cleanup
    | .assign target _ =>
      let pending ← get
      let text ← expression registry arena depth id
      if target ∈ pending then
        set (pending.filter (· ≠ target))
        return [⟨level, "var " ++ text ++ ";"⟩]
      else return [⟨level, text ++ ";"⟩]
    | _ => return [⟨level, (← expression registry arena depth id) ++ ";"⟩]

end

/-- The bound on nesting: in a tree that does not contain itself no path is longer than the number
of nodes, and a node is visited at most twice on its way into a line. -/
def depthBound (arena : Arena) : Nat := 2 * arena.size + 2

/-- The text of a node inside a line. -/
def expressionText (registry : Registry) (arena : Arena) (id : NodeId) : Checked String :=
  expression registry arena (depthBound arena) id

/-- The lines of a function's body, or of a node that is no function. -/
def bodyLines (registry : Registry) (arena : Arena) (root : NodeId) : Writing (List Line) := do
  let body := match ← arena.kind root with
    | .lambda _ body => body
    | _ => root
  let depth := depthBound arena
  let node ← arena.node body
  let yields := node.type ≠ .void
  match node.kind with
  | .block locals statements =>
    blockLines registry arena (expression registry arena depth)
      (statement registry arena depth 0) 0 yields (arena.list locals) (arena.list statements)
  | kind =>
    if yields && isExpression kind then
      return [returnLine 0 (← expression registry arena depth body)]
    else statement registry arena depth 0 body

/-- The text of a function's body, without line ends after it. -/
def bodyText (registry : Registry) (arena : Arena) (width : Nat) (root : NodeId) :
    Checked String := do
  let (lines, _) ← bodyLines registry arena root []
  let written ← (IndentedText.start width).lines lines
  return written.trimTrailingNewlines.text

/-- The text of statements in order, as those of one block whose variables have been introduced
elsewhere. -/
def statementsText (registry : Registry) (arena : Arena) (width : Nat) (ids : List NodeId) :
    Checked String := do
  let depth := depthBound arena
  let (lines, _) ← (ids.mapM (statement registry arena depth 0)).run []
  return (← (IndentedText.start width).lines lines.flatten).text

end Foreach.Source
