import Foreach.Tree.Arena
import Foreach.Types.Registry

/-!
# Building program trees

A constructor for every node, which works out the node's type and insists on what makes the node
meaningful: only a binding is assigned to, the variables of a block are variables, a called member
is a method with as many parameters as there are arguments, and so on. Types are named only where
nothing determines them: for bindings, conversions and `null`.
-/
namespace Foreach

/-- Work that adds nodes to an arena. -/
abbrev Construction := StateT Arena Checked

namespace Construction

/-- An answer that the arena as it stands gives. -/
def ask {α : Type} (question : Arena → Checked α) : Construction α := do
  let arena ← get
  question arena

/-- Add a node. -/
def push (kind : NodeKind) (type : TypeId) : Construction NodeId :=
  modifyGet fun arena => ((arena.push ⟨kind, type⟩).2, (arena.push ⟨kind, type⟩).1)

/-- Store a list. -/
def list (ids : List NodeId) : Construction ListRange := fun arena => do
  let (arena, range) ← arena.pushList ids
  return (range, arena)

/-- The type of a node. -/
def typeOf (id : NodeId) : Construction TypeId := ask fun arena => arena.typeOf id

/-- Insist that a node is of some kind. -/
def requireKind (test : NodeKind → Bool) (id : NodeId) : Construction Unit := do
  let kind ← ask fun arena => arena.kind id
  Checked.require (test kind)

/-- A parameter. -/
def parameter (name : String) (type : TypeId) : Construction NodeId := push (.parameter name) type

/-- A variable. -/
def var (name : String) (type : TypeId) : Construction NodeId := push (.var name) type

/-- An integer. -/
def int (value : Int64) : Construction NodeId := push (.int value) .int

/-- A truth value. -/
def bool (value : Bool) : Construction NodeId := push (.bool value) .bool

/-- The null reference of a type. -/
def null (type : TypeId) : Construction NodeId := push .null type

/-- A binding gets a value. -/
def assign (target value : NodeId) : Construction NodeId := do
  requireKind NodeKind.isBinding target
  push (.assign target value) (← typeOf target)

/-- A value is added to a binding. -/
def addAssign (target value : NodeId) : Construction NodeId := do
  requireKind NodeKind.isBinding target
  push (.addAssign target value) (← typeOf target)

/-- A method is called. -/
def call (registry : Registry) (receiver : NodeId) (method : MemberId)
    (arguments : List NodeId) : Construction NodeId := do
  let entry ← registry.member method
  Checked.require entry.isMethod
  Checked.require (entry.parameters.length = arguments.length)
  let arguments ← list arguments
  push (.call receiver method arguments) entry.valueType

/-- A property is read. -/
def property (registry : Registry) (receiver : NodeId) (property : MemberId) :
    Construction NodeId := do
  let entry ← registry.member property
  Checked.require entry.isProperty
  push (.property receiver property) entry.valueType

/-- A value is taken as one of a type. -/
def convert (operand : NodeId) (type : TypeId) : Construction NodeId :=
  push (.convert operand) type

/-- Two values are compared. -/
def notEqual (left right : NodeId) : Construction NodeId := push (.notEqual left right) .bool

/-- The type of the last of some statements; no value without statements. -/
def lastType (statements : List NodeId) : Construction TypeId :=
  match statements.getLast? with
  | none => return .void
  | some last => typeOf last

/-- Statements with variables of their own. The value is that of the last statement. -/
def block (locals statements : List NodeId) : Construction NodeId := do
  locals.forM (requireKind NodeKind.isVariable)
  let type ← lastType statements
  let locals ← list locals
  let statements ← list statements
  push (.block locals statements) type

/-- A statement under a condition. -/
def ifThen (condition consequence : NodeId) : Construction NodeId :=
  push (.ifThen condition consequence) .void

/-- One of two statements. -/
def ifThenElse (condition consequence alternative : NodeId) : Construction NodeId :=
  push (.ifThenElse condition consequence alternative) .void

/-- A label that no loop has. -/
def freshLabel : Construction Label :=
  modifyGet fun arena => (arena.freshLabel.2, arena.freshLabel.1)

/-- A loop that only a break to the label ends. -/
def loop (body : NodeId) (exit : Label) : Construction NodeId := push (.loop body exit) .void

/-- The end of the loop of a label. -/
def breakTo (label : Label) : Construction NodeId := push (.breakTo label) .void

/-- A statement with another that runs after it, however it ends. -/
def tryFinally (body cleanup : NodeId) : Construction NodeId := do
  push (.tryFinally body cleanup) (← typeOf body)

/-- A function of parameters. -/
def lambda (parameters : List NodeId) (body : NodeId) : Construction NodeId := do
  parameters.forM (requireKind NodeKind.isParameter)
  let type ← typeOf body
  let parameters ← list parameters
  push (.lambda parameters body) type

/-- A loop that runs its body as long as a condition holds: one that runs either the body or a
break of its own. -/
def whileLoop (condition body : NodeId) : Construction NodeId := do
  let type ← typeOf condition
  Checked.require (type = .bool)
  let label ← freshLabel
  let exit ← breakTo label
  let step ← ifThenElse condition body exit
  loop step label

end Construction

end Foreach
