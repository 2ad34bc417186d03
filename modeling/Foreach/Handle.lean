import Foreach.Checked

/-!
# Handles

Types, members, tree nodes and loop labels are stored in tables that only grow, and are named by
their position: a handle. A handle says nothing about whether its table has an entry there.

The eleven types that every registry starts with stand at fixed positions, so they have names of
their own here.
-/
namespace Foreach

/-- The position of a type. -/
structure TypeId where
  /-- The position in the table of types. -/
  index : Nat
deriving DecidableEq

/-- The position of a member. -/
structure MemberId where
  /-- The position in the table of members. -/
  index : Nat
deriving DecidableEq

/-- The position of a tree node. -/
structure NodeId where
  /-- The position in the table of nodes. -/
  index : Nat
deriving DecidableEq

/-- The number that ties a break to the loop it leaves. -/
structure Label where
  /-- The number, counted from zero in the order labels are made. -/
  number : Nat
deriving DecidableEq

namespace TypeId

/-- No value at all. -/
def void : TypeId := ⟨0⟩
/-- Truth values. -/
def bool : TypeId := ⟨1⟩
/-- Integers. -/
def int : TypeId := ⟨2⟩
/-- Texts. -/
def string : TypeId := ⟨3⟩
/-- The root of the class hierarchy. -/
def object : TypeId := ⟨4⟩
/-- The base of every value type. -/
def valueType : TypeId := ⟨5⟩
/-- The disposal contract. -/
def disposable : TypeId := ⟨6⟩
/-- The untyped enumerator contract. -/
def enumerator : TypeId := ⟨7⟩
/-- The untyped enumerable contract. -/
def enumerable : TypeId := ⟨8⟩
/-- The generic enumerator contract. -/
def genericEnumerator : TypeId := ⟨9⟩
/-- The generic enumerable contract. -/
def genericEnumerable : TypeId := ⟨10⟩

/-- Whether a type is one of those with a fixed position. -/
def isWellKnown (type : TypeId) : Bool := type.index < 11

/-- The text of a type handle: a name for the handles that code refers to most, otherwise the
position. -/
def describe (type : TypeId) : String :=
  if type = void then "TypeId::VOID"
  else if type = bool then "TypeId::BOOL"
  else if type = int then "TypeId::INT"
  else if type = string then "TypeId::STRING"
  else if type = object then "TypeId::OBJECT"
  else if type = disposable then "TypeId::DISPOSABLE"
  else s!"TypeId({type.index})"

end TypeId

/-- The text of a member handle. -/
def MemberId.describe (member : MemberId) : String := s!"MemberId({member.index})"

/-- The text of a node handle. -/
def NodeId.describe (node : NodeId) : String := s!"ExprId({node.index})"

/-- The text of a label. -/
def Label.describe (label : Label) : String := s!"LabelId({label.number})"

/-- A stretch of the table that holds the node lists of an arena. -/
structure ListRange where
  /-- The position of the first element. -/
  start : Nat
  /-- The number of elements. -/
  length : Nat
deriving DecidableEq

namespace ListRange

/-- The stretch of the empty list, which occupies no place. -/
def empty : ListRange := ⟨0, 0⟩

/-- Whether a stretch has no elements. -/
def isEmpty (range : ListRange) : Bool := range.length = 0

/-- The text of a stretch shows its first position and the position after its last, which has to
be a 32-bit position. -/
def describe (range : ListRange) : Checked String := do
  let stop := range.start + range.length
  Checked.require (stop < UInt32.size)
  return s!"ExprRange({range.start}..{stop})"

end ListRange

end Foreach
