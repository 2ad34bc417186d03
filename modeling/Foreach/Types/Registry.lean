import Foreach.Types.Entry

/-!
# The registry of types

A registry holds the entries of types and members in the order of their registration. Of generic
definitions it holds a record of every instantiation, in which the instance at arguments is found,
and lists of the instances of each definition, for what is added to a definition later. Nothing is
ever removed. Reading an entry through a handle that names none is a broken precondition; the lists
of a type that is not there are empty.
-/
namespace Foreach

/-- A generic definition at arguments, and the type that stands for it. -/
structure Instantiation where
  /-- The generic definition. -/
  definition : TypeId
  /-- The arguments. -/
  arguments : List TypeId
  /-- The instance. -/
  result : TypeId
deriving DecidableEq

/-- The instances of a generic definition. -/
structure InstanceList where
  /-- The generic definition. -/
  definition : TypeId
  /-- The instances in the order they were made. -/
  made : List TypeId
deriving DecidableEq

/-- The instances that are listed for a definition. -/
def InstanceList.of (definition : TypeId) (lists : List InstanceList) : List TypeId :=
  match lists.find? fun list => list.definition = definition with
  | some list => list.made
  | none => []

/-- List one more instance of a definition. -/
def InstanceList.add (definition type : TypeId) : List InstanceList → List InstanceList
  | [] => [⟨definition, [type]⟩]
  | list :: rest =>
    if list.definition = definition then ⟨definition, list.made ++ [type]⟩ :: rest
    else list :: InstanceList.add definition type rest

/-- The instances that are listed for a definition, when one more was listed. -/
theorem InstanceList.of_add (definition type other : TypeId) (lists : List InstanceList) :
    InstanceList.of other (InstanceList.add definition type lists) =
      InstanceList.of other lists ++ if other = definition then [type] else [] := by
  induction lists with
  | nil => by_cases same : other = definition <;> simp [add, of, same, eq_comm]
  | cons list rest ih =>
    by_cases isHere : list.definition = definition
    · by_cases same : other = definition <;> simp [add, of, isHere, same, eq_comm]
    · by_cases isOther : list.definition = other
      · subst isOther
        simp [add, of, isHere]
      · simpa [add, of, isHere, isOther] using ih

/-- All registered types, members and instantiations. -/
structure Registry where
  /-- The types, each at its handle. -/
  types : Array TypeEntry
  /-- The members, each at its handle. -/
  members : Array MemberEntry
  /-- The instantiations in the order they were made. -/
  instantiations : List Instantiation
  /-- The instances of each definition. -/
  instances : List InstanceList
deriving DecidableEq

namespace Registry

/-- The number of types. -/
def size (registry : Registry) : Nat := registry.types.size

/-- The entry of a type, if there is one. -/
def type? (registry : Registry) (type : TypeId) : Option TypeEntry := registry.types[type.index]?

/-- The entry of a member, if there is one. -/
def member? (registry : Registry) (member : MemberId) : Option MemberEntry :=
  registry.members[member.index]?

/-- The entry of a registered type. -/
def entry (registry : Registry) (type : TypeId) : Checked TypeEntry :=
  Checked.ofOption (registry.type? type)

/-- The entry of a registered member. -/
def member (registry : Registry) (member : MemberId) : Checked MemberEntry :=
  Checked.ofOption (registry.member? member)

/-- The interfaces declared on a type. -/
def interfacesOf (registry : Registry) (type : TypeId) : List TypeId :=
  match registry.type? type with
  | some entry => entry.interfaces
  | none => []

/-- The members declared on a type. -/
def membersOf (registry : Registry) (type : TypeId) : List MemberId :=
  match registry.type? type with
  | some entry => entry.members
  | none => []

/-- Whether a registered type is a contract. -/
def isInterface (registry : Registry) (type : TypeId) : Checked Bool :=
  return (← registry.entry type).flags.isInterface

/-- Whether the values of a registered type are copied. -/
def isValueType (registry : Registry) (type : TypeId) : Checked Bool :=
  return (← registry.entry type).flags.valueType

/-- Whether the values of a registered type live on the stack alone. -/
def isByRefLike (registry : Registry) (type : TypeId) : Checked Bool :=
  return (← registry.entry type).flags.byRefLike

/-- The generic parameter of a type at a place. -/
def parameter (registry : Registry) (type : TypeId) (position : Nat) : Checked TypeId := do
  let entry ← registry.entry type
  Checked.ofOption entry.parameters[position]?

/-- The member of a type at a place. -/
def memberAt (registry : Registry) (type : TypeId) (position : Nat) : Checked MemberId := do
  let entry ← registry.entry type
  Checked.ofOption entry.members[position]?

/-- The type of what a registered member answers with. -/
def valueTypeOf (registry : Registry) (member : MemberId) : Checked TypeId :=
  return (← registry.member member).valueType

/-- The type that declares a registered member. -/
def ownerOf (registry : Registry) (member : MemberId) : Checked TypeId :=
  return (← registry.member member).owner

/-- The method of the disposal contract. -/
def disposeMethod (registry : Registry) : Checked MemberId := registry.memberAt .disposable 0

/-- The first type of a name that is neither an instance nor a generic parameter. -/
def findType? (registry : Registry) (name : String) : Option TypeId :=
  (registry.types.findIdx? fun entry =>
    entry.name = name && entry.definition.isNone && !entry.flags.genericParameter).map TypeId.mk

/-- The instances of a definition in the order they were made. -/
def instancesOf (registry : Registry) (definition : TypeId) : List TypeId :=
  InstanceList.of definition registry.instances

/-- The instance of a definition at arguments, if it was made. -/
def instance? (registry : Registry) (definition : TypeId) (arguments : List TypeId) :
    Option TypeId :=
  (registry.instantiations.find? fun made =>
    made.definition = definition && made.arguments = arguments).map Instantiation.result

/-- Every text that names a type, a namespace or a member. -/
def names (registry : Registry) : List String :=
  registry.types.toList.flatMap (fun entry => [entry.name, entry.space]) ++
    registry.members.toList.map MemberEntry.name

/-- The number of types, members and instantiations, as text. -/
def describe (registry : Registry) : String :=
  let counts := s!"types: {registry.types.size}, members: {registry.members.size}, " ++
    s!"instantiations: {registry.instantiations.length}"
  "TypeRegistry \x7b " ++ counts ++ " \x7d"

/-- Add a type; its handle is the next free position. -/
def pushType (registry : Registry) (entry : TypeEntry) : Registry × TypeId :=
  ({ registry with types := registry.types.push entry }, ⟨registry.types.size⟩)

/-- Add a member; its handle is the next free position. -/
def pushMember (registry : Registry) (entry : MemberEntry) : Registry × MemberId :=
  ({ registry with members := registry.members.push entry }, ⟨registry.members.size⟩)

/-- Change the entry of a type. -/
def modifyType (registry : Registry) (type : TypeId) (change : TypeEntry → TypeEntry) :
    Registry :=
  { registry with types := registry.types.modify type.index change }

/-- A type that was added is found at its handle. -/
@[simp] theorem type?_pushType_self (registry : Registry) (entry : TypeEntry) :
    (registry.pushType entry).1.type? (registry.pushType entry).2 = some entry := by
  simp [pushType, type?]

/-- Adding a type leaves the entries of the types before it. -/
theorem type?_pushType_of_lt (registry : Registry) (entry : TypeEntry) {type : TypeId}
    (registered : type.index < registry.size) :
    (registry.pushType entry).1.type? type = registry.type? type := by
  simp only [pushType, type?, size] at *
  exact Array.getElem?_push_lt registered |>.trans (Array.getElem?_eq_getElem registered).symm

/-- A member that was added is found at its handle. -/
@[simp] theorem member?_pushMember_self (registry : Registry) (entry : MemberEntry) :
    (registry.pushMember entry).1.member? (registry.pushMember entry).2 = some entry := by
  simp [pushMember, member?]

/-- Adding a member leaves the entries of the members before it. -/
theorem member?_pushMember_of_lt (registry : Registry) (entry : MemberEntry) {member : MemberId}
    (registered : member.index < registry.members.size) :
    (registry.pushMember entry).1.member? member = registry.member? member := by
  simp only [pushMember, member?]
  exact Array.getElem?_push_lt registered |>.trans (Array.getElem?_eq_getElem registered).symm

end Registry

end Foreach
