import Foreach.Types.Hierarchy

/-!
# Finding members

A public instance member is looked for in the scopes of a type, one after the other: a class or
struct and its bases, or an interface and the interfaces it has. Within a scope the first member in
order of declaration counts, so a member of a derived type comes before one of its base. Parameter
types have to be the same; nothing is converted.

`findImplementation?` says which member runs when a member is called on a value of some type.
-/
namespace Foreach.Registry

/-- The types in which members of a type are looked for, in order. -/
def lookupScopes (registry : Registry) (type : TypeId) : Checked (List TypeId) := do
  if ← registry.isInterface type then return type :: (← registry.allInterfaces type)
  else registry.baseChain type

/-- The first member of a type that passes a test. -/
def findMember? (registry : Registry) (type : TypeId) (test : MemberEntry → Bool) :
    Option MemberId :=
  (registry.membersOf type).find? fun member =>
    match registry.member? member with
    | some entry => test entry
    | none => false

/-- The first public instance member that passes a test, scope by scope. -/
def findPublic? (registry : Registry) (type : TypeId) (test : MemberEntry → Bool) :
    Checked (Option MemberId) := do
  let scopes ← registry.lookupScopes type
  return scopes.findSome? fun scope =>
    registry.findMember? scope fun entry => entry.flags.isPublicInstance && test entry

/-- Whether a member is a method of a name and of parameter types. -/
def isMethodOf (name : String) (parameters : List TypeId) (entry : MemberEntry) : Bool :=
  entry.name = name && entry.isMethod && entry.parameters = parameters

/-- Whether a member is a property of a name that can be read. -/
def isReadableOf (name : String) (entry : MemberEntry) : Bool :=
  entry.name = name && entry.isProperty && entry.flags.hasGetter

/-- The public instance method of a name and of parameter types. -/
def findMethod? (registry : Registry) (type : TypeId) (name : String)
    (parameters : List TypeId) : Checked (Option MemberId) :=
  registry.findPublic? type (isMethodOf name parameters)

/-- The public instance property of a name that can be read. -/
def findProperty? (registry : Registry) (type : TypeId) (name : String) :
    Checked (Option MemberId) :=
  registry.findPublic? type (isReadableOf name)

/-- The public instance member that a call by name and signature reaches. -/
def findNamesake? (registry : Registry) (type : TypeId) (entry : MemberEntry) :
    Checked (Option MemberId) :=
  match entry.kind with
  | .method parameters _ => registry.findMethod? type entry.name parameters
  | .property _ => registry.findProperty? type entry.name

/-- The member that runs when a member is called on a value of a type: for an interface member the
one declared to implement it, on the type or the nearest base that has one; otherwise the public
member of the same name and signature. -/
def findImplementation? (registry : Registry) (type : TypeId) (member : MemberId) :
    Checked (Option MemberId) := do
  let target ← registry.member member
  let declared ←
    if ← registry.isInterface target.owner then
      (registry.baseWalk type).search fun scope =>
        registry.findMember? scope fun entry => entry.implements = some member
    else pure none
  match declared with
  | some found => return some found
  | none => registry.findNamesake? type target

end Foreach.Registry
