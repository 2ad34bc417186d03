import Foreach.Types.Instantiation

/-!
# Registering types and members

`declare` registers a type with its generic parameters; `setBase`, `addInterface` and
`addDeclaredMember` add to a registered type. What is added to a generic definition is added, with
parameters replaced, to every instance that exists at that time; later instances get it when they
are made.
-/
namespace Foreach.Registration

/-- The highest place of a generic parameter that is recorded; later ones are given the same. -/
def lastPosition : Nat := 65535

/-- The entry of a generic parameter. -/
def parameterEntry (owner : TypeId) (position : Nat) (name : String) : TypeEntry where
  name := name
  space := ""
  kind := .parameter owner (min position lastPosition)
  flags := { genericParameter := true }

/-- Register a generic parameter and list it on its definition. -/
def addParameter (owner : TypeId) (position : Nat) (name : String) : Registration Unit := do
  let parameter ← addType (parameterEntry owner position name)
  changeType owner fun entry => { entry with parameters := entry.parameters ++ [parameter] }

/-- Register a type together with its generic parameters. -/
def declare (declaration : TypeDeclaration) : Registration TypeId := do
  let type ← addType
    { name := declaration.name, space := declaration.space, kind := declaration.sort.kind,
      flags := declaration.flags, base := declaration.sort.base, outer := declaration.outer }
  declaration.parameters.zipIdx.forM fun (name, position) => addParameter type position name
  return type

/-- Do something for each instance of a definition, given how parameters are replaced there. -/
def forInstances (depth : Nat) (definition : TypeId)
    (action : (TypeId → Registration TypeId) → TypeId → Registration Unit) :
    Registration Unit := do
  let instances := (← get).instancesOf definition
  instances.forM fun type => do
    let substitution ← ask fun registry => registry.substitution type
    action (substitute depth substitution) type

/-- Give a type a base, in place of the one it had. -/
def setBase (depth : Nat) (type base : TypeId) : Registration Unit := do
  changeType type fun entry => { entry with base := some base }
  forInstances depth type fun replace made => copyBase replace made base

/-- Add an interface to a type. -/
def addInterface (depth : Nat) (type interface : TypeId) : Registration Unit := do
  let isInterface ← ask fun registry => registry.isInterface interface
  Checked.require isInterface
  changeType type fun entry => { entry with interfaces := entry.interfaces ++ [interface] }
  forInstances depth type fun replace made => copyInterface replace made interface

/-- Add a member to a type. -/
def addDeclaredMember (depth : Nat) (type : TypeId) (declaration : MemberDeclaration) :
    Registration MemberId := do
  let member ← addMember
    { name := declaration.name, owner := type, flags := declaration.flags,
      kind := declaration.kind, implements := declaration.implements, definition := none }
  changeType type fun entry => { entry with members := entry.members ++ [member] }
  forInstances depth type fun replace made => copyMember replace made member
  return member

end Foreach.Registration
