import Foreach.Types.Registry

/-!
# Instances of generic definitions

An instance of a generic definition has copies of the definition's base, interfaces and members, in
which the definition's parameters are replaced by arguments. There is one instance for each list of
arguments, and the definition itself stands for its instance at its own parameters.

Replacing parameters in an instance makes another instance, whose members may mention further
instances, and so on. An instance is recorded before its members are copied, so definitions that
mention one another come to an end. A definition whose members mention ever larger instances of it
does not, so the work is bounded by a depth.
-/
namespace Foreach

/-- What each parameter of a definition is replaced by. -/
abbrev Substitution := List (TypeId × TypeId)

/-- Work that registers types and members. -/
abbrev Registration := StateT Registry Checked

namespace Registration

/-- An answer that the registry as it stands gives. -/
def ask {α : Type} (question : Registry → Checked α) : Registration α := do
  let registry ← get
  question registry

/-- Add a type. -/
def addType (entry : TypeEntry) : Registration TypeId :=
  modifyGet fun registry => ((registry.pushType entry).2, (registry.pushType entry).1)

/-- Add a member that no type lists yet. -/
def addMember (entry : MemberEntry) : Registration MemberId :=
  modifyGet fun registry => ((registry.pushMember entry).2, (registry.pushMember entry).1)

/-- Change the entry of a registered type. -/
def changeType (type : TypeId) (change : TypeEntry → TypeEntry) : Registration Unit := do
  let _ ← ask fun registry => registry.entry type
  modify fun registry => registry.modifyType type change

/-- Record an instantiation, and list the instance. -/
def recordInstance (made : Instantiation) : Registration Unit :=
  modify fun registry => { registry with
    instantiations := registry.instantiations ++ [made]
    instances := InstanceList.add made.definition made.result registry.instances }

end Registration

/-- What the parameters of an instance's definition are replaced by. -/
def Registry.substitution (registry : Registry) (type : TypeId) : Checked Substitution := do
  let entry ← registry.entry type
  match entry.definition with
  | none => return []
  | some definition => return (← registry.entry definition).parameters.zip entry.arguments

/-- The argument that replaces a parameter. -/
def Substitution.argument? (substitution : Substitution) (type : TypeId) : Option TypeId :=
  (substitution.find? fun pair => pair.1 = type).map Prod.snd

namespace Registration

/-- Replace parameters in a signature. -/
def copyKind (replace : TypeId → Registration TypeId) : MemberKind → Registration MemberKind
  | .method parameters returns => do
    let parameters ← parameters.mapM replace
    return .method parameters (← replace returns)
  | .property type => return .property (← replace type)

/-- The member that stands for a member where its type is replaced by another: the one at the same
place of the other type, if that is an instance of the same definition and has its members
already, and else the member itself. -/
def counterpart (replace : TypeId → Registration TypeId) (member : MemberId) :
    Registration MemberId := do
  let entry ← ask fun registry => registry.member member
  let owner ← replace entry.owner
  if owner = entry.owner then return member
  else
    let origin := entry.definition.getD member
    let target ← ask fun registry => registry.entry owner
    let source ← ask fun registry => registry.entry (target.definition.getD owner)
    return ((source.members.idxOf? origin).bind fun place => target.members[place]?).getD member

/-- Copy a member of a definition to an instance. -/
def copyMember (replace : TypeId → Registration TypeId) (type : TypeId) (member : MemberId) :
    Registration Unit := do
  let source ← ask fun registry => registry.member member
  let kind ← copyKind replace source.kind
  let implements ← source.implements.mapM (counterpart replace)
  let copy ← addMember
    { name := source.name, owner := type, flags := source.flags, kind, implements,
      definition := some (source.definition.getD member) }
  changeType type fun entry => { entry with members := entry.members ++ [copy] }

/-- Copy an interface of a definition to an instance. -/
def copyInterface (replace : TypeId → Registration TypeId) (type interface : TypeId) :
    Registration Unit := do
  let interface ← replace interface
  changeType type fun entry => { entry with interfaces := entry.interfaces ++ [interface] }

/-- Copy the base of a definition to an instance. -/
def copyBase (replace : TypeId → Registration TypeId) (type base : TypeId) :
    Registration Unit := do
  let base ← replace base
  changeType type fun entry => { entry with base := some base }

/-- The entry of a new instance, before anything is copied to it. -/
def bareInstance (definition : TypeId) (arguments : List TypeId) (entry : TypeEntry) :
    TypeEntry where
  name := entry.name
  space := entry.space
  kind := entry.kind
  flags := entry.flags.forInstance
  definition := some definition
  arguments := arguments
  outer := entry.outer

/-- The instance of a definition at as many arguments as it has parameters, given how parameters
are replaced under a substitution. -/
def instantiateWith (replace : Substitution → TypeId → Registration TypeId)
    (definition : TypeId) (arguments : List TypeId) : Registration TypeId := do
  let entry ← ask fun registry => registry.entry definition
  Checked.require entry.flags.genericDefinition
  Checked.require (entry.parameters.length = arguments.length)
  if entry.parameters = arguments then return definition
  else match (← get).instance? definition arguments with
    | some made => return made
    | none => do
      let type ← addType (bareInstance definition arguments entry)
      recordInstance ⟨definition, arguments, type⟩
      let replace := replace (entry.parameters.zip arguments)
      entry.base.forM (copyBase replace type)
      entry.interfaces.forM (copyInterface replace type)
      entry.members.forM (copyMember replace type)
      return type

/-- Replace parameters by arguments in a type, as deep as the bound allows: a parameter becomes its
argument, an instance the instance at the replaced arguments, and any other type stays. -/
def substitute : Nat → Substitution → TypeId → Registration TypeId
  | 0, _, _ => throw .exhausted
  | depth + 1, substitution, type =>
    if substitution.isEmpty then return type
    else match substitution.argument? type with
      | some argument => return argument
      | none => do
        let entry ← ask fun registry => registry.entry type
        match entry.definition with
        | none => return type
        | some definition =>
          let arguments ← entry.arguments.mapM (substitute depth substitution)
          if arguments = entry.arguments then return type
          else instantiateWith (substitute depth) definition arguments

/-- The instance of a definition at as many arguments as it has parameters. -/
def instantiate (depth : Nat) : TypeId → List TypeId → Registration TypeId :=
  instantiateWith (substitute depth)

end Registration

end Foreach
