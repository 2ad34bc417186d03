import Foreach.Handle
import Foreach.Types.Flags

/-!
# Entries of the registry

What is recorded of a type and of a member, and the declarations that new entries are made from.
-/
namespace Foreach

/-- What kind of type an entry describes. -/
inductive TypeKind where
  /-- A built-in type. -/
  | primitive
  /-- A type whose values are references. -/
  | classType
  /-- A type whose values are copied. -/
  | structType
  /-- A contract. -/
  | interfaceType
  /-- A parameter of a generic definition, with its place among the parameters. -/
  | parameter (owner : TypeId) (position : Nat)
deriving DecidableEq

/-- What is recorded of a type. -/
structure TypeEntry where
  /-- The name without arity and surroundings. -/
  name : String
  /-- The namespace, empty for none. -/
  space : String
  /-- The kind. -/
  kind : TypeKind
  /-- The flags. -/
  flags : TypeFlags
  /-- The type that this one extends. -/
  base : Option TypeId := none
  /-- The interfaces declared on the type itself. -/
  interfaces : List TypeId := []
  /-- The members declared on the type itself. -/
  members : List MemberId := []
  /-- The parameters of a generic definition. -/
  parameters : List TypeId := []
  /-- The definition that an instance was made from. -/
  definition : Option TypeId := none
  /-- The arguments of an instance. -/
  arguments : List TypeId := []
  /-- The type that this one is nested in. -/
  outer : Option TypeId := none
deriving DecidableEq

/-- A method with its signature, or a property with its type. -/
inductive MemberKind where
  /-- A method with its parameter types and its result type. -/
  | method (parameters : List TypeId) (returns : TypeId)
  /-- A property with its type. -/
  | property (type : TypeId)
deriving DecidableEq

/-- What is recorded of a member. -/
structure MemberEntry where
  /-- The name. -/
  name : String
  /-- The type that declares the member. -/
  owner : TypeId
  /-- The flags. -/
  flags : MemberFlags
  /-- The signature. -/
  kind : MemberKind
  /-- The interface member that this one implements by declaration. -/
  implements : Option MemberId
  /-- The member of a definition that this one was made from. -/
  definition : Option MemberId
deriving DecidableEq

namespace MemberEntry

/-- Whether a member is a method. -/
def isMethod (member : MemberEntry) : Bool :=
  match member.kind with
  | .method _ _ => true
  | .property _ => false

/-- Whether a member is a property. -/
def isProperty (member : MemberEntry) : Bool := !member.isMethod

/-- The parameter types of a method; a property has none. -/
def parameters (member : MemberEntry) : List TypeId :=
  match member.kind with
  | .method parameters _ => parameters
  | .property _ => []

/-- The type of what a member answers with. -/
def valueType (member : MemberEntry) : TypeId :=
  match member.kind with
  | .method _ returns => returns
  | .property type => type

end MemberEntry

/-- What kind of type a declaration is of. -/
inductive TypeSort where
  /-- A class. -/
  | classType
  /-- A value type. -/
  | structType
  /-- A value type whose values live on the stack alone. -/
  | byRefLike
  /-- A contract. -/
  | interfaceType
deriving DecidableEq

namespace TypeSort

/-- The kind of the entry that a declaration makes. -/
def kind : TypeSort → TypeKind
  | .classType => .classType
  | .structType | .byRefLike => .structType
  | .interfaceType => .interfaceType

/-- The flags that a declaration starts with. -/
def flags : TypeSort → TypeFlags
  | .classType => {}
  | .structType => { valueType := true }
  | .byRefLike => { valueType := true, byRefLike := true }
  | .interfaceType => { isInterface := true }

/-- The base that a declaration starts with. -/
def base : TypeSort → Option TypeId
  | .classType => some .object
  | .structType | .byRefLike => some .valueType
  | .interfaceType => none

end TypeSort

/-- A type to be registered. -/
structure TypeDeclaration where
  /-- The name. -/
  name : String
  /-- What is declared. -/
  sort : TypeSort
  /-- The namespace, empty for none. -/
  space : String := ""
  /-- The names of the generic parameters. -/
  parameters : List String := []
  /-- The type to nest the new one in. -/
  outer : Option TypeId := none
  /-- Whether the type has no values of its own. -/
  isAbstract : Bool := false

/-- The flags of the entry of a declaration. -/
def TypeDeclaration.flags (declaration : TypeDeclaration) : TypeFlags :=
  { declaration.sort.flags with
    genericDefinition := !declaration.parameters.isEmpty
    isAbstract := declaration.isAbstract }

/-- A member to be added to a type. -/
structure MemberDeclaration where
  /-- The name. -/
  name : String
  /-- The signature. -/
  kind : MemberKind
  /-- The flags. -/
  flags : MemberFlags
  /-- The interface member to implement. -/
  implements : Option MemberId := none

namespace MemberDeclaration

/-- A public instance method. -/
def method (name : String) (returns : TypeId) (parameters : List TypeId := []) :
    MemberDeclaration :=
  ⟨name, .method parameters returns, { isPublic := true }, none⟩

/-- A public instance property that can be read. -/
def property (name : String) (type : TypeId) : MemberDeclaration :=
  ⟨name, .property type, { isPublic := true, hasGetter := true }, none⟩

/-- The same member, belonging to the type and not to its values. -/
def static (declaration : MemberDeclaration) : MemberDeclaration :=
  { declaration with flags := { declaration.flags with isStatic := true } }

/-- The same member, not visible from outside. -/
def hidden (declaration : MemberDeclaration) : MemberDeclaration :=
  { declaration with flags := { declaration.flags with isPublic := false } }

/-- The same property, without reading access. -/
def writeOnly (declaration : MemberDeclaration) : MemberDeclaration :=
  { declaration with flags := { declaration.flags with hasGetter := false } }

/-- The same member as the explicit implementation of an interface member: it can be reached
through the interface alone, and an explicit property can always be read. -/
def explicit (declaration : MemberDeclaration) (contract : MemberId) : MemberDeclaration :=
  { declaration with
    flags := { isExplicit := true, hasGetter := match declaration.kind with
      | .method _ _ => false
      | .property _ => true }
    implements := some contract }

/-- The same member, implementing an interface member beside its other uses. -/
def implementing (declaration : MemberDeclaration) (contract : MemberId) : MemberDeclaration :=
  { declaration with implements := some contract }

end MemberDeclaration

end Foreach
