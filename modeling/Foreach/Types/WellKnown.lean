import Foreach.Types.Registry

/-!
# The well-known types

The registry that every other one grows from: the built-in types, the root classes, and the
contracts of disposal and enumeration with their members. The generic contracts have one parameter
each, and the generic enumerable contract answers with the generic enumerator contract at its own
parameter, the one instance that exists from the start.
-/
namespace Foreach

/-- The names of members that enumeration and disposal look for. -/
structure ContractNames where
  /-- What gives an enumerator. -/
  getEnumerator : String := "GetEnumerator"
  /-- What reads the current item. -/
  current : String := "Current"
  /-- What goes on to the next item. -/
  moveNext : String := "MoveNext"
  /-- What disposes of a resource. -/
  dispose : String := "Dispose"
  /-- What starts an enumerator again. -/
  reset : String := "Reset"

/-- The names of the contracts' members. -/
def contractNames : ContractNames := {}

namespace Registry

/-- A built-in type that is copied. -/
def primitiveValue (name : String) : TypeEntry where
  name := name
  space := "System"
  kind := .primitive
  flags := { isPrimitive := true, valueType := true }
  base := some .valueType

/-- The parameter of a contract that has one. -/
def contractParameter (owner : TypeId) : TypeEntry where
  name := "T"
  space := ""
  kind := .parameter owner 0
  flags := { genericParameter := true }

/-- A public instance method of a contract, without parameters. -/
def contractMethod (name : String) (owner returns : TypeId) : MemberEntry :=
  ⟨name, owner, { isPublic := true }, .method [] returns, none, none⟩

/-- A public instance property of a contract that can be read. -/
def contractProperty (name : String) (owner type : TypeId) : MemberEntry :=
  ⟨name, owner, { isPublic := true, hasGetter := true }, .property type, none, none⟩

/-- The built-in types, the root classes and the contracts. -/
def initial : Registry where
  types := #[
    primitiveValue "Void",
    primitiveValue "Boolean",
    primitiveValue "Int32",
    { name := "String", space := "System", kind := .primitive, flags := { isPrimitive := true },
      base := some .object },
    { name := "Object", space := "System", kind := .primitive, flags := { isPrimitive := true } },
    { name := "ValueType", space := "System", kind := .classType, flags := { isAbstract := true },
      base := some .object },
    { name := "IDisposable", space := "System", kind := .interfaceType,
      flags := { isInterface := true }, members := [⟨0⟩] },
    { name := "IEnumerator", space := "System.Collections", kind := .interfaceType,
      flags := { isInterface := true }, members := [⟨1⟩, ⟨2⟩, ⟨3⟩] },
    { name := "IEnumerable", space := "System.Collections", kind := .interfaceType,
      flags := { isInterface := true }, members := [⟨4⟩] },
    { name := "IEnumerator", space := "System.Collections.Generic", kind := .interfaceType,
      flags := { isInterface := true, genericDefinition := true },
      interfaces := [.disposable, .enumerator], members := [⟨5⟩], parameters := [⟨11⟩] },
    { name := "IEnumerable", space := "System.Collections.Generic", kind := .interfaceType,
      flags := { isInterface := true, genericDefinition := true },
      interfaces := [.enumerable], members := [⟨7⟩], parameters := [⟨12⟩] },
    contractParameter .genericEnumerator,
    contractParameter .genericEnumerable,
    { name := "IEnumerator", space := "System.Collections.Generic", kind := .interfaceType,
      flags := { isInterface := true, genericInstance := true },
      interfaces := [.disposable, .enumerator], members := [⟨6⟩],
      definition := some .genericEnumerator, arguments := [⟨12⟩] }]
  members := #[
    contractMethod "Dispose" .disposable .void,
    contractProperty "Current" .enumerator .object,
    contractMethod "MoveNext" .enumerator .bool,
    contractMethod "Reset" .enumerator .void,
    contractMethod "GetEnumerator" .enumerable .enumerator,
    contractProperty "Current" .genericEnumerator ⟨11⟩,
    { contractProperty "Current" ⟨13⟩ ⟨12⟩ with definition := some ⟨5⟩ },
    contractMethod "GetEnumerator" .genericEnumerable ⟨13⟩]
  instantiations := [⟨.genericEnumerator, [⟨12⟩], ⟨13⟩⟩]
  instances := [⟨.genericEnumerator, [⟨13⟩]⟩]

end Registry

end Foreach
