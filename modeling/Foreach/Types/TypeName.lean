import Foreach.Types.Registry

/-!
# Names of types

A type is written in three ways: its simple name with its arity, as in an error message; its name
in source text, with keywords for built-in types; and its full name with namespace and the full
names of its arguments.

The names of a nested type and of an instance contain the names of other types. A type that is
nested in itself, or that is an argument of itself, has no name: the bound on nesting, one more
than the number of types, is reached only then.
-/
namespace Foreach.Registry

/-- The number of parameters of a definition or of arguments of an instance. -/
def arity (entry : TypeEntry) : Nat :=
  if entry.flags.genericDefinition then entry.parameters.length else entry.arguments.length

/-- The simple name of an entry, with its arity if it has one. -/
def arityName (entry : TypeEntry) : String :=
  if arity entry = 0 then entry.name else entry.name ++ "`" ++ toString (arity entry)

/-- The simple name of a type, with its arity if it has one. -/
def metadataName (registry : Registry) (type : TypeId) : Checked String :=
  return arityName (← registry.entry type)

/-- The word for a built-in type in source text. -/
def keyword? (type : TypeId) : Option String :=
  if type = .void then some "void"
  else if type = .bool then some "bool"
  else if type = .int then some "int"
  else if type = .string then some "string"
  else if type = .object then some "object"
  else none

/-- Texts separated by another, between an opening and a closing text; nothing for no texts. -/
def enclosed (opening separator closing : String) (texts : List String) : String :=
  if texts.isEmpty then "" else opening ++ separator.intercalate texts ++ closing

/-- The name of a type in source text, nested at most so deep. -/
def displayNameWithin (registry : Registry) : Nat → TypeId → Checked String
  | 0, _ => .error .exhausted
  | depth + 1, type =>
    match keyword? type with
    | some word => return word
    | none => do
      let entry ← registry.entry type
      let outer ← entry.outer.mapM (registry.displayNameWithin depth)
      let inner := if entry.flags.genericDefinition then entry.parameters else entry.arguments
      let listed ← inner.mapM (registry.displayNameWithin depth)
      return outer.elim "" (· ++ ".") ++ entry.name ++ enclosed "<" ", " ">" listed

/-- The name of a type in source text. -/
def displayName (registry : Registry) (type : TypeId) : Checked String :=
  registry.displayNameWithin (registry.size + 1) type

/-- The full name of a type, nested at most so deep. -/
def fullNameWithin (registry : Registry) : Nat → TypeId → Checked String
  | 0, _ => .error .exhausted
  | depth + 1, type => do
    let entry ← registry.entry type
    let outer ← entry.outer.mapM (registry.fullNameWithin depth)
    let space := if entry.space = "" then "" else entry.space ++ "."
    let listed ← entry.arguments.mapM (registry.fullNameWithin depth)
    return outer.elim space (· ++ "+") ++ arityName entry ++ enclosed "[" "," "]" listed

/-- The full name of a type. -/
def fullName (registry : Registry) (type : TypeId) : Checked String :=
  registry.fullNameWithin (registry.size + 1) type

end Foreach.Registry
