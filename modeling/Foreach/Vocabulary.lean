import Foreach.NameTable
import Foreach.Tree.Arena
import Foreach.Types.Registry

/-!
# The names in use

Types, members and bindings carry their names as text. The vocabulary is the table of all of them,
together with the words that enumeration needs and those that were only asked for.
-/
namespace Foreach

/-- The table of the names of a registry, of an arena, and of others that were asked for. -/
def vocabulary (registry : Registry) (arena : Arena) (asked : List String) : Checked NameTable :=
  NameTable.initial.internAll (registry.names ++ arena.names ++ asked)

end Foreach
