import Foreach.Diagnostic.Basic

/-!
# What cannot be lowered

A loop over something that cannot be enumerated, and a resource that cannot be disposed of. The
messages have the wording of the compilers whose users know these errors.
-/
namespace Foreach

/-- The member that an enumerator lacks. -/
inductive MissingMember where
  /-- What reads the current item. -/
  | current
  /-- What goes on to the next item. -/
  | moveNext
deriving DecidableEq

/-- The name of a member that is missing. -/
def MissingMember.name : MissingMember → String
  | current => "Current"
  | moveNext => "MoveNext"

/-- Why a statement cannot be lowered. -/
inductive LoweringError where
  /-- Nothing gives an enumerator of the type. -/
  | notEnumerable (typeName : String)
  /-- What the type gives lacks a member of an enumerator. -/
  | invalidEnumerator (typeName enumeratorName : String) (missing : MissingMember)
  /-- A used resource has no disposal. -/
  | notDisposable (typeName : String)
deriving DecidableEq

namespace LoweringError

/-- What went wrong. -/
def message : LoweringError → String
  | notEnumerable typeName =>
    "foreach statement cannot operate on variables of type '" ++ typeName ++ "' because '" ++
      typeName ++
      "' does not contain a public instance or extension definition for 'GetEnumerator'"
  | invalidEnumerator typeName enumeratorName _ =>
    "foreach requires that the return type '" ++ enumeratorName ++ "' of '" ++ typeName ++
      ".GetEnumerator()' must have a suitable public 'MoveNext' method and public 'Current' " ++
      "property"
  | notDisposable typeName =>
    "'" ++ typeName ++ "': type used in a using statement must be implicitly convertible to " ++
      "'System.IDisposable'"

/-- The code of an error. -/
def code : LoweringError → Code
  | notEnumerable _ => .missingGetEnumerator
  | invalidEnumerator _ _ .current => .missingCurrent
  | invalidEnumerator _ _ .moveNext => .missingMoveNext
  | notDisposable _ => .notDisposable

/-- What explains an error and what mends it. -/
def attachments : LoweringError → List Attachment
  | notEnumerable typeName =>
    [.note ("`" ++ typeName ++
        "` declares no `GetEnumerator()` and implements no enumerable interface"),
      .help "add a public parameterless `GetEnumerator()` method"]
  | invalidEnumerator _ enumeratorName missing =>
    [.note ("`" ++ enumeratorName ++ "` has no public `" ++ missing.name ++ "`"),
      .help (match missing with
        | .current => "add a readable public `Current` property"
        | .moveNext => "add a public `bool MoveNext()` method")]
  | notDisposable _ =>
    [.note ("the enumerator is neither convertible to `System.IDisposable` nor a stack-only " ++
        "type with a public `Dispose()`"),
      .help "implement `System.IDisposable` on the enumerator"]

/-- The diagnostic of an error. -/
def diagnostic (error : LoweringError) : Diagnostic :=
  ⟨error.code, .error, error.message, error.attachments⟩

end LoweringError

end Foreach
