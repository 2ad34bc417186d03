import Foreach.Diagnostic.Code

/-!
# Diagnostics

A diagnostic is a code, a severity and a message, followed by notes that explain it and helps that
say what to do. Types and members have no place in a source text, so it carries no position.
-/
namespace Foreach

/-- How bad a diagnostic is. -/
inductive Severity where
  /-- Nothing can be produced. -/
  | error
  /-- Something is produced all the same. -/
  | warning
deriving DecidableEq

/-- The word for a severity. -/
def Severity.text : Severity → String
  | .error => "error"
  | .warning => "warning"

/-- What is said after the message. -/
inductive Attachment where
  /-- An explanation. -/
  | note (text : String)
  /-- A suggestion. -/
  | help (text : String)
deriving DecidableEq

/-- The line of an attachment. -/
def Attachment.render : Attachment → String
  | .note text => "  = note: " ++ text
  | .help text => "  = help: " ++ text

/-- A reportable error or warning. -/
structure Diagnostic where
  /-- What went wrong. -/
  code : Code
  /-- How bad it is. -/
  severity : Severity
  /-- What went wrong here. -/
  message : String
  /-- Notes and helps in the order they were attached. -/
  attachments : List Attachment
deriving DecidableEq

namespace Diagnostic

/-- Whether a diagnostic is an error. -/
def isError (diagnostic : Diagnostic) : Bool := diagnostic.severity = .error

/-- The texts of the notes in order. -/
def notes (diagnostic : Diagnostic) : List String :=
  diagnostic.attachments.filterMap fun
    | .note text => some text
    | .help _ => none

/-- The text of a diagnostic: severity, code and message on the first line, then a line for each
attachment. -/
def render (diagnostic : Diagnostic) : String :=
  diagnostic.attachments.foldl (fun text attachment => text ++ "\n" ++ attachment.render)
    (diagnostic.severity.text ++ "[" ++ diagnostic.code.text ++ "]: " ++ diagnostic.message)

end Diagnostic

/-- The explanation of a code given by its written form. -/
def Code.explain? (written : String) : Option String :=
  (Code.ofText? written).map fun code => code.text ++ ": " ++ code.description

end Foreach
