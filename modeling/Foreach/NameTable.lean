import Foreach.Checked

/-!
# The name table

A name table gives every text it is asked for one number and keeps it. The empty text has number
zero, and each new text gets the next number, as long as there is one.

What is known is held twice: the numbers by their texts, and the texts at their numbers.
-/
namespace Foreach

/-- The number of a text in a table. -/
structure Name where
  /-- The position of the text. -/
  slot : Nat
deriving DecidableEq

namespace Name

/-- The number of the empty text. -/
def empty : Name := ⟨0⟩

/-- The greatest number that a table gives. -/
def last : Nat := UInt32.size - 2

/-- The text of a name's number. -/
def describe (name : Name) : String := s!"Name#{name.slot}"

end Name

/-- Why a text gets no number. -/
inductive NameError where
  /-- All numbers are in use. -/
  | tableFull (count : Nat)
deriving DecidableEq

/-- What went wrong. -/
def NameError.message : NameError → String
  | tableFull count => s!"name table is full ({count} names)"

/-- The texts that have a number. -/
structure NameTable where
  /-- The numbers of the texts, the one given last first. -/
  slots : List (String × Name)
  /-- The texts, each at its number. -/
  texts : Array String
deriving DecidableEq

namespace NameTable

/-- The table without any text. -/
def blank : NameTable := ⟨[], #[]⟩

/-- The number of texts in a table. -/
def size (table : NameTable) : Nat := table.texts.size

/-- Whether a table has no text but the empty one. -/
def isEmpty (table : NameTable) : Bool := table.size ≤ 1

/-- The number of a text that a table holds. -/
def slot? (table : NameTable) (text : String) : Option Name := table.slots.lookup text

/-- The number that the next text gets. -/
def next (table : NameTable) : Name := ⟨table.size⟩

/-- A table with one more text. -/
def add (table : NameTable) (text : String) : NameTable :=
  ⟨(text, table.next) :: table.slots, table.texts.push text⟩

/-- Give a text the next number, unless it has one. -/
def insert (table : NameTable) (text : String) : NameTable × Except NameError Name :=
  match table.slot? text with
  | some name => (table, .ok name)
  | none =>
    if table.size ≤ Name.last then (table.add text, .ok table.next)
    else (table, .error (.tableFull table.size))

/-- The number of a text. The text is looked for before anything is added, and once more when it
is. -/
def tryIntern (table : NameTable) (text : String) : NameTable × Except NameError Name :=
  match table.slot? text with
  | some name => (table, .ok name)
  | none => table.insert text

/-- The number of a text, as long as the table is not full. -/
def intern (table : NameTable) (text : String) : Checked (NameTable × Name) :=
  match table.tryIntern text with
  | (after, .ok name) => .ok (after, name)
  | (_, .error _) => .error .violation

/-- The text of a number. -/
def lookup (table : NameTable) (name : Name) : Checked String :=
  Checked.ofOption table.texts[name.slot]?

/-- The words that enumeration itself needs. -/
def words : List String :=
  ["GetEnumerator", "Current", "MoveNext", "Dispose", "Reset", "enumerable", "enumerator", "System",
    "System.Collections", "System.Collections.Generic", "Object", "ValueType", "IDisposable",
    "IEnumerable", "IEnumerator"]

/-- The table that every use starts with: the empty text, then the words that enumeration needs. -/
def initial : NameTable := ("" :: words).foldl (fun table text => (table.insert text).1) blank

/-- Give numbers to several texts in order. -/
def internAll (table : NameTable) (texts : List String) : Checked NameTable :=
  texts.foldlM (fun known text => return (← known.intern text).1) table

end NameTable

end Foreach
