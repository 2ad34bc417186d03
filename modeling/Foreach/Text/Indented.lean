import Foreach.Checked

/-!
# Indented text

Text is written line by line, each line a number of levels deep; a level is a fixed number of
spaces. `IndentedText` is the text so far together with that number.
-/
namespace Foreach

/-- One line of a text, before its indentation is chosen. -/
structure Line where
  /-- How many levels deep the line stands. -/
  level : Nat
  /-- What stands on the line. -/
  text : String
deriving DecidableEq

/-- The line with nothing on it. -/
def Line.blank : Line := ⟨0, ""⟩

/-- A text being written. -/
structure IndentedText where
  /-- What has been written. -/
  text : String
  /-- The number of spaces of one level. -/
  width : Nat

namespace IndentedText

/-- The number of spaces of a level where nothing else is asked for. -/
def defaultWidth : Nat := 4

/-- A text with nothing written. -/
def start (width : Nat) : IndentedText := ⟨"", width⟩

/-- Write a piece of text. -/
def emit (written : IndentedText) (piece : String) : IndentedText :=
  { written with text := written.text ++ piece }

/-- End the line. -/
def newline (written : IndentedText) : IndentedText := written.emit "\n"

/-- Write one space. -/
def space (written : IndentedText) : IndentedText := written.emit " "

/-- A number of spaces in a row. -/
def spaces (count : Nat) : String := String.ofList (List.replicate count ' ')

/-- Write the spaces of a level, whose number has to fit in 64 bits. -/
def indent (written : IndentedText) (level : Nat) : Checked IndentedText := do
  Checked.require (level * written.width < UInt64.size)
  return written.emit (spaces (level * written.width))

/-- Remove the line ends at the end of the text. -/
def trimTrailingNewlines (written : IndentedText) : IndentedText :=
  { written with
    text := String.ofList (written.text.toList.reverse.dropWhile (· = '\n')).reverse }

/-- Write a whole line at its level. -/
def line (written : IndentedText) (line : Line) : Checked IndentedText := do
  let indented ← written.indent line.level
  return (indented.emit line.text).newline

/-- Write lines in order. -/
def lines (written : IndentedText) (lines : List Line) : Checked IndentedText :=
  lines.foldlM IndentedText.line written

end IndentedText

end Foreach
