import Foreach.Text.Indented

/-!
# Lines laid out

What a text of lines is once the width of a level is chosen: each line behind its spaces, with line
ends between the lines. A text can be laid out exactly if the spaces of each of its lines can be
counted.
-/
namespace Foreach

/-- A line behind its spaces. -/
def Line.layout (width : Nat) (line : Line) : String :=
  IndentedText.spaces (line.level * width) ++ line.text

/-- Lines behind their spaces, with line ends between them. -/
def layout (width : Nat) (lines : List Line) : String :=
  "\n".intercalate (lines.map (Line.layout width))

/-- The first of several lines ends before the others. -/
theorem layout_cons_cons (width : Nat) (line next : Line) (more : List Line) :
    layout width (line :: next :: more) =
      (line.layout width ++ "\n") ++ layout width (next :: more) := by
  rw [layout, layout, List.map_cons, List.map_cons, String.intercalate_cons_cons]

/-- Lines that are laid out end with the text of the last one. -/
theorem layout_ends (width : Nat) (lines : List Line) (last : Line) :
    ∃ before, layout width (lines ++ [last]) = before ++ last.text := by
  induction lines with
  | nil => exact ⟨_, String.intercalate_singleton⟩
  | cons line rest ih =>
    obtain ⟨before, same⟩ := ih
    cases rest with
    | nil =>
      refine ⟨line.layout width ++ "\n" ++ before, ?_⟩
      rw [String.append_assoc, ← same]
      exact layout_cons_cons width line last []
    | cons next more =>
      refine ⟨line.layout width ++ "\n" ++ before, ?_⟩
      rw [String.append_assoc, ← same]
      exact layout_cons_cons width line next (more ++ [last])

namespace IndentedText

/-- Written pieces add up. -/
theorem emit_emit (written : IndentedText) (first second : String) :
    (written.emit first).emit second = written.emit (first ++ second) := by
  rw [emit, emit, emit, String.append_assoc]

/-- A line whose spaces can be counted is written behind them and ended. -/
theorem line_eq_ok {written : IndentedText} {line : Line}
    (fits : line.level * written.width < UInt64.size) :
    written.line line = .ok (written.emit (line.layout written.width ++ "\n")) := by
  have counted : Checked.require (line.level * written.width < UInt64.size) = .ok () :=
    Checked.require_eq_ok.mpr (decide_eq_true fits)
  rw [IndentedText.line, indent, counted]
  show Except.ok (((written.emit _).emit line.text).newline) = _
  rw [newline, emit_emit, emit_emit, Line.layout, String.append_assoc]

/-- A line whose spaces cannot be counted is not written. -/
theorem line_eq_error {written : IndentedText} {line : Line}
    (exceeds : ¬ line.level * written.width < UInt64.size) :
    written.line line = .error .violation := by
  rw [IndentedText.line, indent, decide_eq_false exceeds]
  rfl

/-- Lines whose spaces can be counted are laid out, with a line end behind the last one. -/
theorem lines_eq_ok {written : IndentedText} {lines : List Line} (present : lines ≠ [])
    (fit : ∀ line ∈ lines, line.level * written.width < UInt64.size) :
    written.lines lines = .ok (written.emit (layout written.width lines ++ "\n")) := by
  induction lines generalizing written with
  | nil => exact absurd rfl present
  | cons line rest ih =>
    have first := line_eq_ok (fit line List.mem_cons_self)
    have rest_fit := fun later isListed => fit later (List.mem_cons_of_mem _ isListed)
    rw [IndentedText.lines, List.foldlM_cons, first]
    show (written.emit _).lines rest = _
    cases rest with
    | nil =>
      rw [layout, List.map_singleton, String.intercalate_singleton]
      rfl
    | cons next more =>
      have later := @ih (written.emit (line.layout written.width ++ "\n")) (by simp) rest_fit
      rw [later, emit_emit, ← String.append_assoc, layout_cons_cons]
      rfl

/-- Lines are not written if the spaces of one of them cannot be counted. -/
theorem lines_eq_error {written : IndentedText} {lines : List Line} {line : Line}
    (isListed : line ∈ lines) (exceeds : ¬ line.level * written.width < UInt64.size) :
    written.lines lines = .error .violation := by
  induction lines generalizing written with
  | nil => cases isListed
  | cons next rest ih =>
    rw [IndentedText.lines, List.foldlM_cons]
    by_cases fits : next.level * written.width < UInt64.size
    · rw [line_eq_ok fits]
      cases List.mem_cons.mp isListed with
      | inl isNext => exact absurd (isNext ▸ fits) exceeds
      | inr isLater => exact ih isLater exceeds
    · rw [line_eq_error fits]
      rfl

/-- Trimming removes the line end behind a text that does not end in one itself. -/
theorem trimTrailingNewlines_newline {written : IndentedText} {last : Char}
    (ends : written.text.toList.getLast? = some last) (isText : last ≠ '\n') :
    written.newline.trimTrailingNewlines = written := by
  obtain ⟨before, same⟩ := List.getLast?_eq_some_iff.mp ends
  have reversed : written.newline.text.toList.reverse = '\n' :: last :: before.reverse := by
    rw [newline, emit, String.toList_append, same]
    simp
  rw [trimTrailingNewlines, reversed, List.dropWhile_cons_of_pos (by decide),
    List.dropWhile_cons_of_neg (by simpa using isText), List.reverse_cons, List.reverse_reverse,
    ← same, String.ofList_toList]
  rfl

/-- Lines of which the last ends in a text are written as they are laid out, once the line end
behind them is removed, if their spaces can be counted. -/
theorem lines_trimmed {width : Nat} {lines : List Line} {last : Line} {final : Char}
    (isLast : lines.getLast? = some last) (ends : last.text.toList.getLast? = some final)
    (isText : final ≠ '\n') :
    ((start width).lines lines >>= fun written => pure written.trimTrailingNewlines.text) =
      if ∀ line ∈ lines, line.level * width < UInt64.size then .ok (layout width lines)
      else .error .violation := by
  by_cases fit : ∀ line ∈ lines, line.level * width < UInt64.size
  · obtain ⟨first, rfl⟩ := List.getLast?_eq_some_iff.mp isLast
    obtain ⟨before, same⟩ := layout_ends width first last
    have whole : ((start width).emit (layout width (first ++ [last]))).text =
        layout width (first ++ [last]) := String.empty_append
    have lastly : (layout width (first ++ [last])).toList.getLast? = some final := by
      rw [same, String.toList_append, List.getLast?_append, ends]
      rfl
    rw [if_pos fit, lines_eq_ok (by simp) fit, ← emit_emit]
    show Except.ok (newline _).trimTrailingNewlines.text = _
    rw [trimTrailingNewlines_newline (whole ▸ lastly) isText, ← whole]
    rfl
  · rw [if_neg fit]
    simp only [Classical.not_forall] at fit
    obtain ⟨line, isListed, exceeds⟩ := fit
    rw [lines_eq_error isListed exceeds]
    rfl

end IndentedText

end Foreach
