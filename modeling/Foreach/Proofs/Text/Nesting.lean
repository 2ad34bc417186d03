import Mathlib.Data.List.DropRight
import Foreach.Proofs.Text.Words
import Foreach.Text.Split

/-!
# Texts that are laid out well

A text is read line by line from the top (`Text.WellNested`): lines of one brace open and close
bodies, and every line that is not empty stands behind as many spaces as the bodies around it ask
for. A text that is laid out well has no blanks at the ends of its lines and no line end behind the
last one.

Lines that are put together with line ends between them are the lines of that text, except for
empty ones at the end, which go with the line ends that are removed there.
-/
namespace Foreach.Text

/-- The spaces in front of a line inside of so many braces. -/
def indentation (width depth : Nat) : List Char := List.replicate (depth * width) ' '

/-- Lines that stand inside of so many braces are nested well, down to the end of the text. -/
inductive WellNested (width : Nat) : Nat → List (List Char) → Prop where
  /-- All braces are closed at the end. -/
  | done : WellNested width 0 []
  /-- An empty line stands anywhere. -/
  | empty {depth : Nat} {rest : List (List Char)} (below : WellNested width depth rest) :
    WellNested width depth ([] :: rest)
  /-- A line of one opening brace stands in front of what is inside. -/
  | opening {depth : Nat} {rest : List (List Char)} (below : WellNested width (depth + 1) rest) :
    WellNested width depth ((indentation width depth ++ ['\x7b']) :: rest)
  /-- A line of one closing brace stands as deep as the opening one, behind what is inside. -/
  | closing {depth : Nat} {rest : List (List Char)} (below : WellNested width depth rest) :
    WellNested width (depth + 1) ((indentation width depth ++ ['\x7d']) :: rest)
  /-- The braces inside every other line are balanced. -/
  | inside {depth : Nat} {first : Char} {line : List Char} {rest : List (List Char)}
    (starts : isBlank first = false) (balanced : braceDepth (first :: line) 0 = some 0)
    (below : WellNested width depth rest) :
    WellNested width depth ((indentation width depth ++ first :: line) :: rest)

/-- A text is laid out well, with levels of so many spaces. -/
structure WellLaidOut (width : Nat) (text : String) : Prop where
  /-- Its lines are nested well. -/
  nested : WellNested width 0 (splitAt '\n' text.toList)
  /-- No line ends with a blank. -/
  trimmed : ∀ line ∈ splitAt '\n' text.toList, ∀ last ∈ line.getLast?, isBlank last = false
  /-- There is no line end behind the last line. -/
  ended : text.toList.getLast? ≠ some '\n'

section Separators

variable {separator : Char} {line rest : List Char} {lines : List (List Char)}

/-- Without a separator there is one piece. -/
theorem splitAt_of_not_mem (absent : separator ∉ line) : splitAt separator line = [line] := by
  induction line with
  | nil => rfl
  | cons c rest ih =>
    obtain ⟨differs, absent⟩ := not_or.mp (mt List.mem_cons.mpr absent)
    rw [splitAt, if_neg (Ne.symm differs), ih absent]

/-- The piece before the first separator comes first. -/
theorem splitAt_append_cons (absent : separator ∉ line) :
    splitAt separator (line ++ separator :: rest) = line :: splitAt separator rest := by
  induction line with
  | nil => rw [List.nil_append, splitAt, if_pos rfl]
  | cons c line ih =>
    obtain ⟨differs, absent⟩ := not_or.mp (mt List.mem_cons.mpr absent)
    rw [List.cons_append, splitAt, if_neg (Ne.symm differs), ih absent]

/-- Lines with separators between them are the pieces of what they are put together to. -/
theorem splitAt_intercalate (present : lines ≠ []) (absent : ∀ line ∈ lines, separator ∉ line) :
    splitAt separator ([separator].intercalate lines) = lines := by
  induction lines with
  | nil => exact absurd rfl present
  | cons line rest ih =>
    have first := absent line List.mem_cons_self
    have others := fun other isListed => absent other (List.mem_cons_of_mem line isListed)
    cases rest with
    | nil => rw [List.intercalate_singleton, splitAt_of_not_mem first]
    | cons next more =>
      rw [List.intercalate_cons_cons, List.append_assoc, List.singleton_append,
        splitAt_append_cons first, ih (List.cons_ne_nil next more) others]

/-- One more line stands behind one more separator. -/
theorem intercalate_concat (present : lines ≠ []) (last : List Char) :
    [separator].intercalate (lines ++ [last]) =
      [separator].intercalate lines ++ separator :: last := by
  induction lines with
  | nil => exact absurd rfl present
  | cons line rest ih =>
    by_cases isLast : rest = []
    · rw [isLast]
      show [separator].intercalate [line, last] = _
      rw [List.intercalate_cons_cons, List.intercalate_singleton, List.intercalate_singleton,
        List.append_assoc]
      rfl
    · rw [List.cons_append, List.intercalate_cons_of_ne_nil (by simp),
        List.intercalate_cons_of_ne_nil isLast, ih isLast, ← List.append_assoc]

/-- Lines that are put together end with the last one. -/
theorem intercalate_ends (separator : Char) (lines : List (List Char)) (last : List Char) :
    ∃ before, [separator].intercalate (lines ++ [last]) = before ++ last := by
  by_cases present : lines = []
  · exact ⟨[], by rw [present, List.nil_append, List.intercalate_singleton, List.nil_append]⟩
  · refine ⟨[separator].intercalate lines ++ [separator], ?_⟩
    rw [intercalate_concat present, List.append_assoc, List.singleton_append]

end Separators

section Trimming

variable {lines : List (List Char)}

/-- The line ends behind lines, and the empty lines before them, are removed together. -/
theorem rdropWhile_intercalate (oneLine : ∀ line ∈ lines, '\n' ∉ line) :
    ∃ kept blank, lines = kept ++ blank ∧ (∀ line ∈ blank, line = []) ∧
      (kept = [] ∨ ∃ last ∈ kept.getLast?, last ≠ []) ∧
      (['\n'].intercalate lines ++ ['\n']).rdropWhile (· = '\n') = ['\n'].intercalate kept := by
  induction lines using List.reverseRecOn with
  | nil => exact ⟨[], [], rfl, nofun, .inl rfl, rfl⟩
  | append_singleton lines last ih =>
    by_cases isEmpty : last = []
    · obtain ⟨kept, blank, split, allBlank, solid, trimmed⟩ :=
        ih fun line isListed => oneLine line (List.mem_append_left _ isListed)
      refine ⟨kept, blank ++ [last], by rw [split, List.append_assoc], ?_, solid, ?_⟩
      · intro line isListed
        obtain isBlank | isLast := List.mem_append.mp isListed
        · exact allBlank line isBlank
        · exact (List.mem_singleton.mp isLast).trans isEmpty
      · rw [← trimmed, isEmpty]
        cases lines with
        | nil => rfl
        | cons line rest =>
          rw [intercalate_concat (List.cons_ne_nil line rest)]
          exact List.rdropWhile_concat_pos _ _ _ rfl
    · have isListed : last ∈ lines ++ [last] := List.mem_append_right _ List.mem_cons_self
      refine ⟨lines ++ [last], [], by rw [List.append_nil], nofun,
        .inr ⟨last, by rw [List.getLast?_concat]; rfl, isEmpty⟩, ?_⟩
      obtain ⟨before, whole⟩ := intercalate_ends '\n' lines last
      obtain ⟨earlier, final, rfl⟩ := (List.eq_nil_or_concat' last).resolve_left isEmpty
      have isText : final ≠ '\n' := by
        rintro rfl
        exact oneLine _ isListed (List.mem_append_right _ List.mem_cons_self)
      rw [List.rdropWhile_concat_pos _ _ _ rfl, whole, ← List.append_assoc,
        List.rdropWhile_concat_neg _ _ _ (by simpa using isText)]

/-- Empty lines at the end do not matter to nesting. -/
theorem WellNested.without_blank {width depth : Nat} {kept blank : List (List Char)}
    (nested : WellNested width depth (kept ++ blank)) (allBlank : ∀ line ∈ blank, line = []) :
    WellNested width depth kept := by
  induction kept generalizing depth with
  | nil =>
    rw [List.nil_append] at nested
    induction blank with
    | nil => exact nested
    | cons line rest ih =>
      have isBlank := allBlank line List.mem_cons_self
      cases nested with
      | empty below =>
        exact ih (fun other inRest => allBlank other (List.mem_cons_of_mem _ inRest)) below
      | opening | closing | inside => simp at isBlank
  | cons line rest ih =>
    rw [List.cons_append] at nested
    cases nested with
    | empty below => exact .empty (ih below)
    | opening below => exact .opening (ih below)
    | closing below => exact .closing (ih below)
    | inside starts balanced below => exact .inside starts balanced (ih below)

/-- Lines that are nested well, without blanks at their ends, make a text that is laid out well once
the line ends behind them are removed. -/
theorem wellLaidOut_of_lines {width : Nat} {text : String} (nested : WellNested width 0 lines)
    (oneLine : ∀ line ∈ lines, '\n' ∉ line)
    (trimmed : ∀ line ∈ lines, ∀ last ∈ line.getLast?, isBlank last = false)
    (isText : text.toList = (['\n'].intercalate lines ++ ['\n']).rdropWhile (· = '\n')) :
    WellLaidOut width text := by
  obtain ⟨kept, blank, rfl, allBlank, solid, same⟩ := rdropWhile_intercalate oneLine
  rw [same] at isText
  have nested := nested.without_blank allBlank
  obtain rfl | ⟨last, isLast, present⟩ := solid
  · constructor
    case nested =>
      rw [isText]
      exact .empty .done
    case trimmed =>
      rw [isText]
      intro line isListed final isFinal
      cases List.mem_singleton.mp isListed
      cases isFinal
    case ended =>
      rw [isText]
      exact nofun
  · obtain ⟨earlier, rfl⟩ := List.getLast?_eq_some_iff.mp isLast
    have pieces : splitAt '\n' text.toList = earlier ++ [last] := by
      rw [isText]
      exact splitAt_intercalate (by simp) fun line isListed =>
        oneLine line (List.mem_append_left _ isListed)
    constructor
    case nested =>
      rw [pieces]
      exact nested
    case trimmed =>
      rw [pieces]
      exact fun line isListed => trimmed line (List.mem_append_left _ isListed)
    case ended =>
      obtain ⟨before, whole⟩ := intercalate_ends '\n' earlier last
      intro isEnd
      have inLast : '\n' ∈ last := by
        rw [isText, whole, List.getLast?_append_of_ne_nil _ present] at isEnd
        exact List.mem_of_getLast? isEnd
      exact oneLine last (List.mem_append_left _ (List.mem_append_right _ List.mem_cons_self))
        inLast

end Trimming

end Foreach.Text
