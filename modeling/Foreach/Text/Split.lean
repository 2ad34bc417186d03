/-!
# Splitting characters at a separator

`splitAt` cuts a list of characters at every separator, so it has one piece more than there are
separators, and the pieces put back together with separators between them are the list again
(`join_splitAt`).
-/
namespace Foreach.Text

/-- The pieces between the separators, in order. -/
def splitAt (separator : Char) : List Char → List (List Char)
  | [] => [[]]
  | c :: rest =>
    if c = separator then [] :: splitAt separator rest
    else match splitAt separator rest with
      | [] => [[c]]
      | piece :: pieces => (c :: piece) :: pieces

/-- There is always a piece. -/
theorem splitAt_ne_nil (separator : Char) (characters : List Char) :
    splitAt separator characters ≠ [] := by
  cases characters with
  | nil => simp [splitAt]
  | cons c rest =>
    by_cases same : c = separator
    · simp [splitAt, same]
    · simp only [splitAt, same, ↓reduceIte]
      split <;> simp

/-- The pieces with the separator between them are the characters again. -/
theorem join_splitAt (separator : Char) (characters : List Char) :
    [separator].intercalate (splitAt separator characters) = characters := by
  induction characters with
  | nil => simp [splitAt, List.intercalate]
  | cons c rest ih =>
    cases pieces : splitAt separator rest with
    | nil => exact absurd pieces (splitAt_ne_nil separator rest)
    | cons piece more =>
      rw [pieces] at ih
      by_cases same : c = separator
      · simp only [splitAt, same, ↓reduceIte, pieces]
        rw [← ih]
        simp [List.intercalate]
      · simp only [splitAt, same, ↓reduceIte, pieces]
        rw [← ih]
        cases more <;> simp [List.intercalate]

end Foreach.Text
