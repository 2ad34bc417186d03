import Mathlib.Data.List.DropRight
import Mathlib.Data.List.Forall2
import Mathlib.Data.Nat.Digits.Lemmas
import Foreach.Proofs.Text.Nesting
import Foreach.Text.Decimal

/-!
# What texts are made of

The functions that take texts apart, described by what they take apart. A core stands in a text
between blanks (`Trims`), parts stand in it with separators between them (`Separates`), and a size
is written in it with decimal digits (`IsSize`). Each of these holds of exactly what the function
finds.
-/
namespace Foreach.Text

/-- A core without blanks at its ends stands in a text between blanks. -/
structure Trims (text core : List Char) : Prop where
  /-- Only blanks stand around the core. -/
  surrounded : ∃ before after, text = before ++ core ++ after ∧
    (∀ c ∈ before, isBlank c = true) ∧ ∀ c ∈ after, isBlank c = true
  /-- The core begins with something that is not blank. -/
  begins : ∀ first ∈ core.head?, isBlank first = false
  /-- The core ends with something that is not blank. -/
  ends : ∀ last ∈ core.getLast?, isBlank last = false

/-- A text consists of parts with separators between them. -/
structure Separates (separator : Char) (text : List Char) (parts : List (List Char)) : Prop where
  /-- There is a part. -/
  present : parts ≠ []
  /-- No part has a separator inside. -/
  apart : ∀ part ∈ parts, separator ∉ part
  /-- The parts are the whole text. -/
  whole : [separator].intercalate parts = text

/-- A text is a size of at most 64 bits: decimal digits, of which the most significant comes first,
behind at most one plus. -/
def IsSize (text : String) (size : Nat) : Prop :=
  ∃ digits : List Nat, digits ≠ [] ∧ (∀ digit ∈ digits, digit < 10) ∧
    (text.toList = digits.map Nat.digitChar ∨ text.toList = '+' :: digits.map Nat.digitChar) ∧
    size = Nat.ofDigits 10 digits.reverse ∧ size < UInt64.size

section Trimming

variable {text core : List Char}

/-- What is trimmed off a text is blank, and what is left is a core of it. -/
theorem trims_trimBlank (text : List Char) : Trims text (trimBlank text) := by
  have isCore : trimBlank text = (text.dropWhile isBlank).rdropWhile isBlank := rfl
  constructor
  case surrounded =>
    refine ⟨text.takeWhile isBlank, (text.dropWhile isBlank).rtakeWhile isBlank, ?_,
      fun c isListed => List.mem_takeWhile_imp isListed,
      fun c isListed => List.mem_rtakeWhile_imp isListed⟩
    rw [isCore, List.append_assoc, List.rdropWhile_append_rtakeWhile,
      List.takeWhile_append_dropWhile]
  case begins =>
    intro first isFirst
    obtain ⟨rest, split⟩ := List.head?_eq_some_iff.mp isFirst
    obtain ⟨behind, kept⟩ : trimBlank text <+: text.dropWhile isBlank :=
      isCore ▸ List.rdropWhile_prefix _ _
    have starts : (text.dropWhile isBlank).head? = some first := by
      rw [← kept, split, List.cons_append, List.head?_cons]
    have solid := List.head?_dropWhile_not isBlank text
    rwa [starts] at solid
  case ends =>
    intro last isLast
    rw [isCore] at isLast
    obtain ⟨present, rfl⟩ := List.mem_getLast?_eq_getLast isLast
    exact Bool.eq_false_iff.mpr (List.rdropWhile_last_not _ _ present)

/-- Blanks around a core are trimmed off. -/
theorem Trims.trimBlank_eq (trims : Trims text core) : trimBlank text = core := by
  obtain ⟨before, after, rfl, blank, blankToo⟩ := trims.surrounded
  rw [trimBlank, List.append_assoc, List.dropWhile_append_of_pos blank]
  cases core with
  | nil =>
    have nothing : after.dropWhile isBlank = [] := List.dropWhile_eq_nil_iff.mpr blankToo
    rw [List.nil_append, nothing]
    rfl
  | cons first rest =>
    have solid : isBlank first = false := trims.begins first rfl
    have blankToo : ∀ c ∈ after.reverse, isBlank c = true := fun c isListed =>
      blankToo c (List.mem_reverse.mp isListed)
    have kept : (first :: rest).rdropWhile isBlank = first :: rest :=
      List.rdropWhile_eq_self_iff.mpr fun present =>
        Bool.eq_false_iff.mp (trims.ends _ (List.getLast?_eq_some_getLast present))
    rw [List.cons_append, List.dropWhile_cons_of_neg (Bool.eq_false_iff.mp solid),
      ← List.cons_append, List.reverse_append, List.dropWhile_append_of_pos blankToo]
    exact kept

/-- The core of a text is what is left when blanks are trimmed off. -/
theorem trims_iff : Trims text core ↔ trimBlank text = core :=
  ⟨Trims.trimBlank_eq, fun same => same ▸ trims_trimBlank text⟩

end Trimming

section Pieces

variable {separator : Char} {text piece : List Char} {parts : List (List Char)}

/-- No piece has a separator inside. -/
theorem not_mem_of_mem_splitAt (isListed : piece ∈ splitAt separator text) : separator ∉ piece := by
  induction text generalizing piece with
  | nil => simp_all [splitAt]
  | cons c rest ih =>
    by_cases same : c = separator
    · rw [splitAt, if_pos same] at isListed
      obtain rfl | inRest := List.mem_cons.mp isListed
      · exact List.not_mem_nil
      · exact ih inRest
    · obtain ⟨first, more, split⟩ := List.exists_cons_of_ne_nil (splitAt_ne_nil separator rest)
      simp only [splitAt, if_neg same, split] at isListed
      rw [split] at ih
      obtain rfl | inRest := List.mem_cons.mp isListed
      · exact List.not_mem_cons_of_ne_of_not_mem (Ne.symm same) (ih List.mem_cons_self)
      · exact ih (List.mem_cons_of_mem first inRest)

/-- The parts of a text are its pieces. -/
theorem separates_iff : Separates separator text parts ↔ splitAt separator text = parts := by
  constructor
  · rintro ⟨present, apart, rfl⟩
    exact splitAt_intercalate present apart
  · rintro rfl
    exact ⟨splitAt_ne_nil separator text, fun _ => not_mem_of_mem_splitAt,
      join_splitAt separator text⟩

end Pieces

section Sizes

variable {c : Char} {digit size read : Nat} {characters : List Char} {text : String}

/-- A digit is one of the ten. -/
theorem digit?_eq_some_iff : digit? c = some digit ↔ digit < 10 ∧ c = Nat.digitChar digit := by
  constructor
  · intro isRead
    obtain ⟨⟨notBelow, notAbove⟩, value⟩ := Option.ite_none_right_eq_some.mp isRead
    have low : 48 ≤ c.toNat := notBelow
    have high : c.toNat ≤ 57 := notAbove
    have offset : c.toNat - 48 = digit := Option.some.inj value
    have isOffset : c.toNat = 48 + digit := by omega
    have bound : digit < 10 := by omega
    have same : c = Char.ofNat (48 + digit) := by rw [← isOffset, Char.ofNat_toNat]
    refine ⟨bound, same.trans ?_⟩
    interval_cases digit <;> rfl
  · rintro ⟨bound, rfl⟩
    interval_cases digit <;> rfl

/-- Digits are read behind those that were read before. -/
theorem digitsValue?_eq_some_iff :
    digitsValue? read characters = some size ↔
      ∃ digits : List Nat, (∀ digit ∈ digits, digit < 10) ∧
        characters = digits.map Nat.digitChar ∧
        size = Nat.ofDigits 10 (digits.reverse ++ [read]) := by
  induction characters generalizing read with
  | nil =>
    have unread : digitsValue? read [] = some size ↔ size = read := by
      rw [digitsValue?, Option.some.injEq, eq_comm]
    rw [unread]
    constructor
    · rintro rfl
      exact ⟨[], nofun, rfl, Nat.ofDigits_singleton.symm⟩
    · rintro ⟨digits, -, none, rfl⟩
      rw [List.map_eq_nil_iff.mp none.symm]
      exact Nat.ofDigits_singleton
  | cons c rest ih =>
    have shifted : ∀ (digits : List Nat) (digit : Nat),
        Nat.ofDigits 10 (digits.reverse ++ [10 * read + digit]) =
          Nat.ofDigits 10 ((digit :: digits).reverse ++ [read]) := by
      intro digits digit
      simp only [List.reverse_cons, List.append_assoc, List.singleton_append, Nat.ofDigits_append,
        Nat.ofDigits_cons, Nat.ofDigits_nil]
      ring
    rw [digitsValue?, Option.bind_eq_some_iff]
    constructor
    · rintro ⟨digit, isDigit, isRead⟩
      obtain ⟨bound, rfl⟩ := digit?_eq_some_iff.mp isDigit
      obtain ⟨digits, bounds, rfl, value⟩ := ih.mp isRead
      exact ⟨digit :: digits, List.forall_mem_cons.mpr ⟨bound, bounds⟩, rfl,
        value.trans (shifted digits digit)⟩
    · rintro ⟨digits, bounds, written, value⟩
      obtain ⟨digit, digits, rfl, isFirst, rfl⟩ := List.map_eq_cons_iff.mp written.symm
      obtain ⟨bound, bounds⟩ := List.forall_mem_cons.mp bounds
      exact ⟨digit, digit?_eq_some_iff.mpr ⟨bound, isFirst.symm⟩,
        ih.mpr ⟨digits, bounds, rfl, value.trans (shifted digits digit).symm⟩⟩

/-- A number is one digit or more. -/
theorem natural?_eq_some_iff :
    natural? characters = some size ↔
      ∃ digits : List Nat, digits ≠ [] ∧ (∀ digit ∈ digits, digit < 10) ∧
        characters = digits.map Nat.digitChar ∧ size = Nat.ofDigits 10 digits.reverse := by
  have unread : ∀ digits : List Nat,
      Nat.ofDigits 10 (digits.reverse ++ [0]) = Nat.ofDigits 10 digits.reverse := by
    intro digits
    rw [Nat.ofDigits_append, Nat.ofDigits_singleton, Nat.mul_zero, Nat.add_zero]
  cases characters with
  | nil =>
    refine iff_of_false nofun ?_
    rintro ⟨digits, present, -, none, -⟩
    exact present (List.map_eq_nil_iff.mp none.symm)
  | cons c rest =>
    rw [natural?, digitsValue?_eq_some_iff]
    constructor
    · rintro ⟨digits, bounds, written, value⟩
      refine ⟨digits, ?_, bounds, written, value.trans (unread digits)⟩
      rintro rfl
      exact List.cons_ne_nil c rest written
    · rintro ⟨digits, -, bounds, written, value⟩
      exact ⟨digits, bounds, written, value.trans (unread digits).symm⟩

/-- What is read as a size is a size. -/
theorem readSize?_eq_some_iff : readSize? text = some size ↔ IsSize text size := by
  have noPlus : ∀ (digits : List Nat) (rest : List Char), (∀ digit ∈ digits, digit < 10) →
      digits.map Nat.digitChar ≠ '+' :: rest := by
    intro digits rest bounds written
    obtain ⟨digit, others, rfl, isPlus, -⟩ := List.map_eq_cons_iff.mp written
    have bound := (List.forall_mem_cons.mp bounds).1
    interval_cases digit <;> exact absurd isPlus (by decide)
  simp only [readSize?, Option.filter_eq_some_iff, decide_eq_true_eq]
  split
  case h_1 rest signed =>
    rw [natural?_eq_some_iff]
    constructor
    · rintro ⟨⟨digits, present, bounds, rfl, value⟩, bound⟩
      exact ⟨digits, present, bounds, .inr signed, value, bound⟩
    · rintro ⟨digits, present, bounds, written, value, bound⟩
      obtain plain | plus := written
      · exact absurd (plain.symm.trans signed) (noPlus digits rest bounds)
      · exact ⟨⟨digits, present, bounds, (List.cons.inj (signed.symm.trans plus)).2, value⟩, bound⟩
  case h_2 unsigned =>
    rw [natural?_eq_some_iff]
    constructor
    · rintro ⟨⟨digits, present, bounds, written, value⟩, bound⟩
      exact ⟨digits, present, bounds, .inl written, value, bound⟩
    · rintro ⟨digits, present, bounds, written, value, bound⟩
      obtain plain | plus := written
      · exact ⟨⟨digits, present, bounds, plain, value⟩, bound⟩
      · exact absurd plus (unsigned _)

end Sizes

end Foreach.Text
