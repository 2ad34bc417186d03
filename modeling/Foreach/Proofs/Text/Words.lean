import Foreach.Text.Blank
import Foreach.Text.Decimal

/-!
# Words and texts inside lines

Names are identifiers, and numbers are written with digits. A text that can be a line is `Solid`: it
begins and ends with characters that are not blank, it does not end the line, and its braces are
balanced. Texts that are put together of such texts are solid again.
-/
namespace Foreach.Text

/-- Whether a character can be part of a name: a letter, a digit, an underscore, or a character
beyond ASCII that is not blank. -/
def isNameChar (c : Char) : Bool := c.isAlphanum || c = '_' || (128 ≤ c.toNat && !isBlank c)

/-- Whether a text is an identifier: characters of names, of which the first is no digit. -/
def isIdentifier (name : String) : Bool :=
  match name.toList with
  | [] => false
  | first :: rest => !first.isDigit && isNameChar first && rest.all isNameChar

/-- Whether a character is neither a brace nor the end of a line. -/
def isPlain (c : Char) : Bool := c ≠ '\n' && c ≠ '\x7b' && c ≠ '\x7d'

/-- How many braces are open after a character, if so many are open before. A brace that was not
opened cannot be closed. -/
def braceStep (depth : Nat) (c : Char) : Option Nat :=
  if c = '\x7b' then some (depth + 1)
  else if c = '\x7d' then if depth = 0 then none else some (depth - 1)
  else some depth

/-- How many braces are open after some characters, if so many are open before. -/
def braceDepth (characters : List Char) (depth : Nat) : Option Nat :=
  characters.foldlM braceStep depth

/-- Characters stay on their line, and their braces are balanced. -/
structure Flat (characters : List Char) : Prop where
  /-- They do not end the line. -/
  oneLine : '\n' ∉ characters
  /-- As many braces are open after them as before. -/
  balanced : ∀ depth, braceDepth characters depth = some depth

/-- A text can stand at the beginning of a line. -/
structure Opens (text : String) : Prop where
  /-- It is flat. -/
  flat : Flat text.toList
  /-- It begins with something that is not blank. -/
  starts : ∃ first, text.toList.head? = some first ∧ isBlank first = false

/-- A text can stand at the end of a line. -/
structure Closes (text : String) : Prop where
  /-- It is flat. -/
  flat : Flat text.toList
  /-- It ends with something that is not blank. -/
  ends : ∃ last, text.toList.getLast? = some last ∧ isBlank last = false

/-- A text can be a line. -/
structure Solid (text : String) : Prop where
  /-- It can stand at the beginning. -/
  opens : Opens text
  /-- It can stand at the end. -/
  closes : Closes text

section Flatness

variable {first second characters : List Char}

/-- Braces are counted through characters in order. -/
theorem braceDepth_append (first second : List Char) (depth : Nat) :
    braceDepth (first ++ second) depth = (braceDepth first depth).bind (braceDepth second) :=
  List.foldlM_append

/-- Flat characters in order are flat. -/
theorem Flat.append (flat : Flat first) (flatToo : Flat second) : Flat (first ++ second) where
  oneLine inside := (List.mem_append.mp inside).elim flat.oneLine flatToo.oneLine
  balanced depth := by
    rw [braceDepth_append, flat.balanced]
    exact flatToo.balanced depth

/-- Characters without braces that stay on their line are flat. -/
theorem flat_of_plain (plain : characters.all isPlain = true) : Flat characters := by
  have each : ∀ c ∈ characters, c ≠ '\n' ∧ c ≠ '\x7b' ∧ c ≠ '\x7d' := by
    intro c isListed
    simpa [isPlain, and_assoc] using List.all_eq_true.mp plain c isListed
  clear plain
  refine ⟨fun inside => (each _ inside).1 rfl, ?_⟩
  induction characters with
  | nil => exact fun _ => rfl
  | cons c rest ih =>
    intro depth
    obtain ⟨-, noOpening, noClosing⟩ := each c List.mem_cons_self
    rw [braceDepth, List.foldlM_cons, braceStep, if_neg noOpening, if_neg noClosing]
    exact ih (fun other isListed => each other (List.mem_cons_of_mem _ isListed)) depth

end Flatness

section Composition

variable {text more : String}

/-- What opens a line still does with more behind it. -/
theorem Opens.append (opens : Opens text) (flat : Flat more.toList) : Opens (text ++ more) := by
  obtain ⟨first, isFirst, solid⟩ := opens.starts
  refine ⟨?_, first, ?_, solid⟩
  · rw [String.toList_append]
    exact opens.flat.append flat
  · rw [String.toList_append, List.head?_append, isFirst]
    rfl

/-- What opens a line and what closes it are a line together. -/
theorem Opens.close (opens : Opens text) (closes : Closes more) : Solid (text ++ more) := by
  obtain ⟨last, isLast, solid⟩ := closes.ends
  refine ⟨opens.append closes.flat, ⟨(opens.append closes.flat).flat, last, ?_, solid⟩⟩
  rw [String.toList_append, List.getLast?_append, isLast]
  rfl

/-- A line is flat. -/
theorem Solid.flat (solid : Solid text) : Flat text.toList := solid.opens.flat

/-- Lines with a flat text between them are a line. -/
theorem Solid.between (first : Solid text) {middle : String} (flat : Flat middle.toList)
    (second : Solid more) : Solid (text ++ middle ++ more) :=
  (first.opens.append flat).close second.closes

/-- A line between what opens one and what closes one is a line. -/
theorem Solid.within {opening closing : String} (solid : Solid text) (opens : Opens opening)
    (closes : Closes closing) : Solid (opening ++ text ++ closing) :=
  (opens.append solid.flat).close closes

/-- A line with a semicolon behind it is a line. -/
theorem Solid.ended (solid : Solid text) : Solid (text ++ ";") :=
  solid.opens.close ⟨flat_of_plain rfl, ';', rfl, rfl⟩

/-- Texts with flat texts between them are flat. -/
theorem flat_intercalate {separator : String} {texts : List String}
    (separates : Flat separator.toList) (each : ∀ text ∈ texts, Flat text.toList) :
    Flat (separator.intercalate texts).toList := by
  induction texts with
  | nil => exact flat_of_plain rfl
  | cons text rest ih =>
    have own := each text List.mem_cons_self
    have others := ih fun other isListed => each other (List.mem_cons_of_mem _ isListed)
    cases rest with
    | nil =>
      rw [String.intercalate_singleton]
      exact own
    | cons next more =>
      rw [String.intercalate_cons_cons, String.toList_append, String.toList_append]
      exact (own.append separates).append others

end Composition

section Characters

variable {c : Char}

/-- Letters and digits are not blank. -/
theorem isBlank_of_isAlphanum (isLetterOrDigit : c.isAlphanum = true) : isBlank c = false := by
  delta Char.isAlphanum Char.isAlpha Char.isUpper Char.isLower Char.isDigit at isLetterOrDigit
  simp only [isBlank, Char.toNat, Bool.or_eq_true, decide_eq_true_eq, Bool.and_eq_true] at *
  simp [UInt32.le_iff_toNat_le] at *
  omega

/-- Characters of names are not blank. -/
theorem isBlank_of_isNameChar (isPart : isNameChar c = true) : isBlank c = false := by
  simp only [isNameChar, Bool.or_eq_true, Bool.and_eq_true, Bool.not_eq_true',
    decide_eq_true_eq] at isPart
  obtain (isLetterOrDigit | rfl) | ⟨-, notBlank⟩ := isPart
  · exact isBlank_of_isAlphanum isLetterOrDigit
  · rfl
  · exact notBlank

/-- A character is no character of names if it is of ASCII and none of those that can be. -/
theorem ne_of_isNameChar {other : Char} (isPart : isNameChar c = true)
    (isNone : isNameChar other = false) : c ≠ other := by
  rintro rfl
  cases isPart.symm.trans isNone

/-- Characters of names are plain. -/
theorem isPlain_of_isNameChar (isPart : isNameChar c = true) : isPlain c = true := by
  have noEnd : c ≠ '\n' := ne_of_isNameChar isPart rfl
  have noOpening : c ≠ '\x7b' := ne_of_isNameChar isPart rfl
  have noClosing : c ≠ '\x7d' := ne_of_isNameChar isPart rfl
  simp [isPlain, noEnd, noOpening, noClosing]

/-- Digits are characters of names. -/
theorem isNameChar_of_isDigit (isDigit : c.isDigit = true) : isNameChar c = true := by
  simp [isNameChar, Char.isAlphanum, isDigit]

end Characters

/-- A text of plain characters that begins and ends with characters of names can be a line. -/
theorem solid_of_plain {text : String} {first last : Char} (plain : text.toList.all isPlain = true)
    (isFirst : text.toList.head? = some first) (starts : isBlank first = false)
    (isLast : text.toList.getLast? = some last) (ends : isBlank last = false) : Solid text :=
  have flat := flat_of_plain plain
  ⟨⟨flat, first, isFirst, starts⟩, ⟨flat, last, isLast, ends⟩⟩

/-- An identifier is made of characters of names, and the first is no digit. -/
theorem isIdentifier_iff {name : String} : isIdentifier name = true ↔
    ∃ first rest, name.toList = first :: rest ∧ first.isDigit = false ∧
      ∀ c ∈ name.toList, isNameChar c = true := by
  unfold isIdentifier
  cases characters : name.toList with
  | nil => simp
  | cons first rest => simp [and_assoc]

/-- A text of characters of names can be a line. -/
theorem solid_of_isNameChar {text : String} (present : text.toList ≠ [])
    (each : ∀ c ∈ text.toList, isNameChar c = true) : Solid text := by
  obtain ⟨first, isFirst⟩ := Option.isSome_iff_exists.mp (List.isSome_head?.mpr present)
  obtain ⟨last, isLast⟩ := Option.isSome_iff_exists.mp (List.getLast?_isSome.mpr present)
  have plain : text.toList.all isPlain = true :=
    List.all_eq_true.mpr fun c isListed => isPlain_of_isNameChar (each c isListed)
  exact solid_of_plain plain isFirst (isBlank_of_isNameChar (each _ (List.mem_of_head? isFirst)))
    isLast (isBlank_of_isNameChar (each _ (List.mem_of_getLast? isLast)))

/-- An identifier can be a line. -/
theorem solid_of_isIdentifier {name : String} (isName : isIdentifier name = true) :
    Solid name := by
  obtain ⟨first, rest, characters, -, each⟩ := isIdentifier_iff.mp isName
  exact solid_of_isNameChar (characters ▸ List.cons_ne_nil first rest) each

/-- A natural number is written with digits. -/
theorem isDigit_of_mem_repr {number : Nat} {c : Char} (isListed : c ∈ number.repr.toList) :
    c.isDigit = true := by
  rw [Nat.toList_repr] at isListed
  exact Nat.isDigit_of_mem_toDigits (by decide) (by decide) isListed

/-- A number can be a line. -/
theorem solid_writeInteger (value : Int64) : Solid (writeInteger value) := by
  have digits (number : Nat) : Solid number.repr :=
    solid_of_isNameChar (by simp) fun c isListed =>
      isNameChar_of_isDigit (isDigit_of_mem_repr isListed)
  rw [writeInteger, Int.toString_eq_repr, Int.repr_eq_if]
  split
  · exact digits _
  · have minus : Opens "-" := ⟨flat_of_plain rfl, '-', rfl, rfl⟩
    exact minus.close (digits _).closes

end Foreach.Text
