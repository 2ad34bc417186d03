import Foreach.Proofs.Types.Spelling
import Mathlib.Data.List.TakeDrop

/-!
# Tokens of source text

The text of an expression is a row of tokens: words, accesses to members, signs with blanks around
them, conversions, parentheses and commas. A name ends where the next token begins, and a conversion
is told from an opening parenthesis by what comes after its closing one: an operand follows a
conversion, and never a closing parenthesis. So legible tokens that keep to this (`Separable`) are
known from their characters (`Separable.eq_of_characters`).
-/
namespace Foreach.Source

open Text

/-- The sign between two operands. -/
inductive Sign where
  /-- A binding gets a value. -/
  | assign
  /-- A value is added to a binding. -/
  | addAssign
  /-- Two values are compared. -/
  | notEqual
deriving DecidableEq

/-- An operand without parts: what a binding is, or a constant. -/
inductive Word (Binding : Type) where
  /-- A binding. -/
  | binding (binding : Binding)
  /-- An integer. -/
  | int (value : Int64)
  /-- A truth value. -/
  | bool (value : Bool)
  /-- The null reference. -/
  | null
deriving DecidableEq

/-- What a text is made of. Bindings, members and types are themselves in it, or their names. -/
inductive Token (Binding Member Target : Type) where
  /-- An operand without parts. -/
  | word (word : Word Binding)
  /-- An access to a member, with the point in front of it. -/
  | member (member : Member)
  /-- A sign, with blanks around it. -/
  | sign (sign : Sign)
  /-- A conversion: a type in parentheses. -/
  | cast (target : Target)
  /-- An opening parenthesis. -/
  | opening
  /-- A closing parenthesis. -/
  | closing
  /-- A comma between arguments. -/
  | comma
deriving DecidableEq

/-- A word with another name for its binding. -/
def Word.map {Binding Name : Type} (name : Binding → Name) : Word Binding → Word Name
  | binding own => binding (name own)
  | int value => int value
  | bool value => bool value
  | null => null

/-- A token with other names for what is named in it. -/
def Token.map {Binding Member Target Name MemberName TargetName : Type} (name : Binding → Name)
    (memberName : Member → MemberName) (targetName : Target → TargetName) :
    Token Binding Member Target → Token Name MemberName TargetName
  | word own => word (own.map name)
  | member own => member (memberName own)
  | sign own => sign own
  | cast target => cast (targetName target)
  | opening => opening
  | closing => closing
  | comma => comma

/-- The words that are no names. -/
def reserved : List String := ["true", "false", "null"]

/-- The text of a word. -/
def Word.text : Word String → String
  | binding name => name
  | int value => writeInteger value
  | bool value => if value then "true" else "false"
  | null => "null"

/-- A word is read as what it is: names are identifiers that mean nothing else, and integers have no
sign. -/
def Word.Legible : Word String → Prop
  | binding name => isIdentifier name = true ∧ name ∉ reserved
  | int value => 0 ≤ value
  | bool _ | null => True

/-- The characters of a sign. -/
def Sign.characters : Sign → List Char
  | assign => [' ', '=', ' ']
  | addAssign => [' ', '+', '=', ' ']
  | notEqual => [' ', '!', '=', ' ']

namespace Token

/-- The characters of a token. -/
def characters : Token String String String → List Char
  | word own => own.text.toList
  | member name => '.' :: name.toList
  | sign own => own.characters
  | cast target => '(' :: (target.toList ++ [')'])
  | opening => ['(']
  | closing => [')']
  | comma => [',', ' ']

/-- The names in a token are read as what they are. -/
def Legible : Token String String String → Prop
  | word own => own.Legible
  | member name => isIdentifier name = true
  | cast target => IsTypeName target
  | sign _ | opening | closing | comma => True

variable {Binding Member Target : Type}

/-- Whether an operand can begin with a token. -/
def starts : Token Binding Member Target → Bool
  | word _ | cast _ | opening => true
  | member _ | sign _ | closing | comma => false

/-- Whether a token is a word. -/
def isWord : Token Binding Member Target → Bool
  | word _ => true
  | member _ | sign _ | cast _ | opening | closing | comma => false

/-- Whether something can come after a token: a name cannot come after a name, an operand comes
after a conversion and does not come after a closing parenthesis. -/
def fits (next : Option (Token Binding Member Target)) : Token Binding Member Target → Bool
  | word _ | member _ => !next.any (·.isWord)
  | closing => !next.any (·.starts)
  | cast _ => next.any (·.starts)
  | sign _ | opening | comma => true

end Token

/-- Every token of a row fits the next one. -/
def Separable {Binding Member Target : Type} : List (Token Binding Member Target) → Prop
  | [] => True
  | token :: rest => token.fits rest.head? = true ∧ Separable rest

section Words

/-- A number without a sign is written with its digits. -/
theorem writeInteger_of_nonneg {value : Int64} (positive : 0 ≤ value) :
    writeInteger value = value.toInt.toNat.repr := by
  have bound : 0 ≤ value.toInt := Int64.le_iff_toInt_le.mp positive
  rw [writeInteger, Int.toString_eq_repr, Int.repr_eq_if, if_pos bound]

variable {word other : Word String}

/-- A legible word is made of characters of names. -/
theorem Word.Legible.isNameChar (legible : word.Legible) :
    ∀ c ∈ word.text.toList, isNameChar c = true := by
  cases word with
  | binding name =>
    obtain ⟨first, rest, -, -, each⟩ := isIdentifier_iff.mp legible.1
    exact each
  | int value =>
    intro c isListed
    rw [Word.text, writeInteger_of_nonneg legible] at isListed
    exact isNameChar_of_isDigit (isDigit_of_mem_repr isListed)
  | bool value =>
    have isName : isIdentifier (Word.bool value).text = true := by cases value <;> rfl
    obtain ⟨first, rest, -, -, each⟩ := isIdentifier_iff.mp isName
    exact each
  | null =>
    obtain ⟨first, rest, -, -, each⟩ := isIdentifier_iff.mp (rfl : isIdentifier "null" = true)
    exact each

/-- A legible word has characters. -/
theorem Word.Legible.present (legible : word.Legible) : word.text.toList ≠ [] := by
  cases word with
  | binding name =>
    obtain ⟨first, rest, characters, -⟩ := isIdentifier_iff.mp legible.1
    exact characters ▸ List.cons_ne_nil first rest
  | int value =>
    rw [Word.text, writeInteger_of_nonneg legible]
    simp
  | bool value => cases value <;> decide
  | null => decide

/-- A number is not written like anything that begins as an identifier. -/
theorem writeInteger_ne {value : Int64} {name : String} (positive : 0 ≤ value)
    (isName : isIdentifier name = true) : writeInteger value ≠ name := by
  rintro rfl
  obtain ⟨first, rest, characters, noDigit, -⟩ := isIdentifier_iff.mp isName
  rw [writeInteger_of_nonneg positive] at characters
  have isDigit := isDigit_of_mem_repr (characters ▸ List.mem_cons_self)
  exact Bool.false_ne_true (noDigit.symm.trans isDigit)

/-- The word that is written as a text. -/
def Word.ofText (text : String) : Word String :=
  if text = "true" then bool true
  else if text = "false" then bool false
  else if text = "null" then null
  else if isIdentifier text then binding text
  else int (Int64.ofNat (Nat.ofDigitChars 10 text.toList 0))

/-- A legible word is known from its text. -/
theorem Word.Legible.ofText_text (legible : word.Legible) : Word.ofText word.text = word := by
  cases word with
  | binding name =>
    obtain ⟨isName, free⟩ := legible
    obtain ⟨noTruth, noFalsehood, noNull⟩ : name ≠ "true" ∧ name ≠ "false" ∧ name ≠ "null" := by
      simpa [reserved] using free
    rw [text, ofText, if_neg noTruth, if_neg noFalsehood, if_neg noNull, if_pos isName]
  | int value =>
    have noName : ¬isIdentifier (writeInteger value) = true :=
      fun isName => writeInteger_ne legible isName rfl
    rw [text, ofText, if_neg (writeInteger_ne legible rfl), if_neg (writeInteger_ne legible rfl),
      if_neg (writeInteger_ne legible rfl), if_neg noName, writeInteger_of_nonneg legible,
      Nat.toList_repr, Nat.ofDigitChars_ten_toDigits, ← Int64.ofInt_eq_ofNat,
      Int.toNat_of_nonneg (Int64.le_iff_toInt_le.mp legible), Int64.ofInt_toInt]
  | bool value => cases value <;> decide
  | null => decide

/-- Legible words with the same characters are the same. -/
theorem Word.Legible.eq_of_characters (legible : word.Legible) (legibleToo : other.Legible)
    (same : word.text.toList = other.text.toList) : word = other := by
  rw [← legible.ofText_text, String.toList_inj.mp same, legibleToo.ofText_text]

end Words

section Rows

variable {token other : Token String String String} {first second rest more : List Char}

/-- What a token is seen to be from its first character: a word, or what the character stands for.
An opening parenthesis may belong to a conversion. -/
def Token.lead : Token String String String → Option Char
  | .word _ => none
  | .member _ => some '.'
  | .sign _ => some ' '
  | .cast _ | .opening => some '('
  | .closing => some ')'
  | .comma => some ','

/-- A legible token begins with what it is seen to be from. -/
theorem Token.Legible.leads (legible : token.Legible) :
    ∃ c rest, token.characters = c :: rest ∧
      token.lead = if isNameChar c then none else some c := by
  cases token with
  | word word =>
    obtain ⟨c, rest, characters⟩ := List.exists_cons_of_ne_nil (Word.Legible.present legible)
    have isPart := Word.Legible.isNameChar legible c (characters ▸ List.mem_cons_self)
    exact ⟨c, rest, characters, (if_pos isPart).symm⟩
  | sign sign => cases sign <;> exact ⟨_, _, rfl, rfl⟩
  | member | cast | opening | closing | comma => exact ⟨_, _, rfl, rfl⟩

/-- Legible tokens that the same characters begin with are seen to be the same. -/
theorem Token.Legible.lead_eq (legible : token.Legible) (legibleToo : other.Legible)
    (same : token.characters ++ first = other.characters ++ second) : token.lead = other.lead := by
  obtain ⟨c, rest, characters, isLead⟩ := legible.leads
  obtain ⟨d, more, charactersToo, isLeadToo⟩ := legibleToo.leads
  rw [characters, charactersToo] at same
  rw [isLead, isLeadToo, (List.cons.inj same).1]

/-- The characters of a row of tokens. -/
def charactersOf (tokens : List (Token String String String)) : List Char :=
  tokens.flatMap Token.characters

/-- What is made of lists with a list between them is made of each of them. -/
theorem flatMap_intercalate {α β : Type} (separator : List α) (lists : List (List α))
    (each : α → List β) :
    (separator.intercalate lists).flatMap each =
      (separator.flatMap each).intercalate (lists.map (·.flatMap each)) := by
  induction lists with
  | nil => rfl
  | cons first rest ih =>
    cases rest with
    | nil => rw [List.intercalate_singleton, List.map_singleton, List.intercalate_singleton]
    | cons next more =>
      rw [List.intercalate_cons_cons, List.flatMap_append, List.flatMap_append, ih]
      exact List.intercalate_cons_cons.symm

/-- Characters of names that are followed by others are known. -/
theorem names_inj (each : ∀ c ∈ first, isNameChar c = true)
    (eachToo : ∀ c ∈ second, isNameChar c = true) (ends : ∀ c ∈ rest.head?, isNameChar c = false)
    (endsToo : ∀ c ∈ more.head?, isNameChar c = false) (same : first ++ rest = second ++ more) :
    first = second ∧ rest = more := by
  have begins {names after : List Char} (each : ∀ c ∈ names, isNameChar c = true)
      (ends : ∀ c ∈ after.head?, isNameChar c = false) :
      (names ++ after).takeWhile isNameChar = names := by
    rw [List.takeWhile_append_of_pos each]
    cases after with
    | nil => exact List.append_nil names
    | cons c after => rw [List.takeWhile_cons_of_neg (by simp [ends c rfl]), List.append_nil]
  have known : first = second := by
    rw [← begins each ends, same, begins eachToo endsToo]
  exact ⟨known, List.append_cancel_left (known ▸ same)⟩

/-- What does not have a character comes before the first place where it stands. -/
theorem before_first {c : Char} (absent : c ∉ first) (same : first ++ rest = second ++ c :: more) :
    ∃ later, second = first ++ later ∧ rest = later ++ c :: more := by
  obtain ⟨later, isSecond, isRest⟩ | ⟨later, isFirst, isMore⟩ := List.append_eq_append_iff.mp same
  · exact ⟨later, isSecond, isRest⟩
  · cases later with
    | nil => exact ⟨[], by simpa using isFirst.symm, isMore.symm⟩
    | cons d later =>
      obtain ⟨rfl, -⟩ := List.cons.inj isMore
      exact absurd (isFirst ▸ List.mem_append_right _ List.mem_cons_self) absent

/-- What is followed by a character that it does not have is known. -/
theorem upTo_inj {c : Char} (absent : c ∉ first) (absentToo : c ∉ second)
    (same : first ++ c :: rest = second ++ c :: more) : first = second ∧ rest = more := by
  obtain ⟨later, isSecond, isRest⟩ := before_first absent same
  cases later with
  | nil =>
    rw [isSecond, List.append_nil]
    exact ⟨rfl, (List.cons.inj isRest).2⟩
  | cons d later =>
    obtain ⟨rfl, -⟩ := List.cons.inj isRest
    exact absurd (isSecond ▸ List.mem_append_right _ List.mem_cons_self) absentToo

end Rows

section Reading

variable {token other : Token String String String}
  {tokens others rest more : List (Token String String String)}

/-- A row begins with what its first token is seen to be from. -/
theorem head_charactersOf (legible : ∀ token ∈ tokens, token.Legible) {c : Char}
    (isHead : (charactersOf tokens).head? = some c) :
    ∃ token, tokens.head? = some token ∧ token.lead = if isNameChar c then none else some c := by
  cases tokens with
  | nil => cases isHead
  | cons token rest =>
    obtain ⟨d, after, characters, isLead⟩ := (legible token List.mem_cons_self).leads
    rw [charactersOf, List.flatMap_cons, characters, List.cons_append, List.head?_cons] at isHead
    cases isHead
    exact ⟨token, rfl, isLead⟩

/-- A row that begins with no word begins with no character of names. -/
theorem ends_name (legible : ∀ token ∈ tokens, token.Legible)
    (noWord : (!tokens.head?.any (·.isWord)) = true) :
    ∀ c ∈ (charactersOf tokens).head?, isNameChar c = false := by
  intro c isHead
  obtain ⟨token, isFirst, isLead⟩ := head_charactersOf legible isHead
  have known : token.lead = none ↔ token.isWord = true := by
    cases token <;> simp [Token.isWord, Token.lead]
  refine Bool.eq_false_iff.mpr fun isPart => ?_
  rw [if_pos isPart] at isLead
  rw [isFirst, Option.any_some, known.mp isLead] at noWord
  cases noWord

/-- A row begins with a character of names or an opening parenthesis exactly if an operand can begin
with its first token. -/
theorem starts_iff (legible : ∀ token ∈ tokens, token.Legible) {c : Char}
    (isHead : (charactersOf tokens).head? = some c) :
    tokens.head?.any (·.starts) = true ↔ isNameChar c = true ∨ c = '(' := by
  obtain ⟨token, isFirst, isLead⟩ := head_charactersOf legible isHead
  have known : token.starts = true ↔ token.lead = none ∨ token.lead = some '(' := by
    cases token <;> simp [Token.starts, Token.lead]
  rw [isFirst, Option.any_some, known, isLead]
  split <;> simp [*]

/-- Where the first parenthesis of a row is a closing one, no operand comes after it. -/
theorem Separable.no_operand_after (separable : Separable tokens)
    (legible : ∀ token ∈ tokens, token.Legible) {before after : List Char}
    (noOpening : '(' ∉ before) (noClosing : ')' ∉ before)
    (same : charactersOf tokens = before ++ ')' :: after) :
    ∀ c ∈ after.head?, ¬(isNameChar c = true ∨ c = '(') := by
  -- A conversion has its closing parenthesis behind an opening one, so the first parenthesis of the
  -- row is a token of its own, and all tokens in front of it lie before it as a whole.
  induction tokens generalizing before with
  | nil => simp [charactersOf] at same
  | cons token rest ih =>
    obtain ⟨fits, restSeparable⟩ := separable
    obtain ⟨own, others⟩ := List.forall_mem_cons.mp legible
    rw [charactersOf, List.flatMap_cons] at same
    have further (absent : ')' ∉ token.characters) :
        ∀ c ∈ after.head?, ¬(isNameChar c = true ∨ c = '(') := by
      obtain ⟨later, isBefore, isRest⟩ := before_first absent same
      rw [isBefore, List.mem_append, not_or] at noOpening noClosing
      exact ih restSeparable others noOpening.2 noClosing.2 isRest
    have noFirst {c : Char} {more : List Char} (begins : token.characters = c :: more)
        (absent : c ∉ before) : before = [] ∧ c = ')' ∧ more ++ charactersOf rest = after := by
      rw [begins] at same
      cases before with
      | nil => exact ⟨rfl, List.cons.inj same⟩
      | cons d before => exact absurd ((List.cons.inj same).1 ▸ List.mem_cons_self) absent
    cases token with
    | word word =>
      exact further fun inside => absurd (Word.Legible.isNameChar own _ inside) (by decide)
    | member name =>
      obtain ⟨-, -, -, -, each⟩ := isIdentifier_iff.mp own
      refine further fun inside => ?_
      obtain isPoint | inName := List.mem_cons.mp inside
      · cases isPoint
      · exact absurd (each _ inName) (by decide)
    | sign sign => exact further (by cases sign <;> decide)
    | comma => exact further (by decide)
    | cast | opening => cases (noFirst rfl noOpening).2.1
    | closing =>
      obtain ⟨-, -, rfl⟩ := noFirst rfl noClosing
      intro c isHead begins
      rw [Token.fits, (starts_iff others isHead).mpr begins] at fits
      cases fits

/-- A row of legible tokens has characters. -/
theorem charactersOf_ne_nil (legible : token.Legible) (rest : List (Token String String String)) :
    charactersOf (token :: rest) ≠ [] := by
  obtain ⟨c, after, characters, -⟩ := legible.leads
  rw [charactersOf, List.flatMap_cons, characters]
  exact List.cons_ne_nil _ _

/-- A conversion is not read as an opening parenthesis. -/
theorem Separable.cast_ne_opening {target : String} (separable : Separable (.cast target :: rest))
    (legible : ∀ token ∈ Token.cast target :: rest, token.Legible)
    (separableToo : Separable (.opening :: more)) (legibleToo : ∀ token ∈ more, token.Legible) :
    charactersOf (.cast target :: rest) ≠ charactersOf (.opening :: more) := by
  intro same
  obtain ⟨isName, others⟩ := List.forall_mem_cons.mp legible
  have inside : charactersOf more = target.toList ++ ')' :: charactersOf rest := by
    simpa [charactersOf, Token.characters] using same.symm
  have noOperand := separableToo.2.no_operand_after legibleToo
    (IsTypeName.not_mem isName rfl) (IsTypeName.not_mem isName rfl) inside
  have starts : rest.head?.any (·.starts) = true := separable.1
  cases rest with
  | nil => cases starts
  | cons operand rest =>
    have present := charactersOf_ne_nil (others operand List.mem_cons_self) rest
    obtain ⟨c, isHead⟩ := Option.isSome_iff_exists.mp (List.isSome_head?.mpr present)
    exact noOperand c isHead ((starts_iff others isHead).mp starts)

/-- Rows of legible tokens with the same characters begin with the same token. -/
theorem Separable.head_eq (separable : Separable (token :: rest))
    (legible : ∀ known ∈ token :: rest, known.Legible) (separableToo : Separable (other :: more))
    (legibleToo : ∀ known ∈ other :: more, known.Legible)
    (same : charactersOf (token :: rest) = charactersOf (other :: more)) :
    token = other ∧ charactersOf rest = charactersOf more := by
  obtain ⟨fits, -⟩ := id separable
  obtain ⟨fitsToo, -⟩ := id separableToo
  obtain ⟨own, others⟩ := List.forall_mem_cons.mp legible
  obtain ⟨ownToo, othersToo⟩ := List.forall_mem_cons.mp legibleToo
  have together : token.characters ++ charactersOf rest =
      other.characters ++ charactersOf more := by
    simpa only [charactersOf, List.flatMap_cons] using same
  have isLead := own.lead_eq ownToo together
  cases token with
  | word word =>
    cases other with
    | word other =>
      obtain ⟨isWord, restSame⟩ := names_inj (Word.Legible.isNameChar own)
        (Word.Legible.isNameChar ownToo) (ends_name others fits) (ends_name othersToo fitsToo)
        together
      rw [Word.Legible.eq_of_characters own ownToo isWord]
      exact ⟨rfl, restSame⟩
    | _ => cases isLead
  | member name =>
    cases other with
    | member other =>
      obtain ⟨-, -, -, -, each⟩ := isIdentifier_iff.mp own
      obtain ⟨-, -, -, -, eachToo⟩ := isIdentifier_iff.mp ownToo
      obtain ⟨isName, restSame⟩ := names_inj each eachToo (ends_name others fits)
        (ends_name othersToo fitsToo) (List.cons.inj together).2
      rw [String.toList_inj.mp isName]
      exact ⟨rfl, restSame⟩
    | _ => cases isLead
  | sign sign =>
    cases other with
    | sign other =>
      cases sign <;> cases other <;> first
        | exact ⟨rfl, by simpa [Token.characters, Sign.characters] using together⟩
        | simp [Token.characters, Sign.characters] at together
    | _ => cases isLead
  | cast target =>
    cases other with
    | cast other =>
      have within : target.toList ++ ')' :: charactersOf rest =
          other.toList ++ ')' :: charactersOf more := by
        simpa [Token.characters] using together
      obtain ⟨isName, restSame⟩ := upTo_inj (IsTypeName.not_mem own rfl)
        (IsTypeName.not_mem ownToo rfl) within
      rw [String.toList_inj.mp isName]
      exact ⟨rfl, restSame⟩
    | opening => exact absurd same (separable.cast_ne_opening legible separableToo othersToo)
    | _ => cases isLead
  | opening =>
    cases other with
    | cast other =>
      exact absurd same.symm (separableToo.cast_ne_opening legibleToo separable others)
    | opening => exact ⟨rfl, (List.cons.inj together).2⟩
    | _ => cases isLead
  | closing =>
    cases other with
    | closing => exact ⟨rfl, (List.cons.inj together).2⟩
    | _ => cases isLead
  | comma =>
    cases other with
    | comma => exact ⟨rfl, by simpa [Token.characters] using together⟩
    | _ => cases isLead

/-- Rows of legible tokens with the same characters are the same. -/
theorem Separable.eq_of_characters (separable : Separable tokens)
    (legible : ∀ token ∈ tokens, token.Legible) (separableToo : Separable others)
    (legibleToo : ∀ token ∈ others, token.Legible)
    (same : charactersOf tokens = charactersOf others) : tokens = others := by
  induction tokens generalizing others with
  | nil =>
    cases others with
    | nil => rfl
    | cons other more =>
      exact absurd same.symm (charactersOf_ne_nil (legibleToo other List.mem_cons_self) more)
  | cons token rest ih =>
    cases others with
    | nil => exact absurd same (charactersOf_ne_nil (legible token List.mem_cons_self) rest)
    | cons other more =>
      obtain ⟨rfl, restSame⟩ := separable.head_eq legible separableToo legibleToo same
      rw [ih separable.2 (List.forall_mem_cons.mp legible).2 separableToo.2
        (List.forall_mem_cons.mp legibleToo).2 restSame]

end Reading

end Foreach.Source
