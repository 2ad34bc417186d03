import Foreach.Proofs.Text.Words
import Foreach.Proofs.Work
import Foreach.Types.TypeName

/-!
# How names of types are spelled

The name of a type in source text is made of names of types that are identifiers, with points
between those of a nested type, and with angles and commas around arguments. So it begins with a
character of names that is no digit, it does not end with a blank, and there is no parenthesis, no
brace and no line end in it.
-/
namespace Foreach.Text

/-- Whether a character can be part of the name of a type. -/
def isTypeChar (c : Char) : Bool :=
  isNameChar c || c = '.' || c = '<' || c = '>' || c = ',' || c = ' '

/-- A text is spelled like the name of a type. -/
structure IsTypeName (name : String) : Prop where
  /-- It is made of what names of types are made of. -/
  characters : ∀ c ∈ name.toList, isTypeChar c = true
  /-- It begins as an identifier. -/
  starts : ∃ first, name.toList.head? = some first ∧ isNameChar first = true ∧
    first.isDigit = false
  /-- It does not end with a blank. -/
  ends : ∃ last, name.toList.getLast? = some last ∧ isBlank last = false

/-- Characters of names of types are plain. -/
theorem isPlain_of_isTypeChar {c : Char} (isPart : isTypeChar c = true) : isPlain c = true := by
  simp only [isTypeChar, Bool.or_eq_true, decide_eq_true_eq] at isPart
  obtain ((((isPart | rfl) | rfl) | rfl) | rfl) | rfl := isPart
  · exact isPlain_of_isNameChar isPart
  all_goals rfl

/-- What names of types are not made of is not in one. -/
theorem IsTypeName.not_mem {name : String} (isName : IsTypeName name) {c : Char}
    (isNone : isTypeChar c = false) : c ∉ name.toList :=
  fun inside => Bool.false_ne_true (isNone.symm.trans (isName.characters c inside))

/-- The name of a type can be a line. -/
theorem IsTypeName.solid {name : String} (isName : IsTypeName name) : Solid name := by
  obtain ⟨first, isFirst, isPart, -⟩ := isName.starts
  obtain ⟨last, isLast, solid⟩ := isName.ends
  have plain : name.toList.all isPlain = true :=
    List.all_eq_true.mpr fun c isListed => isPlain_of_isTypeChar (isName.characters c isListed)
  exact solid_of_plain plain isFirst (isBlank_of_isNameChar isPart) isLast solid

/-- An identifier is spelled like the name of a type. -/
theorem isTypeName_of_isIdentifier {name : String} (isName : isIdentifier name = true) :
    IsTypeName name := by
  obtain ⟨first, rest, characters, noDigit, each⟩ := isIdentifier_iff.mp isName
  refine ⟨fun c isListed => by simp [isTypeChar, each c isListed], ⟨first, ?_, ?_, noDigit⟩,
    (solid_of_isIdentifier isName).closes.ends⟩
  · rw [characters]
    rfl
  · exact each first (characters ▸ List.mem_cons_self)

/-- A name of a type stays one with more of its characters behind it, of which the last is not
blank. -/
theorem IsTypeName.append {name more : String} (isName : IsTypeName name)
    (characters : ∀ c ∈ more.toList, isTypeChar c = true)
    (ends : ∃ last, more.toList.getLast? = some last ∧ isBlank last = false) :
    IsTypeName (name ++ more) := by
  obtain ⟨first, isFirst, begins⟩ := isName.starts
  obtain ⟨last, isLast, solid⟩ := ends
  refine ⟨fun c isListed => ?_, ⟨first, ?_, begins⟩, last, ?_, solid⟩
  · rw [String.toList_append, List.mem_append] at isListed
    exact isListed.elim (isName.characters c) (characters c)
  · rw [String.toList_append, List.head?_append, isFirst]
    rfl
  · rw [String.toList_append, List.getLast?_append, isLast]
    rfl

/-- What is between separators is made of the characters of both. -/
theorem mem_intercalate {separator : String} {texts : List String} {c : Char}
    (isListed : c ∈ (separator.intercalate texts).toList) :
    c ∈ separator.toList ∨ ∃ text ∈ texts, c ∈ text.toList := by
  induction texts with
  | nil => cases isListed
  | cons text rest ih =>
    cases rest with
    | nil =>
      rw [String.intercalate_singleton] at isListed
      exact .inr ⟨text, List.mem_cons_self, isListed⟩
    | cons next more =>
      rw [String.intercalate_cons_cons, String.toList_append, String.toList_append,
        List.mem_append, List.mem_append] at isListed
      obtain (inText | isSeparator) | isLater := isListed
      · exact .inr ⟨text, List.mem_cons_self, inText⟩
      · exact .inl isSeparator
      · exact (ih isLater).imp_right fun ⟨later, isText, inLater⟩ =>
          ⟨later, List.mem_cons_of_mem _ isText, inLater⟩

end Foreach.Text

namespace Foreach.Registry

open Text

/-- The names that the name of a type is made of are identifiers. -/
inductive Spelt (registry : Registry) : TypeId → Prop where
  /-- The type is written as a keyword. -/
  | keyword {type : TypeId} {word : String} (isKeyword : keyword? type = some word) :
    Spelt registry type
  /-- The type's own name is one, and so are those in the names of the type around it and of its
  parameters or arguments. -/
  | named {type : TypeId} {entry : TypeEntry} (known : registry.type? type = some entry)
    (isName : isIdentifier entry.name = true) (outer : ∀ outer ∈ entry.outer, Spelt registry outer)
    (inner : ∀ other ∈ (if entry.flags.genericDefinition then entry.parameters
      else entry.arguments), Spelt registry other) :
    Spelt registry type

/-- Keywords are identifiers. -/
theorem isIdentifier_of_keyword? {type : TypeId} {word : String}
    (isKeyword : keyword? type = some word) : isIdentifier word = true := by
  unfold keyword? at isKeyword
  repeat' split at isKeyword
  all_goals cases isKeyword
  all_goals decide

/-- A name of a type stays one with names of types in angles behind it. -/
theorem IsTypeName.enclose {name : String} {listed : List String} (isName : IsTypeName name)
    (each : ∀ other ∈ listed, IsTypeName other) :
    IsTypeName (name ++ enclosed "<" ", " ">" listed) := by
  unfold enclosed
  cases listed with
  | nil => simpa using isName
  | cons other rest =>
    rw [List.isEmpty_cons, if_neg Bool.false_ne_true]
    refine isName.append (fun c isListed => ?_) ⟨'>', ?_, rfl⟩
    · rw [String.toList_append, String.toList_append, List.mem_append, List.mem_append] at isListed
      obtain (isAngle | inside) | isAngle := isListed
      · cases List.mem_singleton.mp isAngle
        rfl
      · obtain isSeparator | ⟨text, isText, inText⟩ := mem_intercalate inside
        · obtain rfl | rfl : c = ',' ∨ c = ' ' := by simpa using isSeparator
          all_goals rfl
        · exact (each text isText).characters c inText
      · cases List.mem_singleton.mp isAngle
        rfl
    · rw [String.toList_append, List.getLast?_append]
      rfl

/-- The name of a type that is made of identifiers is spelled like the name of a type. -/
theorem Spelt.isTypeName {registry : Registry} {type : TypeId} {depth : Nat} {name : String}
    (spelt : registry.Spelt type) (named : registry.displayNameWithin depth type = .ok name) :
    IsTypeName name := by
  induction depth generalizing type name with
  | zero => cases named
  | succ depth ih =>
    rw [displayNameWithin] at named
    cases isKeyword : keyword? type with
    | some word =>
      rw [isKeyword] at named
      cases named
      exact isTypeName_of_isIdentifier (isIdentifier_of_keyword? isKeyword)
    | none =>
      rw [isKeyword] at named
      obtain ⟨entry, found, named⟩ := Work.checked_bind_eq_ok.mp named
      obtain ⟨around, outerNamed, named⟩ := Work.checked_bind_eq_ok.mp named
      obtain ⟨listed, innerNamed, named⟩ := Work.checked_bind_eq_ok.mp named
      obtain rfl := Except.ok.inj named
      cases spelt with
      | keyword isWord => cases isKeyword.symm.trans isWord
      | named known isName outer inner =>
        cases found.symm.trans (Checked.ofOption_eq_ok.mpr known)
        have own := isTypeName_of_isIdentifier isName
        have each : ∀ other ∈ listed, IsTypeName other := by
          intro other isListed
          obtain ⟨part, isPart, partNamed⟩ := Work.exists_of_mem_mapM innerNamed isListed
          exact ih (inner part isPart) partNamed
        refine IsTypeName.enclose ?_ each
        cases isOuter : entry.outer with
        | none =>
          rw [isOuter] at outerNamed
          cases outerNamed
          simpa using own
        | some outerType =>
          rw [isOuter, Option.mapM_some] at outerNamed
          obtain ⟨outerName, isOuterName, same⟩ := Work.checked_bind_eq_ok.mp outerNamed
          cases same
          have point : ∀ c ∈ ".".toList, isTypeChar c = true := by
            intro c isPoint
            cases List.mem_singleton.mp isPoint
            rfl
          have before : IsTypeName (outerName ++ ".") :=
            (ih (outer outerType isOuter) isOuterName).append point ⟨'.', rfl, rfl⟩
          exact before.append own.characters own.ends

end Foreach.Registry
