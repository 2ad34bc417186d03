import Mathlib.Logic.Relation
import Foreach.Vocabulary

/-!
# Names stand for texts

A name table holds one relation in two copies, and no call lets them differ (`Consistent`). So a
text has at most one number, and a number at most one text. What a table has given a number keeps it
(`Step.keeps`), whatever is asked later, and the numbers are used in order.

`Bijection` says of a table what these two facts come to for its users, now and after any further
calls, and `Steps.bijection` that it holds of every table that calls lead to.
-/
namespace Foreach.NameTable

/-- One call of a table that returns. -/
inductive Step : NameTable → NameTable → Prop where
  /-- A text was given its number. -/
  | intern {before after : NameTable} {text : String} {name : Name}
    (given : before.intern text = .ok (after, name)) : Step before after
  /-- A text was given its number, or refused because the table is full. -/
  | tryIntern {before after : NameTable} {text : String} {result : Except NameError Name}
    (ended : before.tryIntern text = (after, result)) : Step before after
  /-- The text of a number was read. -/
  | lookup {table : NameTable} {name : Name} {text : String}
    (found : table.lookup name = .ok text) : Step table table

/-- Calls one after the other. -/
abbrev Steps : NameTable → NameTable → Prop := Relation.ReflTransGen Step

/-- What the numbers of a table are to its texts, now and after further calls. -/
structure Bijection (table : NameTable) : Prop where
  /-- The numbers in use are those below the size. -/
  inUse : ∀ name : Name, (∃ text, table.lookup name = .ok text) ↔ name.slot < table.size
  /-- No more texts are held than there are numbers. -/
  bounded : table.size ≤ Name.last + 1
  /-- The first number is that of the empty text. -/
  empty : table.lookup .empty = .ok ""
  /-- A text that has a number is given this one, and the table stays. -/
  known : ∀ {name text}, table.lookup name = .ok text →
    table.tryIntern text = (table, .ok name) ∧ table.intern text = .ok (table, name)
  /-- A new text is given the next number, and the table is larger by one, unless it is full. -/
  new : ∀ text, (∀ name, table.lookup name ≠ .ok text) → table.size ≤ Name.last →
    ∃ after, table.tryIntern text = (after, .ok table.next) ∧
      table.intern text = .ok (after, table.next) ∧ after.size = table.size + 1
  /-- A table that is full refuses a new text and stays. -/
  full : ∀ text, (∀ name, table.lookup name ≠ .ok text) → Name.last < table.size →
    table.tryIntern text = (table, .error (.tableFull table.size)) ∧
      table.intern text = .error .violation
  /-- Numbers keep their texts. -/
  lasting : ∀ {later name text}, Steps table later → table.lookup name = .ok text →
    later.lookup name = .ok text
  /-- A text is read back from its number at any time, and another text that is interned by then is
  given the same number exactly if it is the same. -/
  faithful : ∀ {first second after later last name other}, table.intern first = .ok (after, name) →
    Steps after later → later.intern second = .ok (last, other) →
      later.lookup name = .ok first ∧ (name = other ↔ first = second)

/-- What calls keep of a table. -/
structure Consistent (table : NameTable) : Prop where
  /-- The two copies agree: a text has a number exactly if it stands there. -/
  agree : ∀ text name, table.slot? text = some name ↔ table.texts[name.slot]? = some text
  /-- There is a number for every text. -/
  bounded : table.size ≤ Name.last + 1

section Calls

variable {table before after : NameTable} {text other : String} {name : Name}

/-- A text that is added has the next number, and the others have what they had. -/
theorem slot?_add : (table.add text).slot? other =
    if other = text then some table.next else table.slot? other := by
  rw [slot?, add, List.lookup_cons]
  by_cases same : other = text
  · rw [if_pos same, same, beq_self_eq_true]
  · rw [if_neg same, beq_false_of_ne same]
    rfl

/-- A text that is added stands behind the others. -/
theorem texts_add (slot : Nat) : (table.add text).texts[slot]? =
    if slot = table.size then some text else table.texts[slot]? :=
  Array.getElem?_push

/-- A table with one more text is larger by one. -/
theorem size_add : (table.add text).size = table.size + 1 := Array.size_push ..

/-- Texts stand below the size. -/
theorem lt_size {slot : Nat} (there : table.texts[slot]? = some text) : slot < table.size :=
  (Array.getElem?_eq_some_iff.1 there).1

/-- A text is read exactly if it stands at the number. -/
theorem lookup_eq_ok : table.lookup name = .ok text ↔ table.texts[name.slot]? = some text :=
  Checked.ofOption_eq_ok

/-- The second look for a text finds what the first found. -/
theorem tryIntern_eq_insert : table.tryIntern text = table.insert text := by
  rw [tryIntern, insert]
  cases table.slot? text <;> rfl

/-- A text that is given a number by one way of asking is given it by the other. -/
theorem intern_eq_ok :
    table.intern text = .ok (after, name) ↔ table.tryIntern text = (after, .ok name) := by
  rw [intern]
  obtain ⟨changed, given | refused⟩ := table.tryIntern text <;> simp

/-- A text with a number is given it. -/
theorem tryIntern_known (known : table.slot? text = some name) :
    table.tryIntern text = (table, .ok name) := by
  rw [tryIntern, known]

/-- A text without a number is given the next one. -/
theorem tryIntern_new (new : table.slot? text = none) (room : table.size ≤ Name.last) :
    table.tryIntern text = (table.add text, .ok table.next) := by
  rw [tryIntern_eq_insert, insert, new]
  exact if_pos room

/-- A text without a number is refused when none is left. -/
theorem tryIntern_full (new : table.slot? text = none) (full : Name.last < table.size) :
    table.tryIntern text = (table, .error (.tableFull table.size)) := by
  rw [tryIntern_eq_insert, insert, new]
  exact if_neg (Nat.not_le.2 full)

/-- A call leaves the table as it is, or it adds a text that had no number, with room for it. -/
theorem tryIntern_cases {result : Except NameError Name}
    (ended : before.tryIntern text = (after, result)) :
    after = before ∨
      before.slot? text = none ∧ before.size ≤ Name.last ∧ after = before.add text := by
  cases found : before.slot? text with
  | some name =>
    rw [tryIntern_known found] at ended
    exact .inl (Prod.mk.inj ended).1.symm
  | none =>
    obtain full | room := Nat.lt_or_ge Name.last before.size
    · rw [tryIntern_full found full] at ended
      exact .inl (Prod.mk.inj ended).1.symm
    · rw [tryIntern_new found room] at ended
      exact .inr ⟨rfl, room, (Prod.mk.inj ended).1.symm⟩

/-- A call leaves the table as it is, or it adds a text that had no number, with room for it. -/
theorem Step.cases (step : Step before after) :
    after = before ∨
      ∃ text, before.slot? text = none ∧ before.size ≤ Name.last ∧ after = before.add text := by
  cases step with
  | intern given => exact (tryIntern_cases (intern_eq_ok.1 given)).imp_right fun added => ⟨_, added⟩
  | tryIntern ended => exact (tryIntern_cases ended).imp_right fun added => ⟨_, added⟩
  | lookup found => exact .inl rfl

/-- What stands at a number stays there. -/
theorem Step.keeps {slot : Nat} (step : Step before after)
    (there : before.texts[slot]? = some text) : after.texts[slot]? = some text := by
  obtain rfl | ⟨added, -, -, rfl⟩ := step.cases
  · exact there
  · rw [texts_add, if_neg (Nat.ne_of_lt (lt_size there)), there]

/-- What stands at a number stays there, whatever is asked. -/
theorem Steps.keeps {slot : Nat} (steps : Steps before after)
    (there : before.texts[slot]? = some text) : after.texts[slot]? = some text := by
  induction steps with
  | refl => exact there
  | tail _ step kept => exact step.keeps kept

/-- Inserting several texts is a sequence of calls. -/
theorem Steps.insert_all (table : NameTable) (texts : List String) :
    Steps table (texts.foldl (fun table text => (table.insert text).1) table) := by
  induction texts generalizing table with
  | nil => exact .refl
  | cons text rest ih =>
    have step : Step table (table.insert text).1 := .tryIntern tryIntern_eq_insert
    exact .head step (ih _)

/-- Giving numbers to several texts is a sequence of calls. -/
theorem Steps.intern_all {texts : List String} (given : before.internAll texts = .ok after) :
    Steps before after := by
  induction texts generalizing before with
  | nil =>
    cases given
    exact .refl
  | cons text rest ih =>
    rw [internAll, List.foldlM_cons] at given
    cases first : before.intern text with
    | error stop =>
      rw [first] at given
      cases given
    | ok result =>
      rw [first] at given
      exact .head (.intern first) (ih given)

/-- The vocabulary of a registry and an arena is a table that calls lead to. -/
theorem Steps.vocabulary {registry : Registry} {arena : Arena} {asked : List String}
    (given : Foreach.vocabulary registry arena asked = .ok table) : Steps initial table :=
  .intern_all given

end Calls

section Consistency

variable {table before after : NameTable} {text other : String} {name : Name}

/-- A table without texts is consistent. -/
theorem Consistent.blank : Consistent blank where
  agree text name := by simp [NameTable.blank, slot?]
  bounded := Nat.zero_le _

/-- A text has a number exactly if it can be read. -/
theorem Consistent.slot?_eq_none (consistent : Consistent table) :
    table.slot? text = none ↔ ∀ name, table.lookup name ≠ .ok text := by
  simp only [ne_eq, lookup_eq_ok, ← consistent.agree text, Option.eq_none_iff_forall_ne_some]

/-- A new text enters both copies. -/
theorem Consistent.add (consistent : Consistent table) (new : table.slot? text = none)
    (room : table.size ≤ Name.last) : Consistent (table.add text) where
  agree other name := by
    rw [slot?_add, texts_add]
    -- No text stands at the next number, and the new one stands nowhere.
    have beyond : name.slot = table.size → table.slot? other ≠ some name := by
      intro next found
      have there := (consistent.agree other name).1 found
      exact Nat.ne_of_lt (lt_size there) next
    have absent : table.texts[name.slot]? ≠ some text := by
      intro there
      rw [(consistent.agree text name).2 there] at new
      cases new
    have last : table.next = name ↔ name.slot = table.size := by
      rw [next, Name.mk.injEq]
      exact eq_comm
    split <;> split <;> grind [consistent.agree other name]
  bounded := by
    rw [size_add]
    exact Nat.succ_le_succ room

/-- No call lets the copies differ. -/
theorem Step.consistent (step : Step before after) (consistent : Consistent before) :
    Consistent after := by
  obtain rfl | ⟨text, new, room, rfl⟩ := step.cases
  · exact consistent
  · exact consistent.add new room

/-- No sequence of calls lets the copies differ. -/
theorem Steps.consistent (steps : Steps before after) (consistent : Consistent before) :
    Consistent after := by
  induction steps with
  | refl => exact consistent
  | tail _ step kept => exact step.consistent kept

/-- The first table is consistent. -/
theorem Consistent.initial : Consistent initial :=
  (Steps.insert_all NameTable.blank ("" :: words)).consistent .blank

/-- The empty text has the first number from the start. -/
theorem initial_empty : initial.texts[Name.empty.slot]? = some "" := by
  have first : (blank.insert "").1.texts[Name.empty.slot]? = some "" := by
    rw [← tryIntern_eq_insert, tryIntern_new rfl (Nat.zero_le _)]
    rfl
  rw [initial, List.foldl_cons]
  exact (Steps.insert_all (blank.insert "").1 words).keeps first

end Consistency

section Users

variable {table after : NameTable} {text other : String} {name : Name}

/-- A text that was given a number is read from it. -/
theorem Consistent.lookup_intern (consistent : Consistent table)
    (given : table.intern text = .ok (after, name)) : after.texts[name.slot]? = some text := by
  rw [intern_eq_ok] at given
  cases found : table.slot? text with
  | some known =>
    rw [tryIntern_known found] at given
    cases given
    exact (consistent.agree text name).1 found
  | none =>
    obtain full | room := Nat.lt_or_ge Name.last table.size
    · rw [tryIntern_full found full] at given
      cases given
    · rw [tryIntern_new found room] at given
      cases given
      rw [texts_add]
      exact if_pos rfl

/-- Two texts that stand at their numbers are the same exactly if these are. -/
theorem Consistent.same_iff {name' : Name} (consistent : Consistent table)
    (first : table.texts[name.slot]? = some text) (second : table.texts[name'.slot]? = some other) :
    name = name' ↔ text = other := by
  constructor
  · rintro rfl
    rw [first] at second
    exact Option.some.inj second
  · rintro rfl
    have found := (consistent.agree text name).2 first
    rw [(consistent.agree text name').2 second] at found
    exact (Option.some.inj found).symm

/-- A table whose copies agree serves its users, if the empty text is its first. -/
theorem Bijection.of_consistent (consistent : Consistent table)
    (empty : table.texts[Name.empty.slot]? = some "") : Bijection table where
  inUse name := by
    constructor
    · rintro ⟨text, found⟩
      exact lt_size (lookup_eq_ok.1 found)
    · intro below
      exact ⟨_, lookup_eq_ok.2 (Array.getElem?_eq_getElem below)⟩
  bounded := consistent.bounded
  empty := lookup_eq_ok.2 empty
  known {name text} found := by
    have given := tryIntern_known ((consistent.agree text name).2 (lookup_eq_ok.1 found))
    exact ⟨given, intern_eq_ok.2 given⟩
  new text fresh room := by
    have given := tryIntern_new (consistent.slot?_eq_none.2 fresh) room
    exact ⟨table.add text, given, intern_eq_ok.2 given, size_add⟩
  full text fresh full := by
    have refused := tryIntern_full (consistent.slot?_eq_none.2 fresh) full
    exact ⟨refused, by rw [intern, refused]⟩
  lasting steps found := lookup_eq_ok.2 (steps.keeps (lookup_eq_ok.1 found))
  faithful := by
    intro first second after later last name other given steps asked
    have there := steps.keeps (consistent.lookup_intern given)
    have before : Consistent later := steps.consistent ((Step.intern given).consistent consistent)
    have next : Step later last := .intern asked
    refine ⟨lookup_eq_ok.2 there, ?_⟩
    exact (next.consistent before).same_iff (next.keeps there) (before.lookup_intern asked)

end Users

/-- Numbers and texts correspond, whatever calls led to a table: each text that was asked for has
one number, the numbers in use are those below the size, the empty text has the first, and what was
given once stays. -/
theorem Steps.bijection {table : NameTable} (steps : Steps initial table) : Bijection table :=
  .of_consistent (steps.consistent .initial) (steps.keeps initial_empty)

/-- With two more names the table has eighteen, and both are read back. -/
theorem numbers_and_cursor_bijection : ∃ table, Steps initial table ∧ table.size = 18 ∧
    table.lookup ⟨16⟩ = .ok "Numbers" ∧ table.lookup ⟨17⟩ = .ok "Cursor" ∧ Bijection table := by
  have first : Step initial (initial.add "Numbers") :=
    .tryIntern (tryIntern_new (by decide +kernel) (by decide +kernel))
  have second : Step (initial.add "Numbers") ((initial.add "Numbers").add "Cursor") :=
    .tryIntern (tryIntern_new (by decide +kernel) (by decide +kernel))
  have steps : Steps initial _ := .tail (.single first) second
  exact ⟨_, steps, by decide +kernel, lookup_eq_ok.2 (by decide +kernel),
    lookup_eq_ok.2 (by decide +kernel), steps.bijection⟩

end Foreach.NameTable
