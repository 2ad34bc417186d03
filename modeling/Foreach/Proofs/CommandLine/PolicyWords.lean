import Foreach.CommandLine.Options
import Foreach.Proofs.Text.Items

/-!
# Reading in order

A list is read item by item, and reading ends at the first item that cannot be read. If a fault does
not depend on what was read before, reading fails with the first fault (`Earliest`). If every item
sets a value or keeps it, reading leaves what the last item says about it (`Latest`).

The words of a policy are read in this way: the first unknown word is the error, and for each
decision the last word about it counts.
-/
namespace Foreach

/-- The first faulty item has this fault. -/
def Earliest {ι ε : Type} (faulty : ι → ε → Prop) (items : List ι) (fault : ε) : Prop :=
  ∃ earlier item later, items = earlier ++ item :: later ∧ faulty item fault ∧
    ∀ other ∈ earlier, ∀ fault, ¬ faulty other fault

/-- The last item that gives a value gives this one, or no item gives any and it is the default. -/
def Latest {ι α : Type} (gives : ι → α → Prop) (default : α) (items : List ι) (value : α) : Prop :=
  (∃ earlier item later, items = earlier ++ item :: later ∧ gives item value ∧
    ∀ other ∈ later, ∀ value, ¬ gives other value) ∨
  (∀ item ∈ items, ∀ value, ¬ gives item value) ∧ value = default

section ReadingInOrder

variable {ι ε α σ : Type} {faulty : ι → ε → Prop} {gives : ι → α → Prop} {item : ι}
  {items : List ι} {fault : ε} {default value other : α} {step : σ → ι → Except ε σ}
  {state next : σ}

/-- Without items there is no fault. -/
theorem not_earliest_nil : ¬ Earliest faulty [] fault := by
  rintro ⟨earlier, item, later, split, -⟩
  exact List.append_ne_nil_of_right_ne_nil earlier (List.cons_ne_nil item later) split.symm

/-- The first fault is that of the first item, or the first one of the others. -/
theorem earliest_cons :
    Earliest faulty (item :: items) fault ↔
      faulty item fault ∨ (∀ fault, ¬ faulty item fault) ∧ Earliest faulty items fault := by
  constructor
  · rintro ⟨earlier, found, later, split, isFaulty, fine⟩
    cases earlier with
    | nil =>
      cases split
      exact .inl isFaulty
    | cons first earlier =>
      cases split
      obtain ⟨fineFirst, fine⟩ := List.forall_mem_cons.mp fine
      exact .inr ⟨fineFirst, earlier, found, later, rfl, isFaulty, fine⟩
  · rintro (isFaulty | ⟨fineFirst, earlier, found, later, rfl, isFaulty, fine⟩)
    · exact ⟨[], item, items, rfl, isFaulty, nofun⟩
    · exact ⟨item :: earlier, found, later, rfl, isFaulty,
        List.forall_mem_cons.mpr ⟨fineFirst, fine⟩⟩

/-- There is a first fault if and only if an item is faulty. -/
theorem exists_earliest_iff :
    (∃ fault, Earliest faulty items fault) ↔ ∃ item ∈ items, ∃ fault, faulty item fault := by
  induction items with
  | nil => exact iff_of_false (fun ⟨_, earliest⟩ => not_earliest_nil earliest) nofun
  | cons item items ih =>
    rw [List.exists_mem_cons_iff, ← ih]
    by_cases isFaulty : ∃ fault, faulty item fault
    · exact iff_of_true (isFaulty.imp fun _ isFault => earliest_cons.mpr (.inl isFault))
        (.inl isFaulty)
    · have fine : ∀ fault, ¬ faulty item fault := not_exists.mp isFaulty
      rw [or_iff_right isFaulty]
      exact exists_congr fun fault => earliest_cons.trans
        ⟨fun found => (found.resolve_left (fine fault)).2, fun found => .inr ⟨fine, found⟩⟩

/-- Without items a value is the default. -/
theorem latest_nil : Latest gives default [] value ↔ value = default := by
  constructor
  · rintro (⟨earlier, item, later, split, -⟩ | ⟨-, same⟩)
    · exact absurd split.symm
        (List.append_ne_nil_of_right_ne_nil earlier (List.cons_ne_nil item later))
    · exact same
  · exact fun same => .inr ⟨nofun, same⟩

/-- What the first item gives is the default for the others. -/
theorem latest_cons :
    Latest gives default (item :: items) value ↔
      (∃ given, gives item given ∧ Latest gives given items value) ∨
        (∀ given, ¬ gives item given) ∧ Latest gives default items value := by
  constructor
  · rintro (⟨earlier, last, later, split, isGiven, none⟩ | ⟨none, rfl⟩)
    · cases earlier with
      | nil =>
        cases split
        exact .inl ⟨value, isGiven, .inr ⟨none, rfl⟩⟩
      | cons first earlier =>
        cases split
        have rest : ∀ default, Latest gives default (earlier ++ last :: later) value := fun _ =>
          .inl ⟨earlier, last, later, rfl, isGiven, none⟩
        by_cases some : ∃ given, gives item given
        · exact .inl (some.imp fun given isGiven => ⟨isGiven, rest given⟩)
        · exact .inr ⟨not_exists.mp some, rest default⟩
    · obtain ⟨noneFirst, none⟩ := List.forall_mem_cons.mp none
      exact .inr ⟨noneFirst, .inr ⟨none, rfl⟩⟩
  · have after : ∀ default, Latest gives default items value →
        Latest gives default (item :: items) value ∨
          (∀ other ∈ items, ∀ value, ¬ gives other value) ∧ value = default := by
      rintro default (⟨earlier, last, later, rfl, isGiven, none⟩ | none)
      · exact .inl (.inl ⟨item :: earlier, last, later, rfl, isGiven, none⟩)
      · exact .inr none
    rintro (⟨given, isGiven, rest⟩ | ⟨noneFirst, rest⟩)
    · obtain (⟨earlier, last, later, split, found⟩ | ⟨none, -⟩) | ⟨none, rfl⟩ := after given rest
      · exact .inl ⟨earlier, last, later, split, found⟩
      · exact absurd isGiven (none item List.mem_cons_self given)
      · exact .inl ⟨[], item, items, rfl, isGiven, none⟩
    · obtain found | ⟨none, same⟩ := after default rest
      · exact found
      · exact .inr ⟨List.forall_mem_cons.mpr ⟨noneFirst, none⟩, same⟩

/-- There is one latest value at most if an item gives one value at most. -/
theorem Latest.unique (single : ∀ item first second, gives item first → gives item second →
    first = second) (latest : Latest gives default items value)
    (latestToo : Latest gives default items other) : value = other := by
  induction items generalizing default with
  | nil => exact (latest_nil.mp latest).trans (latest_nil.mp latestToo).symm
  | cons item items ih =>
    obtain ⟨given, isGiven, latest⟩ | ⟨none, latest⟩ := latest_cons.mp latest
    · obtain ⟨givenToo, isGivenToo, latestToo⟩ | ⟨none, -⟩ := latest_cons.mp latestToo
      · rw [single item givenToo given isGivenToo isGiven] at latestToo
        exact ih latest latestToo
      · exact absurd isGiven (none given)
    · obtain ⟨given, isGiven, -⟩ | ⟨-, latestToo⟩ := latest_cons.mp latestToo
      · exact absurd isGiven (none given)
      · exact ih latest latestToo

/-- Reading in order fails with the first fault if a fault does not depend on what was read. -/
theorem foldlM_eq_error_iff
    (fails : ∀ state item fault, step state item = .error fault ↔ faulty item fault) :
    items.foldlM step state = .error fault ↔ Earliest faulty items fault := by
  induction items generalizing state with
  | nil => exact iff_of_false nofun not_earliest_nil
  | cons item items ih =>
    rw [List.foldlM_cons, earliest_cons, ← fails state]
    cases read : step state item with
    | error found =>
      have isFaulty : faulty item found := (fails state item found).mp read
      exact ⟨.inl, fun other => other.resolve_right fun fine => fine.1 found isFaulty⟩
    | ok next =>
      have fine : ∀ fault, ¬ faulty item fault := fun fault isFaulty =>
        nomatch read.symm.trans ((fails state item fault).mpr isFaulty)
      exact ih.trans ⟨fun found => .inr ⟨fine, found⟩, fun found => (found.resolve_left nofun).2⟩

/-- Reading in order succeeds if and only if no item is faulty. -/
theorem exists_foldlM_iff
    (fails : ∀ state item fault, step state item = .error fault ↔ faulty item fault) :
    (∃ next, items.foldlM step state = .ok next) ↔
      ∀ item ∈ items, ∀ fault, ¬ faulty item fault := by
  have refused : (∃ item ∈ items, ∃ fault, faulty item fault) ↔
      ∃ fault, items.foldlM step state = .error fault :=
    exists_earliest_iff.symm.trans (exists_congr fun _ => (foldlM_eq_error_iff fails).symm)
  cases read : items.foldlM step state with
  | error fault =>
    obtain ⟨item, isListed, found, isFaulty⟩ := refused.mpr ⟨fault, read⟩
    exact iff_of_false nofun fun fine => fine item isListed found isFaulty
  | ok next =>
    refine iff_of_true ⟨next, rfl⟩ fun item isListed fault isFaulty => ?_
    obtain ⟨found, failed⟩ := refused.mp ⟨item, isListed, fault, isFaulty⟩
    exact nomatch read.symm.trans failed

/-- Reading in order leaves the latest value if every step sets or keeps it. -/
theorem latest_of_foldlM (view : σ → α)
    (sets : ∀ state item next, step state item = .ok next →
      gives item (view next) ∨ (∀ value, ¬ gives item value) ∧ view next = view state)
    (read : items.foldlM step state = .ok next) :
    Latest gives (view state) items (view next) := by
  induction items generalizing state with
  | nil =>
    cases read
    exact latest_nil.mpr rfl
  | cons item items ih =>
    rw [List.foldlM_cons] at read
    cases first : step state item with
    | error found =>
      rw [first] at read
      cases read
    | ok between =>
      rw [first] at read
      have latest : Latest gives (view between) items (view next) := ih read
      obtain isGiven | ⟨none, same⟩ := sets state item between first
      · exact latest_cons.mpr (.inl ⟨view between, isGiven, latest⟩)
      · exact latest_cons.mpr (.inr ⟨none, same ▸ latest⟩)

end ReadingInOrder

namespace Policy

/-- The words of a list stand between commas, without blanks around them; blanks alone are no
word. -/
def Lists (list : String) (words : List String) : Prop :=
  ∃ parts cores, Text.Separates ',' list.toList parts ∧ List.Forall₂ Text.Trims parts cores ∧
    words = (cores.filter (· ≠ [])).map String.ofList

/-- A word says something about a decision. -/
def Known (word : String) : Prop :=
  (∃ order : InterfaceOrder, word = order.word) ∨ ∃ ambiguity : Ambiguity, word = ambiguity.word

/-- A word is faulty if it is not known. -/
def Unknown (word : String) (fault : OptionsError) : Prop :=
  ¬ Known word ∧ fault = .unknownPolicy word

/-- A policy is what words say: for each decision the last word about it counts. -/
structure Means (words : List String) (policy : Policy) : Prop where
  /-- The last word about the order of contracts counts. -/
  order : Latest (fun word (order : InterfaceOrder) => word = order.word)
    ({} : Policy).interfaceOrder words policy.interfaceOrder
  /-- The last word about several instances counts. -/
  ambiguity : Latest (fun word (ambiguity : Ambiguity) => word = ambiguity.word)
    ({} : Policy).ambiguity words policy.ambiguity

section Words

variable {list word : String} {words : List String} {policy next : Policy}
  {order : InterfaceOrder} {ambiguity : Ambiguity} {fault : OptionsError}

/-- The words of a list are those that are found in it. -/
theorem lists_iff : Lists list words ↔ Policy.words list = words := by
  have trimmed : ∀ parts cores : List (List Char),
      List.Forall₂ Text.Trims parts cores ↔ parts.map Text.trimBlank = cores := by
    intro parts cores
    have same : List.Forall₂ Text.Trims parts cores ↔
        List.Forall₂ (fun part core => Text.trimBlank part = core) parts cores :=
      ⟨.imp fun _ _ => Text.trims_iff.mp, .imp fun _ _ => Text.trims_iff.mpr⟩
    rw [same, ← List.forall₂_map_left_iff (R := Eq), List.forall₂_eq_eq_eq]
  constructor
  · rintro ⟨parts, cores, separates, trims, rfl⟩
    rw [Policy.words, Text.separates_iff.mp separates, (trimmed parts cores).mp trims]
  · rintro rfl
    exact ⟨_, _, Text.separates_iff.mpr rfl, (trimmed _ _).mpr rfl, rfl⟩

/-- A word about the order of contracts. -/
theorem applyWord_order (policy : Policy) (order : InterfaceOrder) :
    applyWord policy order.word = .ok { policy with interfaceOrder := order } := by
  cases order <;> rfl

/-- A word about several instances. -/
theorem applyWord_ambiguity (policy : Policy) (ambiguity : Ambiguity) :
    applyWord policy ambiguity.word = .ok { policy with ambiguity } := by
  cases ambiguity <;> rfl

/-- A word that is not known. -/
theorem applyWord_unknown (policy : Policy) (unknown : ¬ Known word) :
    applyWord policy word = .error (.unknownPolicy word) := by
  obtain ⟨noOrder, noAmbiguity⟩ := not_or.mp unknown
  have notOrder := not_exists.mp noOrder
  have notAmbiguity := not_exists.mp noAmbiguity
  rw [applyWord, if_neg (notOrder _), if_neg (notOrder _), if_neg (notAmbiguity _),
    if_neg (notAmbiguity _)]

/-- No word says something about both decisions. -/
theorem order_word_ne (order : InterfaceOrder) (ambiguity : Ambiguity) :
    order.word ≠ ambiguity.word := by
  cases order <;> cases ambiguity <;> decide

/-- Words about the order of contracts differ. -/
theorem order_word_injective : Function.Injective InterfaceOrder.word := by
  intro first second same
  cases first <;> cases second <;> first | rfl | exact absurd same (by decide)

/-- Words about several instances differ. -/
theorem ambiguity_word_injective : Function.Injective Ambiguity.word := by
  intro first second same
  cases first <;> cases second <;> first | rfl | exact absurd same (by decide)

/-- A word is refused if and only if it is not known. -/
theorem applyWord_refuses (policy : Policy) (word : String) (fault : OptionsError) :
    applyWord policy word = .error fault ↔ Unknown word fault := by
  by_cases known : Known word
  · refine iff_of_false ?_ fun unknown => unknown.1 known
    obtain ⟨order, rfl⟩ | ⟨ambiguity, rfl⟩ := known
    · rw [applyWord_order]
      exact nofun
    · rw [applyWord_ambiguity]
      exact nofun
  · rw [applyWord_unknown policy known, Except.error.injEq, Unknown, eq_comm, and_iff_right known]

/-- A known word sets the decision that it is about and keeps the other. -/
theorem applyWord_sets (read : applyWord policy word = .ok next) :
    (word = next.interfaceOrder.word ∧ next.ambiguity = policy.ambiguity) ∨
      (word = next.ambiguity.word ∧ next.interfaceOrder = policy.interfaceOrder) := by
  by_cases known : Known word
  · obtain ⟨order, rfl⟩ | ⟨ambiguity, rfl⟩ := known
    · rw [applyWord_order] at read
      cases read
      exact .inl ⟨rfl, rfl⟩
    · rw [applyWord_ambiguity] at read
      cases read
      exact .inr ⟨rfl, rfl⟩
  · rw [applyWord_unknown policy known] at read
    cases read

/-- Words that are read mean the policy that they leave. -/
theorem means_of_foldlM (read : words.foldlM applyWord {} = .ok policy) : Means words policy where
  order := latest_of_foldlM interfaceOrder
    (fun _ _ _ step => (applyWord_sets step).imp And.left fun other =>
      ⟨fun _ isOrder => order_word_ne _ _ (isOrder.symm.trans other.1), other.2⟩) read
  ambiguity := latest_of_foldlM Policy.ambiguity
    (fun _ _ _ step => (applyWord_sets step).symm.imp And.left fun other =>
      ⟨fun _ isAmbiguity => order_word_ne _ _ (other.1.symm.trans isAmbiguity), other.2⟩) read

/-- Words mean one policy. -/
theorem Means.unique (means : Means words policy) (meansToo : Means words next) :
    policy = next := by
  have sameOrder : policy.interfaceOrder = next.interfaceOrder :=
    means.order.unique (fun _ _ _ isFirst isSecond =>
      order_word_injective (isFirst.symm.trans isSecond)) meansToo.order
  have sameAmbiguity : policy.ambiguity = next.ambiguity :=
    means.ambiguity.unique (fun _ _ _ isFirst isSecond =>
      ambiguity_word_injective (isFirst.symm.trans isSecond)) meansToo.ambiguity
  cases policy
  cases next
  cases sameOrder
  cases sameAmbiguity
  rfl

/-- A list is refused with its first unknown word. -/
theorem parse_eq_error_iff (lists : Lists list words) :
    parse list = .error fault ↔ Earliest Unknown words fault := by
  rw [parse, lists_iff.mp lists]
  exact foldlM_eq_error_iff applyWord_refuses

/-- A list of known words is read as what they mean. -/
theorem parse_eq_ok_iff (lists : Lists list words) :
    parse list = .ok policy ↔ (∀ word ∈ words, Known word) ∧ Means words policy := by
  have fine : (∃ next, words.foldlM applyWord {} = .ok next) ↔ ∀ word ∈ words, Known word :=
    (exists_foldlM_iff applyWord_refuses).trans (forall₂_congr fun word _ =>
      ⟨fun fine => not_not.mp fun unknown => fine _ ⟨unknown, rfl⟩,
        fun known _ unknown => unknown.1 known⟩)
  rw [parse, lists_iff.mp lists, ← fine]
  constructor
  · exact fun read => ⟨⟨policy, read⟩, means_of_foldlM read⟩
  · rintro ⟨⟨next, read⟩, means⟩
    rw [means.unique (means_of_foldlM read)]
    exact read

/-- Neighbouring words about different decisions may change places. -/
theorem parse_of_swapped {swapped : String} {earlier later : List String}
    (lists : Lists list (earlier ++ order.word :: ambiguity.word :: later))
    (listsSwapped : Lists swapped (earlier ++ ambiguity.word :: order.word :: later)) :
    parse swapped = parse list := by
  have same : ∀ policy, (ambiguity.word :: order.word :: later).foldlM applyWord policy =
      (order.word :: ambiguity.word :: later).foldlM applyWord policy := by
    intro policy
    simp only [List.foldlM_cons, applyWord_order, applyWord_ambiguity]
    rfl
  rw [parse, parse, lists_iff.mp lists, lists_iff.mp listsSwapped, List.foldlM_append,
    List.foldlM_append]
  exact congrArg _ (funext same)

end Words

end Policy

end Foreach
