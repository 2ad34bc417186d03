import Mathlib.Data.Set.Card
import Foreach.Proofs.Types.Demand

/-!
# Registration terminates where the demand is finite

Replacing parameters registers nothing but what is demanded, and registers each of it once. So if
the demand is finite, replacing returns: the number of demanded terms that stand for nothing yet
does not grow, and it becomes less with each new instance (`Registration.answersWithin`).

Instantiating always is a finite demand, so it always returns (`Built.instantiate_returns`). An
addition may be an infinite demand, and it returns exactly if its demand is finite
(`Built.registration_returns`).
-/
namespace Foreach

namespace Registry

/-- Finitely many terms that demand no others. -/
structure Stocked (registry : Registry) (stock : Set TypeTerm) : Prop where
  /-- There are finitely many. -/
  finite : stock.Finite
  /-- The arguments of an instance are among them. -/
  parts : ∀ {definition arguments}, .made definition arguments ∈ stock →
    ∀ argument ∈ arguments, argument ∈ stock
  /-- What the definition of an instance refers to is among them. -/
  contents : ∀ {definition arguments entry reference term}, .made definition arguments ∈ stock →
    registry.type? definition = some entry → reference ∈ registry.references entry →
      registry.Spells term reference →
        term.replace (TypeTerm.written entry.parameters arguments) ∈ stock

/-- A finite demand is a stock. -/
theorem stocked_demands {registry : Registry} {start : Set TypeTerm}
    (finite : {term | registry.Demands start term}.Finite) :
    registry.Stocked {term | registry.Demands start term} :=
  ⟨finite, fun whole _ isPart => .part whole isPart,
    fun whole known isReference spells => .content whole known isReference spells⟩

/-- The terms that stand for nothing yet. -/
def missing (registry : Registry) (stock : Set TypeTerm) : Set TypeTerm :=
  {term ∈ stock | ∀ type, ¬ registry.Denotes term type}

section Missing

variable {later earlier : Registry} {stock : Set TypeTerm}

/-- What is missing later was missing before. -/
theorem missing_subset (kept : later.Keeps earlier) :
    later.missing stock ⊆ earlier.missing stock :=
  fun _ isMissing => ⟨isMissing.1, fun type denotes => isMissing.2 type (denotes.grow kept)⟩

/-- No more is missing later. -/
theorem missing_le (finite : stock.Finite) (kept : later.Keeps earlier) :
    (later.missing stock).ncard ≤ (earlier.missing stock).ncard :=
  Set.ncard_le_ncard (missing_subset kept) (finite.subset fun _ isMissing => isMissing.1)

/-- Less is missing once a term stands for something. -/
theorem missing_lt (finite : stock.Finite) (kept : later.Keeps earlier) {term : TypeTerm}
    (isMissing : term ∈ earlier.missing stock) {type : TypeId} (denotes : later.Denotes term type) :
    (later.missing stock).ncard < (earlier.missing stock).ncard := by
  refine Set.ncard_lt_ncard ⟨missing_subset kept, fun same => ?_⟩
    (finite.subset fun _ isMissing => isMissing.1)
  exact (same isMissing).2 type denotes

end Missing

end Registry

namespace Registration

open Registry

/-- Whatever is registered next, replacing parameters of what a registry refers to returns, if its
result is among some terms. -/
def AnswersWithin (base : Registry) (stock : Set TypeTerm) (before : Registry) : Prop :=
  ∀ ⦃lacking substitution written⦄, before.Furnished lacking → before.Suits substitution →
    before.Assigns written substitution → ∀ ⦃term type⦄, base.Spells term type →
      term.replace written ∈ stock →
        Returns (fun depth => substitute depth substitution type) before

/-- An instance is replaced by the one at its replaced arguments. -/
theorem substitute_instance {before : Registry} {substitution : Substitution}
    (proper : substitution ≠ [])
    {type definition : TypeId} {entry : TypeEntry} (known : before.type? type = some entry)
    (isCopy : entry.definition = some definition) (kept : substitution.argument? type = none)
    (depth : Nat) : substitute (depth + 1) substitution type before =
      (do let arguments ← entry.arguments.mapM (substitute depth substitution)
          if arguments = entry.arguments then return type
          else instantiateWith (substitute depth) definition arguments : Registration TypeId)
        before := by
  have notEmpty : ¬ substitution.isEmpty = true := fun isEmpty =>
    proper (List.isEmpty_iff.mp isEmpty)
  rw [substitute, if_neg notEmpty, kept]
  refine (bind_of_ok (ask_entry_eq_ok.mpr ⟨known, rfl⟩)).trans ?_
  rw [isCopy]

section Stock

variable {base before : Registry} {stock : Set TypeTerm} (closed : base.Closed)
  (stocked : base.Stocked stock) {lacking : TypeId → Prop}
include closed stocked

/-- Using a definition at arguments returns if the instance is among the terms and replacing returns
wherever less is missing. -/
theorem instantiateWith_returns
    (below : ∀ {later}, later.Proceeds base →
      (later.missing stock).ncard < (before.missing stock).ncard → AnswersWithin base stock later)
    (furnished : before.Furnished lacking) (proceeds : before.Proceeds base) {definition : TypeId}
    {entry : TypeEntry} {terms : List TypeTerm} {arguments : List TypeId}
    (known : base.type? definition = some entry) (generic : entry.flags.genericDefinition = true)
    (arity : entry.parameters.length = arguments.length)
    (denoted : before.DenotesEach terms arguments) (isStocked : .made definition terms ∈ stock) :
    Returns (fun depth => instantiateWith (substitute depth) definition arguments) before := by
  have uncopied := closed.generic known generic
  have knownBefore := proceeds.left known uncopied
  have registered := denoted.has furnished.toWellFormed
  refine returns_instantiateWith (fun depth => substitute_supplies depth) furnished registered
    knownBefore generic arity fun proper absent => ?_
  intro later lacking' laterFurnished further reference isReference
  have toLater := further.trans withInstance_proceeds
  have isMissing : .made definition terms ∈ before.missing stock := by
    refine ⟨isStocked, fun type denotes => ?_⟩
    obtain ⟨_, arguments', _, _, denoted', found⟩ := denotes.arguments
    rw [← denoted.unique denoted', Registry.instanceAt?, knownBefore, Option.bind_some,
      if_neg proper, absent] at found
    cases found
  have stands : later.Denotes (.made definition terms) ⟨before.size⟩ := by
    have knownLater := toLater.left knownBefore uncopied
    have isFound : later.instance? definition arguments = some ⟨before.size⟩ :=
      further.instance? (instance?_withInstance absent)
    refine (denoted.grow toLater.toKeeps).made knownLater generic ?_
    rw [Registry.instanceAt?, knownLater, Option.bind_some, if_neg proper, isFound]
  have fewer := missing_lt stocked.finite toLater.toKeeps isMissing stands
  rw [proceeds.toGrows.references closed known] at isReference
  obtain ⟨term, spells⟩ := closed.exists_spells (closed.references_has known isReference)
  have suits := furnished.suits_zip knownBefore registered
  have assigns := denoted.assigns furnished.toClosed knownBefore
  exact below (toLater.trans proceeds) fewer laterFurnished (toLater.suits suits)
    (assigns.grow toLater.toKeeps) spells (stocked.contents isStocked known isReference spells)

/-- Replacing returns if it does wherever less is missing, by induction on the type that is written
out: an instance's arguments are replaced first. -/
theorem answersWithin_of_below {bound : Nat}
    (below : ∀ {later}, later.Proceeds base → (later.missing stock).ncard < bound →
      AnswersWithin base stock later)
    (proceeds : before.Proceeds base) (enough : (before.missing stock).ncard ≤ bound) :
    AnswersWithin base stock before := by
  intro lacking substitution written furnished suits assigns term type spells isStocked
  induction spells generalizing before lacking with
  | @whole type entry known uncopied =>
    obtain ⟨changed, reached, continued⟩ := proceeds.entries known
    have becomes : ∃ result, before.Becomes substitution type result := by
      cases replaced : substitution.argument? type with
      | some argument => exact ⟨argument, .argument replaced⟩
      | none => exact ⟨type, .whole replaced reached (continued.definition.trans uncopied)⟩
    obtain ⟨result, becomes⟩ := becomes
    obtain ⟨least, replaced⟩ := substitute_of_becomes furnished.toWellFormed becomes
    exact ⟨least, _, replaced⟩
  | @made type definition entry terms known isCopy same each ih =>
    obtain ⟨changed, reached, continued⟩ := proceeds.entries known
    have changedCopy : changed.definition = some definition := continued.definition.trans isCopy
    by_cases proper : substitution = []
    · subst proper
      obtain ⟨least, replaced⟩ := substitute_of_becomes furnished.toWellFormed
        (furnished.becomes_self [] (has_iff.mpr ⟨changed, reached⟩))
      exact ⟨least, _, replaced⟩
    have kept := assigns.instance_kept reached changedCopy
    have argumentsHave : ∀ argument ∈ changed.arguments, before.Has argument :=
      fun _ isArgument => furnished.arguments reached isArgument
    rw [TypeTerm.replace_made] at isStocked
    have answers : Answers (fun depth => substitute depth substitution) changed.arguments
        before := by
      intro later lacking' laterFurnished further argument isArgument
      rw [continued.arguments] at isArgument
      obtain ⟨place, bound, rfl⟩ := List.mem_iff_getElem.mp isArgument
      have inTerms := Nat.lt_of_lt_of_eq bound same.symm
      have isPart := stocked.parts isStocked (terms[place].replace written)
        (List.mem_map_of_mem (List.getElem_mem inTerms))
      have fewer := (missing_le stocked.finite further.toKeeps).trans enough
      exact ih _ (getElem_mem_zip inTerms bound) (further.trans proceeds) fewer laterFurnished
        (further.suits suits) (assigns.grow further.toKeeps) isPart
    have listed := returns_replaceEach (fun depth => substitute_supplies depth substitution)
      furnished suits argumentsHave answers
    refine .of_succ (substitute_instance proper reached changedCopy kept)
      (listed.bind fun {depth arguments middle} replaced => ?_)
    by_cases unchanged : arguments = changed.arguments
    · simp only [if_pos unchanged]
      exact returns_pure type
    simp only [if_neg unchanged]
    have supplies := substitute_supplies depth substitution
    obtain ⟨middleFurnished, further⟩ :=
      supplies.mapM_proceeds furnished suits argumentsHave replaced
    obtain ⟨-, become⟩ :=
      supplies.mapM furnished supplied_of_pending suits argumentsHave replaced
    have toMiddle := further.trans proceeds
    obtain ⟨-, whole, wholeKnown, -, arity, -, generic⟩ := closed.copied known isCopy
    have assignsThere := assigns.grow further.toKeeps
    have spelled : List.Forall₂ (fun term argument => ∀ ⦃result⦄,
        middle.Becomes substitution argument result →
          middle.Denotes (term.replace written) result) terms entry.arguments :=
      List.forall₂_iff_zip.mpr ⟨same, fun isPair _ becomes =>
        ((each _ isPair).grow toMiddle.toGrows).denotes_of_becomes assignsThere
          middleFurnished.toWellFormed becomes⟩
    rw [continued.arguments] at become
    have denoted : middle.DenotesEach (terms.map (TypeTerm.replace written)) arguments :=
      List.forall₂_map_left_iff.mpr (forall₂_chain spelled become)
    have fewer := (missing_le stocked.finite further.toKeeps).trans enough
    exact instantiateWith_returns closed stocked
      (fun laterProceeds less => below laterProceeds (less.trans_le fewer)) middleFurnished toMiddle
      wholeKnown generic (arity.trans become.length_eq) denoted isStocked

/-- Replacing returns wherever a registry proceeds to, by induction on what is missing. -/
theorem answersWithin (proceeds : before.Proceeds base) : AnswersWithin base stock before := by
  induction bound : (before.missing stock).ncard using Nat.strongRecOn generalizing before with
  | ind count ih =>
    refine answersWithin_of_below closed stocked (fun {later} laterProceeds less => ?_) proceeds
      (Nat.le_of_eq bound)
    exact ih _ less laterProceeds rfl

end Stock

end Registration

namespace Registry

variable {mayEdit : TypeEntry → Prop} {registry : Registry}

/-- In a registry that is built, a registered definition can be instantiated at as many registered
arguments as it has parameters: instantiation returns, since what an instance demands is finite. -/
theorem Built.instantiate_returns (built : Built mayEdit registry) {definition : TypeId}
    {entry : TypeEntry} {arguments : List TypeId}
    (known : registry.type? definition = some entry)
    (generic : entry.flags.genericDefinition = true)
    (arity : entry.parameters.length = arguments.length)
    (registered : ∀ argument ∈ arguments, registry.Has argument) :
    Registration.Returns
      (fun depth => Registration.instantiate depth definition arguments) registry := by
  have complete := built.complete
  have closed := complete.toClosed
  obtain ⟨terms, spelled⟩ :=
    exists_forall₂ fun argument isArgument => closed.exists_spells (registered argument isArgument)
  have denoted : registry.DenotesEach terms arguments :=
    spelled.imp fun _ _ spells => spells.denotes closed.toWellFormed
  have finite := finite_demands_instance complete known generic arity denoted built.supplied
  have stocked := stocked_demands finite
  exact Registration.instantiateWith_returns closed stocked
    (fun proceeds _ => Registration.answersWithin closed stocked proceeds) complete (.refl registry)
    known generic arity denoted (.start rfl)

section Additions

variable {type : TypeId} {entry : TypeEntry} {addition : Addition}

/-- The instances of a type, written out. -/
def instanceTerms (registry : Registry) (type : TypeId) : Set TypeTerm :=
  {term | ∃ made, registry.IsCopy made type ∧ registry.Spells term made}

/-- What an addition to a type demands: what the instances of the type demand once the type itself
has what is added. -/
def additionDemand (registry : Registry) (type : TypeId) (addition : Addition) : Set TypeTerm :=
  {term | (addition.enter registry type).Demands
    ((addition.enter registry type).instanceTerms type) term}

/-- An addition that ends at some depth is a finite demand: all of it is registered in the end. -/
theorem Built.finite_additionDemand (built : Built mayEdit registry)
    (known : registry.type? type = some entry) (refers : addition.Refers registry) {depth : Nat}
    {after : Registry} (ran : addition.register depth type registry = .ok ((), after)) :
    (registry.additionDemand type addition).Finite := by
  have complete := built.complete
  rw [Addition.register_eq known refers] at ran
  obtain ⟨added, amends, continued, entered⟩ := Addition.enter_spec complete known refers
  have copies := Addition.copies_copy complete known refers
  have pending := built.supplied.lag complete.toClosed amends continued
  obtain ⟨afterComplete, proceeds, supplied⟩ := Registration.forInstances_supplies entered
    amends.after copies pending (fun {made found} foundKnown isCopy reference isReference =>
      (Addition.references_extend complete known refers reference isReference).imp_right
        fun isFormer => built.supplied.former amends continued foundKnown isCopy isFormer) ran
  refine finite_demands_of_denoted entered.toClosed afterComplete supplied proceeds ?_
  rintro term ⟨made, -, spells⟩
  exact ⟨made, (spells.denotes entered.toWellFormed).grow proceeds.toKeeps⟩

/-- If an addition is a finite demand, what is added can be replaced in each instance of the
type. -/
theorem answers_references (complete : registry.Complete)
    (known : registry.type? type = some entry) (refers : addition.Refers registry)
    (finite : (registry.additionDemand type addition).Finite) {made : TypeId} {found : TypeEntry}
    (foundKnown : (addition.enter registry type).type? made = some found)
    (isCopy : found.definition = some type) :
    Registration.Answers
      (fun depth => Registration.substitute depth
        ((addition.extend registry entry).parameters.zip found.arguments))
      (addition.references registry) (addition.enter registry type) := by
  obtain ⟨added, amends, -, entered⟩ := Addition.enter_spec complete known refers
  have closed := entered.toClosed
  have stocked := stocked_demands finite
  intro later lacking furnished proceeds reference isReference
  obtain ⟨terms, spelled⟩ := exists_forall₂ fun argument isArgument =>
    closed.exists_spells (closed.arguments foundKnown isArgument)
  obtain ⟨same, each⟩ := List.forall₂_iff_zip.mp spelled
  have isInstance : .made type terms ∈ (addition.enter registry type).instanceTerms type :=
    ⟨made, ⟨found, foundKnown, isCopy⟩, .made foundKnown isCopy same fun _ isPair => each isPair⟩
  have isMentioned : reference ∈ (addition.enter registry type).references
      (addition.extend registry entry) := Addition.references_subset refers isReference
  obtain ⟨term, spells⟩ := closed.exists_spells (closed.references_has amends.after isMentioned)
  have isDemanded := stocked.contents (.start isInstance) amends.after isMentioned spells
  have denoted : (addition.enter registry type).DenotesEach terms found.arguments :=
    spelled.imp fun _ _ spells => spells.denotes closed.toWellFormed
  have suits := closed.suits_zip amends.after fun _ isArgument =>
    closed.arguments foundKnown isArgument
  have assigns := denoted.assigns closed amends.after
  exact Registration.answersWithin closed stocked proceeds furnished (proceeds.suits suits)
    (assigns.grow proceeds.toKeeps) spells isDemanded

/-- An addition that is a finite demand returns. -/
theorem Built.returns_of_finite (built : Built mayEdit registry)
    (known : registry.type? type = some entry) (refers : addition.Refers registry)
    (finite : (registry.additionDemand type addition).Finite) :
    Registration.Returns (fun depth => addition.register depth type) registry := by
  have complete := built.complete
  obtain ⟨added, amends, -, entered⟩ := Addition.enter_spec complete known refers
  have copies := Addition.copies_copy complete known refers
  obtain ⟨least, outcome, ended⟩ := Registration.returns_forInstances entered amends.after copies
    fun foundKnown isCopy => answers_references complete known refers finite foundKnown isCopy
  exact ⟨least, outcome, fun depth enough =>
    (Addition.register_eq known refers depth).trans (ended depth enough)⟩

end Additions

/-- Every registration of what is registered returns. -/
def RegistrationReturns (registry : Registry) : Prop :=
  (∀ {definition entry arguments}, registry.type? definition = some entry →
    entry.flags.genericDefinition = true → entry.parameters.length = arguments.length →
      (∀ argument ∈ arguments, registry.Has argument) →
        Registration.Returns (fun depth => Registration.instantiate depth definition arguments)
          registry) ∧
  ∀ {type entry} {addition : Addition}, registry.type? type = some entry →
    addition.Refers registry →
      Registration.Returns (fun depth => addition.register depth type) registry

/-- In every registry that is built, whatever may be edited: which registrations of what is
registered return. A registered definition can be instantiated at as many registered arguments as
it has parameters. What is added to a type is registered if what its instances demand then is
finite, and else the addition ends at no depth. -/
theorem Built.registration_returns (built : Built mayEdit registry) :
    (∀ {definition entry arguments}, registry.type? definition = some entry →
      entry.flags.genericDefinition = true → entry.parameters.length = arguments.length →
        (∀ argument ∈ arguments, registry.Has argument) →
          Registration.Returns (fun depth => Registration.instantiate depth definition arguments)
            registry) ∧
    ∀ {type entry} {addition : Addition}, registry.type? type = some entry →
      addition.Refers registry →
        (Registration.Returns (fun depth => addition.register depth type) registry ↔
          (registry.additionDemand type addition).Finite) ∧
        ((∃ depth after, addition.register depth type registry = .ok ((), after)) ↔
          (registry.additionDemand type addition).Finite) := by
  refine ⟨fun known generic arity registered =>
    built.instantiate_returns known generic arity registered,
    fun known refers => ⟨⟨?_, ?_⟩, ?_, ?_⟩⟩
  · intro returns
    obtain ⟨depth, ⟨⟩, after, ran⟩ := returns.exists_ok
    exact built.finite_additionDemand known refers ran
  · exact built.returns_of_finite known refers
  · rintro ⟨depth, after, ran⟩
    exact built.finite_additionDemand known refers ran
  · intro finite
    obtain ⟨depth, ⟨⟩, after, ran⟩ := (built.returns_of_finite known refers finite).exists_ok
    exact ⟨depth, after, ran⟩

/-- Two definitions, the second of which is instantiated at its parameter wrapped in the first. -/
def growingTypes : Registry :=
  initial
    |>.after (Registration.declare { name := "Box", sort := .classType, parameters := ["T"] })
    |>.after (Registration.declare { name := "Wrap", sort := .classType, parameters := ["U"] })
    |>.after (Registration.instantiate 1 ⟨16⟩ [⟨15⟩])
    |>.after (Registration.instantiate 1 ⟨14⟩ [⟨18⟩])

/-- The definitions and the instances are registered without a stop. -/
theorem growingTypes_built : Built TypeEntry.IsOriginal growingTypes := by
  refine .after (.after (.after (.after .initial ?_) ?_) ?_) ?_
  · exact .declare fun _ isOuter => nomatch isOuter
  · exact .declare fun _ isOuter => nomatch isOuter
  · exact .instantiate (by decide)
  · exact .instantiate (by decide)

/-- A method of a box that answers with a box of the wrapped parameter. -/
def growingMethod : Addition := .member (.method "M" ⟨19⟩)

/-- The parameter of a box, wrapped a number of times. -/
def wrapped : Nat → TypeTerm
  | 0 => .whole ⟨15⟩
  | count + 1 => .made ⟨16⟩ [wrapped count]

/-- A parameter that is wrapped more often is another term. -/
theorem wrapped_injective : Function.Injective wrapped := by
  intro count
  induction count with
  | zero =>
    rintro (_ | other) same
    · rfl
    · cases same
  | succ count ih =>
    rintro (_ | other) same
    · cases same
    · rw [wrapped, wrapped] at same
      injection same with _ arguments
      rw [ih (List.head_eq_of_cons_eq arguments)]

/-- The method demands boxes of the parameter wrapped any number of times, by induction on the
number: the method of each box answers with one that is wrapped once more. -/
theorem infinite_growingMethod : ¬ (growingTypes.additionDemand ⟨14⟩ growingMethod).Finite := by
  have parameter : (growingMethod.enter growingTypes ⟨14⟩).Spells (.whole ⟨15⟩) ⟨15⟩ := by
    obtain ⟨entry, known, uncopied⟩ : ∃ entry ∈
        (growingMethod.enter growingTypes ⟨14⟩).type? ⟨15⟩, entry.definition = none := by decide
    exact .whole known uncopied
  have once : (growingMethod.enter growingTypes ⟨14⟩).Spells (wrapped 1) ⟨18⟩ := by
    obtain ⟨entry, known, isCopy, arguments⟩ : ∃ entry ∈
        (growingMethod.enter growingTypes ⟨14⟩).type? ⟨18⟩,
          entry.definition = some ⟨16⟩ ∧ entry.arguments = [⟨15⟩] := by decide
    refine .made known isCopy (arguments ▸ rfl) fun pair isPair => ?_
    rw [arguments] at isPair
    cases List.mem_singleton.mp isPair
    exact parameter
  obtain ⟨box, boxKnown, boxCopy, arguments⟩ : ∃ entry ∈
      (growingMethod.enter growingTypes ⟨14⟩).type? ⟨19⟩,
        entry.definition = some ⟨14⟩ ∧ entry.arguments = [⟨18⟩] := by decide
  have first : (growingMethod.enter growingTypes ⟨14⟩).Spells (.made ⟨14⟩ [wrapped 1]) ⟨19⟩ := by
    refine .made boxKnown boxCopy (arguments ▸ rfl) fun pair isPair => ?_
    rw [arguments] at isPair
    cases List.mem_singleton.mp isPair
    exact once
  obtain ⟨whole, wholeKnown, parameters, answers⟩ : ∃ entry ∈
      (growingMethod.enter growingTypes ⟨14⟩).type? ⟨14⟩, entry.parameters = [⟨15⟩] ∧
        ⟨19⟩ ∈ (growingMethod.enter growingTypes ⟨14⟩).references entry := by decide
  have again (term : TypeTerm) :
      (TypeTerm.made ⟨14⟩ [wrapped 1]).replace (TypeTerm.written [⟨15⟩] [term]) =
        .made ⟨14⟩ [.made ⟨16⟩ [term]] := by
    simp only [wrapped, TypeTerm.replace_made, TypeTerm.replace_whole, List.map_cons, List.map_nil]
    rfl
  have demanded (count : Nat) :
      .made ⟨14⟩ [wrapped (count + 1)] ∈ growingTypes.additionDemand ⟨14⟩ growingMethod := by
    induction count with
    | zero => exact .start ⟨⟨19⟩, ⟨box, boxKnown, boxCopy⟩, first⟩
    | succ count ih =>
      have next := Demands.content ih wholeKnown answers first
      rw [parameters, again] at next
      exact next
  refine Set.infinite_of_injective_forall_mem (fun first second same => ?_) demanded
  injection same with _ arguments
  exact Nat.succ.inj (wrapped_injective (List.head_eq_of_cons_eq arguments))

/-- The method is added to a box at no depth, although all that it mentions is registered. -/
theorem growingTypes_not_registrationReturns :
    Built TypeEntry.IsOriginal growingTypes ∧ ¬ growingTypes.RegistrationReturns := by
  refine ⟨growingTypes_built, fun returns => infinite_growingMethod ?_⟩
  obtain ⟨entry, known, -⟩ : ∃ entry ∈ growingTypes.type? ⟨14⟩, entry.definition = none := by decide
  have refers : growingMethod.Refers growingTypes := ⟨by decide, by decide⟩
  obtain ⟨depth, ⟨⟩, after, ran⟩ := (returns.2 known refers).exists_ok
  exact growingTypes_built.finite_additionDemand known refers ran

/-- A box of a box can be instantiated, and a property of the parameter's type can be added to a
box. The method that grows ends at no depth. -/
theorem growingTypes_registration_returns :
    Registration.Returns (fun depth => Registration.instantiate depth ⟨14⟩ [⟨19⟩]) growingTypes ∧
    Registration.Returns
      (fun depth => (Addition.member (.property "Value" ⟨15⟩)).register depth ⟨14⟩) growingTypes ∧
    ∀ depth after, growingMethod.register depth ⟨14⟩ growingTypes ≠ .ok ((), after) := by
  obtain ⟨instantiates, adds⟩ := growingTypes_built.registration_returns
  obtain ⟨entry, known, generic, arity⟩ : ∃ entry ∈ growingTypes.type? ⟨14⟩,
      entry.flags.genericDefinition = true ∧ entry.parameters.length = 1 := by decide
  refine ⟨instantiates known generic arity (by decide), ?_, fun depth after ran => ?_⟩
  · have refers : (Addition.member (.property "Value" ⟨15⟩)).Refers growingTypes :=
      ⟨by decide, by decide⟩
    obtain ⟨returns, ends⟩ := adds known refers
    obtain ⟨after, ran⟩ : ∃ after, (Addition.member (.property "Value" ⟨15⟩)).register 1 ⟨14⟩
      growingTypes = .ok ((), after) := ⟨_, rfl⟩
    exact returns.mpr (ends.mp ⟨1, after, ran⟩)
  · have refers : growingMethod.Refers growingTypes := ⟨by decide, by decide⟩
    exact infinite_growingMethod ((adds known refers).2.mp ⟨depth, after, ran⟩)

end Registry

end Foreach
