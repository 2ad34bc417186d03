import Foreach.Proofs.Types.Ancestry
import Foreach.Proofs.Types.Orderly

/-!
# A definition beside its instance

What a definition refers to, an instance of the definition refers to in its own version: the base of
the instance is what the base of the definition should become, and so on. Two types are twins
(`Registry.Twin`) if one is what the other should become in the instance. Twins are alike: they have
twin bases and interfaces, and members that are alike and answer with types of which one is what the
other should become (`Beside.entryTwin`).
-/
namespace Foreach.Registry

/-- A type is an instance of a definition under a substitution, in a registry in which nothing was
added to instances, generic parameters are used where they belong, and the definition is not
mentioned where enumeration looks. -/
structure Beside (registry : Registry) (substitution : Substitution) (definition type : TypeId) :
    Prop where
  /-- Nothing was added to instances. -/
  built : Built TypeEntry.IsOriginal registry
  /-- Generic parameters are used where they belong. -/
  orderly : registry.Orderly
  /-- The definition is not mentioned. -/
  unmentioned : registry.Unmentioned definition
  /-- The type is an instance of the definition. -/
  isCopy : registry.IsCopy type definition
  /-- The substitution is that of the instance. -/
  answer : registry.substitution type = .ok substitution

/-- A type that is not replaced, and what it should become in an instance. -/
structure Twin (registry : Registry) (substitution : Substitution)
    (definition type other result : TypeId) : Prop where
  /-- One is what the other should become. -/
  specializes : registry.Specializes substitution definition type other result
  /-- The type is no parameter of the definition. -/
  kept : substitution.argument? other = none

/-- Two members are alike and, if enumeration looks for them, answer with types of which one is what
the other should become. -/
def MemberTwin (registry : Registry) (substitution : Substitution) (definition type : TypeId)
    (member copy : MemberId) : Prop :=
  ∃ source made, registry.member? member = some source ∧ registry.member? copy = some made ∧
    made.Alike source ∧ (source.name ∈ lookedFor →
      registry.Specializes substitution definition type source.valueType made.valueType)

/-- What twins have of their own. -/
structure EntryTwin (registry : Registry) (substitution : Substitution)
    (definition type : TypeId) (part copy : TypeEntry) : Prop where
  /-- Their flags are the same, except for what tells instances. -/
  flags : copy.flags.forInstance = part.flags.forInstance
  /-- Their bases are twins. -/
  base : Option.Rel (registry.Twin substitution definition type) part.base copy.base
  /-- Their interfaces are twins. -/
  interfaces : List.Forall₂ (registry.Twin substitution definition type) part.interfaces
    copy.interfaces
  /-- Their members are twins. -/
  members : List.Forall₂ (registry.MemberTwin substitution definition type) part.members
    copy.members

/-- Lists that are related to one list are related to each other. -/
theorem forall₂_of_common {α β γ : Type} {left : α → β → Prop} {right : α → γ → Prop}
    {related : β → γ → Prop} {sources : List α} {firsts : List β} {seconds : List γ}
    (isFirst : List.Forall₂ left sources firsts) (isSecond : List.Forall₂ right sources seconds)
    (step : ∀ source ∈ sources, ∀ first ∈ firsts, ∀ second, left source first →
      right source second → related first second) : List.Forall₂ related firsts seconds := by
  induction isFirst generalizing seconds with
  | nil =>
    cases isSecond
    exact .nil
  | cons first _ ih =>
    cases isSecond with
    | cons second others =>
      refine .cons (step _ List.mem_cons_self _ List.mem_cons_self _ first second) ?_
      exact ih others fun source isSource first isFirst =>
        step source (List.mem_cons_of_mem _ isSource) first (List.mem_cons_of_mem _ isFirst)

/-- Options that are related to one option are related to each other. -/
theorem rel_of_common {α β γ : Type} {left : α → β → Prop} {right : α → γ → Prop}
    {related : β → γ → Prop} {source : Option α} {first : Option β} {second : Option γ}
    (isFirst : Option.Rel left source first) (isSecond : Option.Rel right source second)
    (step : ∀ given ∈ source, ∀ now ∈ first, ∀ later, left given now → right given later →
      related now later) : Option.Rel related first second := by
  cases isFirst with
  | none =>
    cases isSecond
    exact .none
  | some now =>
    cases isSecond with
    | some later => exact .some (step _ rfl _ rfl _ now later)

/-- A parameter is replaced by related arguments at related lists of arguments. -/
theorem argument?_related {related : TypeId → TypeId → Prop}
    {parameters arguments others : List TypeId}
    (each : List.Forall₂ related arguments others) (type : TypeId) :
    Option.Rel related (Substitution.argument? (parameters.zip arguments) type)
      (Substitution.argument? (parameters.zip others) type) := by
  induction parameters generalizing arguments others with
  | nil => exact .none
  | cons parameter rest ih =>
    cases each with
    | nil => exact .none
    | cons first each =>
      simp only [List.zip_cons_cons, Substitution.argument?, List.find?_cons]
      cases decide (parameter = type) with
      | true => exact .some first
      | false => exact ih each

/-- What stands at the same place of a list is the same. -/
theorem eq_of_mem_zip_self {types : List TypeId} {pair : TypeId × TypeId}
    (isPair : pair ∈ types.zip types) : pair.1 = pair.2 := by
  obtain ⟨place, bound, rfl⟩ := List.mem_iff_getElem.mp isPair
  rw [List.getElem_zip]

/-- Parameters that are replaced by themselves leave every registered type, by induction on when it
was registered. -/
theorem Closed.becomes_self {registry : Registry} (closed : registry.Closed)
    (parameters : List TypeId) {type : TypeId} (has : registry.Has type) :
    registry.Becomes (parameters.zip parameters) type type := by
  obtain ⟨age, isAge⟩ : ∃ age, type.index = age := ⟨_, rfl⟩
  induction age using Nat.strongRecOn generalizing type with
  | ind age ih =>
    obtain ⟨entry, known⟩ := has_iff.mp has
    cases replaced : Substitution.argument? (parameters.zip parameters) type with
    | some argument =>
      have same : type = argument := eq_of_mem_zip_self (mem_of_argument? replaced)
      exact .argument (same ▸ replaced)
    | none =>
      cases isCopy : entry.definition with
      | none => exact .whole replaced known isCopy
      | some definition =>
        refine .made replaced known isCopy rfl (fun pair isPair => ?_)
          (Registration.instanceAt?_of_instance closed.toWellFormed known isCopy)
        have isArgument := (List.of_mem_zip isPair).1
        rw [← eq_of_mem_zip_self isPair]
        exact ih _ (isAge ▸ closed.older known isArgument) (closed.arguments known isArgument) rfl

/-- What a signature becomes has as many parameters. -/
theorem KindBecomes.arity {registry : Registry} {substitution : Substitution}
    {kind other : MemberKind} (becomes : registry.KindBecomes substitution kind other) :
    other.arity = kind.arity := by
  cases becomes with
  | method each _ => exact congrArg some each.length_eq.symm
  | property _ => rfl

/-- A type has what the content of a type becomes, as far as enumeration tells. -/
structure Reflects (registry : Registry) (substitution : Substitution) (whole part : TypeEntry) :
    Prop where
  /-- The flags are the same except for being an instance. -/
  flags : part.flags.forInstance = whole.flags.forInstance
  /-- The base is what the base becomes. -/
  base : Option.Rel (registry.Becomes substitution) whole.base part.base
  /-- The interfaces are what the interfaces become. -/
  interfaces : List.Forall₂ (registry.Becomes substitution) whole.interfaces part.interfaces
  /-- The members are like the members and answer with what their types become. -/
  members : List.Forall₂ (fun member copy => ∃ source made, registry.member? member = some source ∧
    registry.member? copy = some made ∧ made.Alike source ∧
      registry.Becomes substitution source.valueType made.valueType) whole.members part.members

/-- A type stands for a type that is no instance at as many arguments as that has parameters. -/
theorem WellFormed.arity_of_instanceAt? {registry : Registry} (formed : registry.WellFormed)
    {origin found : TypeId} {whole : TypeEntry} {arguments : List TypeId}
    (wholeKnown : registry.type? origin = some whole)
    (foundAt : registry.instanceAt? origin arguments = some found) :
    whole.parameters.length = arguments.length := by
  rcases formed.instanceAt?_cases foundAt with ⟨-, whole', wholeKnown', rfl⟩ |
    ⟨entry, known, isCopy, rfl⟩
  · cases wholeKnown.symm.trans wholeKnown'
    rfl
  · obtain ⟨-, whole', wholeKnown', -, arity, -⟩ := formed.copied known isCopy
    cases wholeKnown.symm.trans wholeKnown'
    exact arity

/-- What stands for a type that is no instance, at whatever arguments, stands for no other such
type. -/
theorem WellFormed.standsFor_of_instanceAt? {registry : Registry} (formed : registry.WellFormed)
    {origin found generic : TypeId} {whole entry : TypeEntry} {arguments : List TypeId}
    (wholeKnown : registry.type? origin = some whole) (uncopied : whole.definition = none)
    (known : registry.type? generic = some entry) (isWhole : entry.definition = none)
    (foundAt : registry.instanceAt? origin arguments = some found) :
    registry.standsFor generic found = true ↔ origin = generic := by
  rw [standsFor, Bool.or_eq_true, decide_eq_true_eq, decide_eq_true_eq]
  rcases formed.instanceAt?_cases foundAt with ⟨rfl, -⟩ | ⟨copied, copiedKnown, isCopy, -⟩
  · rw [wholeKnown, Option.bind_some, uncopied]
    exact or_iff_left (Option.some_ne_none generic).symm
  · rw [copiedKnown, Option.bind_some, isCopy, Option.some.injEq]
    refine or_iff_right ?_
    rintro rfl
    cases known.symm.trans copiedKnown
    cases isWhole.symm.trans isCopy

section Origins

variable {registry : Registry} (closed : registry.Closed) (sound : registry.Sound settled)

include closed sound in
/-- A type at arguments has what the content of the type becomes at the arguments. -/
theorem reflects_of_instanceAt? {origin type : TypeId} {arguments : List TypeId}
    {whole entry : TypeEntry} (wholeKnown : registry.type? origin = some whole)
    (known : registry.type? type = some entry)
    (found : registry.instanceAt? origin arguments = some type) :
    registry.Reflects (whole.parameters.zip arguments) whole entry := by
  rcases closed.instanceAt?_cases found with ⟨rfl, whole', wholeKnown', rfl⟩ |
    ⟨entry', known', isCopy, rfl⟩
  · cases wholeKnown.symm.trans wholeKnown'
    cases wholeKnown.symm.trans known
    have self {type : TypeId} (has : registry.Has type) := closed.becomes_self whole.parameters has
    refine ⟨rfl, ?_, ?_, ?_⟩
    · cases isBase : whole.base with
      | none => exact .none
      | some base => exact .some (self (closed.bases known isBase))
    · exact List.forall₂_same.mpr fun interface isListed =>
        self (IsContract.has (closed.interfaces known isListed))
    · refine List.forall₂_same.mpr fun member isListed => ?_
      obtain ⟨source, sourceKnown⟩ := hasMember_iff.mp (closed.listed_has known isListed)
      exact ⟨source, source, sourceKnown, sourceKnown, ⟨rfl, rfl, rfl⟩,
        self (closed.valueType_has sourceKnown)⟩
  · cases known.symm.trans known'
    have mirrors := sound.mirrors known isCopy wholeKnown
    refine ⟨by rw [closed.flags known isCopy wholeKnown]; rfl, mirrors.base, mirrors.interfaces,
      mirrors.members.imp fun member copy copies => ?_⟩
    obtain ⟨source, made, sourceKnown, madeKnown, same⟩ := copies
    refine ⟨source, made, sourceKnown, madeKnown, ⟨same.name, same.flags, ?_⟩, same.kind.types.2⟩
    exact same.kind.arity

end Origins

section Beside

variable {registry : Registry} {substitution : Substitution} {definition type : TypeId}
  (beside : registry.Beside substitution definition type)
include beside

/-- The parameters of the definition are replaced by the arguments of the instance. -/
theorem Beside.copied : ∃ entry whole, registry.type? type = some entry ∧
    entry.definition = some definition ∧ registry.type? definition = some whole ∧
      substitution = whole.parameters.zip entry.arguments := by
  obtain ⟨entry, known, isCopy⟩ := beside.isCopy
  obtain ⟨-, whole, wholeKnown, -⟩ := beside.built.complete.copied known isCopy
  have answer := substitution_of_instance known isCopy wholeKnown
  exact ⟨entry, whole, known, isCopy, wholeKnown, Except.ok.inj (beside.answer.symm.trans answer)⟩

/-- Only generic parameters are replaced in an instance. -/
theorem Beside.suits : registry.Suits substitution := by
  have closed := beside.built.complete.toClosed
  obtain ⟨entry, whole, known, -, wholeKnown, rfl⟩ := beside.copied
  exact closed.suits_zip wholeKnown fun _ isArgument => closed.arguments known isArgument

/-- The definition is not replaced, and is no instance. -/
theorem Beside.definition_kept : substitution.argument? definition = none ∧
    ∃ whole, registry.type? definition = some whole ∧ whole.definition = none := by
  have closed := beside.built.complete.toClosed
  obtain ⟨entry, whole, known, isCopy, wholeKnown, rfl⟩ := beside.copied
  obtain ⟨kept, uncopied, -⟩ := closed.definition_kept known isCopy wholeKnown
  exact ⟨kept, whole, wholeKnown, uncopied⟩

/-- A type should become one type only, by induction on how it becomes it. -/
theorem Beside.unique {other result result' : TypeId}
    (first : registry.Specializes substitution definition type other result)
    (second : registry.Specializes substitution definition type other result') :
    result = result' := by
  obtain ⟨definitionKept, whole, wholeKnown, isWhole⟩ := beside.definition_kept
  induction first generalizing result' with
  | argument replaced =>
    cases second with
    | argument replaced' => exact Option.some.inj (replaced.symm.trans replaced')
    | self => cases definitionKept.symm.trans replaced
    | whole kept | made kept => cases kept.symm.trans replaced
  | self =>
    cases second with
    | argument replaced => cases definitionKept.symm.trans replaced
    | self => rfl
    | whole _ foreign => exact absurd rfl foreign
    | made _ known isCopy =>
      cases wholeKnown.symm.trans known
      cases isWhole.symm.trans isCopy
  | whole kept foreign known uncopied =>
    cases second with
    | argument replaced => cases kept.symm.trans replaced
    | self => exact absurd rfl foreign
    | whole => rfl
    | made _ known' isCopy =>
      cases known.symm.trans known'
      cases uncopied.symm.trans isCopy
  | @made _ _ _ entry arguments kept known isCopy same each found ih =>
    cases second with
    | argument replaced => cases kept.symm.trans replaced
    | self =>
      cases wholeKnown.symm.trans known
      cases isWhole.symm.trans isCopy
    | whole _ _ known' uncopied =>
      cases known.symm.trans known'
      cases uncopied.symm.trans isCopy
    | @made _ _ _ _ others _ known' isCopy' same' each' found' =>
      cases known.symm.trans known'
      cases isCopy.symm.trans isCopy'
      have left : List.Forall₂ (fun source argument => ∀ {other},
          registry.Specializes substitution definition type source other → argument = other)
          entry.arguments arguments :=
        List.forall₂_iff_zip.mpr ⟨same, fun isPair => ih _ isPair⟩
      have right := List.forall₂_iff_zip.mpr ⟨same', fun {_ _} isPair => each' _ isPair⟩
      have equal : List.Forall₂ Eq arguments others :=
        forall₂_of_common left right fun _ _ _ _ _ isFirst isSecond => isFirst isSecond
      rw [List.forall₂_eq_eq_eq] at equal
      cases equal
      exact Option.some.inj (found.symm.trans found')

/-- What stands for a type at some arguments should become what stands for it at what the arguments
should become. -/
theorem Beside.specializes_of_instanceAt? {origin found result : TypeId}
    {arguments others : List TypeId} {generic : TypeEntry}
    (genericKnown : registry.type? origin = some generic) (uncopied : generic.definition = none)
    (isGeneric : generic.flags.genericParameter = false)
    (foundAt : registry.instanceAt? origin arguments = some found)
    (each : List.Forall₂ (registry.Specializes substitution definition type) arguments others)
    (resultAt : registry.instanceAt? origin others = some result) :
    registry.Specializes substitution definition type found result := by
  have closed := beside.built.complete.toClosed
  obtain ⟨entry, whole, known, isCopy, wholeKnown, rfl⟩ := beside.copied
  by_cases same : origin = definition
  · exact closed.specializes_of_instanceAt? known isCopy wholeKnown (fun _ => same) foundAt each
      resultAt
  · rcases closed.instanceAt?_cases foundAt with ⟨rfl, generic', genericKnown', rfl⟩ | isInstance
    · -- The parameters of another definition stay, and so does it.
      cases genericKnown.symm.trans genericKnown'
      have stay : List.Forall₂
          (registry.Specializes (whole.parameters.zip entry.arguments) definition type)
          generic.parameters generic.parameters := List.forall₂_same.mpr fun _ isParameter =>
        closed.specializes_parameter known isCopy wholeKnown same genericKnown isParameter
      have parameters : List.Forall₂ Eq generic.parameters others :=
        forall₂_of_common stay each fun _ _ _ _ _ isFirst isSecond => beside.unique isFirst isSecond
      rw [List.forall₂_eq_eq_eq] at parameters
      rw [← parameters] at resultAt
      cases foundAt.symm.trans resultAt
      exact .whole (beside.suits.kept genericKnown isGeneric) same genericKnown uncopied
    · refine closed.specializes_of_instanceAt? known isCopy wholeKnown (fun isOrigin => ?_) foundAt
        each resultAt
      obtain ⟨entry', known', isCopy', -⟩ := isInstance
      exact absurd isCopy' (closed.not_own_instance (isOrigin ▸ known'))

/-- Twins stand for one type that is no instance, at arguments and at what they should become. -/
theorem Beside.exists_common {other result : TypeId}
    (twin : registry.Twin substitution definition type other result) :
    ∃ origin whole arguments others, registry.type? origin = some whole ∧
      whole.definition = none ∧ registry.instanceAt? origin arguments = some other ∧
        registry.instanceAt? origin others = some result ∧
          List.Forall₂ (registry.Specializes substitution definition type) arguments others := by
  have closed := beside.built.complete.toClosed
  obtain ⟨entry, generic, known, isCopy, genericKnown, rfl⟩ := beside.copied
  have atOwn {origin : TypeId} {whole : TypeEntry}
      (wholeKnown : registry.type? origin = some whole) :
      registry.instanceAt? origin whole.parameters = some origin := by
    rw [instanceAt?, wholeKnown, Option.bind_some, if_pos rfl]
  cases twin.specializes with
  | argument replaced => cases twin.kept.symm.trans replaced
  | self =>
    obtain ⟨-, generic', genericKnown', uncopied, arity, -⟩ := closed.copied known isCopy
    cases genericKnown.symm.trans genericKnown'
    refine ⟨definition, generic, generic.parameters, entry.arguments, genericKnown, uncopied,
      atOwn genericKnown, Registration.instanceAt?_of_instance closed.toWellFormed known isCopy,
      List.forall₂_iff_zip.mpr ⟨arity, fun {parameter argument} isPair => ?_⟩⟩
    exact .argument (argument?_of_mem_zip (closed.distinct genericKnown) isPair)
  | @whole _ whole _ foreign wholeKnown uncopied =>
    exact ⟨other, whole, whole.parameters, whole.parameters, wholeKnown, uncopied,
      atOwn wholeKnown, atOwn wholeKnown, List.forall₂_same.mpr fun _ isParameter =>
        closed.specializes_parameter known isCopy genericKnown foreign wholeKnown isParameter⟩
  | @made _ origin _ source arguments _ sourceKnown sourceCopy same each found =>
    obtain ⟨-, whole, wholeKnown, uncopied, -⟩ := closed.copied sourceKnown sourceCopy
    exact ⟨origin, whole, source.arguments, arguments, wholeKnown, uncopied,
      Registration.instanceAt?_of_instance closed.toWellFormed sourceKnown sourceCopy, found,
      List.forall₂_iff_zip.mpr ⟨same, fun isPair => each _ isPair⟩⟩

/-- What is not replaced in a type that stands for another is not replaced in the instance: a
parameter of the definition is mentioned by the definition only, which replaces it. -/
theorem Beside.kept_of_neutral {origin source : TypeId} {whole : TypeEntry}
    {arguments : List TypeId} (wholeKnown : registry.type? origin = some whole)
    (arity : whole.parameters.length = arguments.length)
    (neutral : registry.Neutral definition origin source)
    (kept : Substitution.argument? (whole.parameters.zip arguments) source = none) :
    substitution.argument? source = none := by
  have closed := beside.built.complete.toClosed
  cases replaced : substitution.argument? source with
  | none => rfl
  | some argument =>
    obtain ⟨copied, generic, -, -, genericKnown, rfl⟩ := beside.copied
    have isParameter := (List.of_mem_zip (mem_of_argument? replaced)).1
    obtain ⟨placed, placedKnown, placedIs⟩ := closed.parameters genericKnown isParameter
    obtain rfl := neutral.own .self placedKnown placedIs
    cases genericKnown.symm.trans wholeKnown
    obtain ⟨place, bound, rfl⟩ := List.mem_iff_getElem.mp isParameter
    have isPair := getElem_mem_zip bound (arity ▸ bound : place < arguments.length)
    cases kept.symm.trans (argument?_of_mem_zip (closed.distinct wholeKnown) isPair)

/-- What a type becomes at what arguments should become is what it should become at the arguments,
by induction on what it becomes. -/
theorem Beside.specializes_of_becomes {origin source first second : TypeId} {whole : TypeEntry}
    {arguments others : List TypeId} (wholeKnown : registry.type? origin = some whole)
    (arity : whole.parameters.length = arguments.length)
    (each : List.Forall₂ (registry.Specializes substitution definition type) arguments others)
    (becomes : registry.Becomes (whole.parameters.zip arguments) source first)
    (becomes' : registry.Becomes (whole.parameters.zip others) source second)
    (neutral : registry.Neutral definition origin source) :
    registry.Specializes substitution definition type first second := by
  have closed := beside.built.complete.toClosed
  have related (source : TypeId) := @argument?_related _ whole.parameters _ _ each source
  induction becomes generalizing second with
  | @argument source first replaced =>
    have related := related source
    rw [replaced] at related
    cases becomes' with
    | argument replaced' =>
      rw [replaced'] at related
      exact Option.rel_some_some.mp related
    | whole kept | made kept =>
      rw [kept] at related
      cases related
  | @whole source entry kept known uncopied =>
    have related := related source
    rw [kept] at related
    have stays : second = source := by
      cases becomes' with
      | argument replaced' =>
        rw [replaced'] at related
        cases related
      | whole => rfl
      | made _ known' isCopy =>
        cases known.symm.trans known'
        cases uncopied.symm.trans isCopy
    rw [stays]
    exact .whole (beside.kept_of_neutral wholeKnown arity neutral kept)
      (fun same => neutral.foreign (same ▸ .self)) known uncopied
  | @made source generic first entry firsts kept known isCopy same each' found ih =>
    have related := related source
    rw [kept] at related
    cases becomes' with
    | argument replaced' =>
      rw [replaced'] at related
      cases related
    | whole _ known' uncopied =>
      cases known.symm.trans known'
      cases isCopy.symm.trans uncopied
    | @made _ _ _ _ seconds _ known' isCopy' same' each'' found' =>
      cases known.symm.trans known'
      cases isCopy.symm.trans isCopy'
      obtain ⟨-, origin', originKnown, uncopied, -, -, isGeneric⟩ := closed.copied known isCopy
      refine beside.specializes_of_instanceAt? originKnown uncopied
        (closed.not_parameter_of_generic originKnown isGeneric) found ?_ found'
      have left : List.Forall₂ (fun argument first => ∀ {second},
          registry.Becomes (whole.parameters.zip others) argument second →
            registry.Neutral definition origin argument →
              registry.Specializes substitution definition type first second)
          entry.arguments firsts :=
        List.forall₂_iff_zip.mpr ⟨same, fun isPair => ih _ isPair⟩
      have right := List.forall₂_iff_zip.mpr ⟨same', fun {_ _} isPair => each'' _ isPair⟩
      exact forall₂_of_common left right fun argument isArgument _ _ _ isFirst isSecond =>
        isFirst isSecond (neutral.argument known isCopy isArgument)

/-- What stands where enumeration looks at a type that is no instance is neutral. -/
theorem Beside.neutral {origin found : TypeId} {whole : TypeEntry} {place : Place}
    (wholeKnown : registry.type? origin = some whole) (uncopied : whole.definition = none)
    (looksAt : registry.LooksAt origin place)
    (atPlace : registry.typeAt? origin place = some found) :
    registry.Neutral definition origin found where
  foreign := beside.unmentioned wholeKnown uncopied looksAt atPlace
  own mentions placedKnown placedIs :=
    beside.orderly.own wholeKnown uncopied atPlace mentions placedKnown placedIs

/-- What twins have of their own are twins. -/
theorem Beside.entryTwin {other result : TypeId} {part copy : TypeEntry}
    (twin : registry.Twin substitution definition type other result)
    (known : registry.type? other = some part) (resultKnown : registry.type? result = some copy) :
    registry.EntryTwin substitution definition type part copy := by
  have closed := beside.built.complete.toClosed
  have sound := beside.built.reached.sound
  obtain ⟨origin, whole, arguments, others, wholeKnown, uncopied, isOther, isResult, each⟩ :=
    beside.exists_common twin
  have first := reflects_of_instanceAt? closed sound wholeKnown known isOther
  have second := reflects_of_instanceAt? closed sound wholeKnown resultKnown isResult
  have arity := closed.arity_of_instanceAt? wholeKnown isOther
  have specializes {place : Place} {found now later : TypeId}
      (atPlace : registry.typeAt? origin place = some found)
      (looksAt : registry.LooksAt origin place)
      (becomes : registry.Becomes (whole.parameters.zip arguments) found now)
      (becomes' : registry.Becomes (whole.parameters.zip others) found later) :
      registry.Specializes substitution definition type now later :=
    beside.specializes_of_becomes wholeKnown arity each becomes becomes'
      (beside.neutral wholeKnown uncopied looksAt atPlace)
  exact {
    flags := second.flags.trans first.flags.symm
    base := by
      refine rel_of_common first.base second.base
        fun base isBase now isNow later becomes becomes' => ?_
      have atPlace : registry.typeAt? origin .base = some base := by
        rw [typeAt?, wholeKnown, Option.bind_some, isBase]
      obtain ⟨found, foundKnown⟩ := has_iff.mp (closed.bases known isNow)
      exact ⟨specializes atPlace trivial becomes becomes',
        beside.suits.kept foundKnown (beside.orderly.bases known isNow foundKnown)⟩
    interfaces := by
      refine forall₂_of_common first.interfaces second.interfaces
        fun interface isListed now isNow later becomes becomes' => ?_
      obtain ⟨position, bound, rfl⟩ := List.mem_iff_getElem.mp isListed
      have atPlace : registry.typeAt? origin (.interface position) =
          some whole.interfaces[position] := by
        rw [typeAt?, interfacesOf, wholeKnown]
        exact List.getElem?_eq_getElem bound
      obtain ⟨found, foundKnown, isInterface⟩ := closed.interfaces known isNow
      exact ⟨specializes atPlace trivial becomes becomes',
        beside.suits.kept foundKnown (closed.not_parameter foundKnown isInterface)⟩
    members := by
      refine forall₂_of_common first.members second.members
        fun member isListed now isNow later isFirst isSecond => ?_
      obtain ⟨position, bound, rfl⟩ := List.mem_iff_getElem.mp isListed
      obtain ⟨given, source, givenKnown, sourceKnown, alike, becomes⟩ := isFirst
      obtain ⟨given', made, givenKnown', madeKnown, alike', becomes'⟩ := isSecond
      cases givenKnown.symm.trans givenKnown'
      have atMember : registry.memberEntryAt? origin position = some given := by
        rw [memberEntryAt?, membersOf, wholeKnown]
        exact Option.bind_eq_some_iff.mpr ⟨_, List.getElem?_eq_getElem bound, givenKnown⟩
      have atPlace : registry.typeAt? origin (.value position) = some given.valueType :=
        Option.map_eq_some_iff.mpr ⟨given, atMember, rfl⟩
      refine ⟨source, made, sourceKnown, madeKnown, ⟨alike'.name.trans alike.name.symm,
        alike'.flags.trans alike.flags.symm, alike'.arity.trans alike.arity.symm⟩,
        fun isLooked => ?_⟩
      exact specializes atPlace ⟨given, atMember, alike.name ▸ isLooked⟩ becomes becomes' }

/-- Twins are registered. -/
theorem Beside.twins_has {other result : TypeId}
    (twin : registry.Twin substitution definition type other result) :
    registry.Has other ∧ registry.Has result := by
  have has {origin found : TypeId} {arguments : List TypeId}
      (foundAt : registry.instanceAt? origin arguments = some found) : registry.Has found := by
    rcases beside.built.complete.instanceAt?_cases foundAt with ⟨rfl, whole, known, -⟩ |
      ⟨entry, known, -⟩ <;> exact has_iff.mpr ⟨_, known⟩
  obtain ⟨_, _, _, _, -, -, isOther, isResult, -⟩ := beside.exists_common twin
  exact ⟨has isOther, has isResult⟩

/-- Twins stand for the same types that are no instances. -/
theorem Beside.standsFor_eq {other result generic : TypeId} {entry : TypeEntry}
    (twin : registry.Twin substitution definition type other result)
    (known : registry.type? generic = some entry) (isWhole : entry.definition = none) :
    registry.standsFor generic result = registry.standsFor generic other := by
  have formed := beside.built.complete.toWellFormed
  obtain ⟨origin, whole, _, _, wholeKnown, uncopied, isOther, isResult, -⟩ :=
    beside.exists_common twin
  rw [Bool.eq_iff_iff,
    formed.standsFor_of_instanceAt? wholeKnown uncopied known isWhole isResult,
    formed.standsFor_of_instanceAt? wholeKnown uncopied known isWhole isOther]

/-- A type without parameters that is no instance is its own twin only. -/
theorem Beside.eq_iff_of_plain {other result plain : TypeId} {entry : TypeEntry}
    (twin : registry.Twin substitution definition type other result)
    (known : registry.type? plain = some entry) (isWhole : entry.definition = none)
    (noParameters : entry.parameters = []) : result = plain ↔ other = plain := by
  have formed := beside.built.complete.toWellFormed
  obtain ⟨origin, whole, _, _, wholeKnown, uncopied, isOther, isResult, -⟩ :=
    beside.exists_common twin
  -- What stands for the type stands for it at no arguments, so it is the type itself.
  have same {found : TypeId} {types : List TypeId}
      (foundAt : registry.instanceAt? origin types = some found) :
      found = plain ↔ origin = plain := by
    rw [← formed.standsFor_of_instanceAt? wholeKnown uncopied known isWhole foundAt, standsFor,
      Bool.or_eq_true, decide_eq_true_eq, decide_eq_true_eq]
    refine (or_iff_left fun isInstance => ?_).symm
    obtain ⟨copied, copiedKnown, isCopy⟩ := Option.bind_eq_some_iff.mp isInstance
    obtain ⟨-, whole', wholeKnown', -, arity, differs, -⟩ := formed.copied copiedKnown isCopy
    cases known.symm.trans wholeKnown'
    rw [noParameters] at arity differs
    exact differs (List.eq_nil_of_length_eq_zero arity.symm).symm
  rw [same isResult, same isOther]

end Beside

end Foreach.Registry
