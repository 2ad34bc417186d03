import Mathlib.Data.Set.Finite.Lattice
import Mathlib.Data.Finite.Prod
import Foreach.Proofs.Types.Additions
import Foreach.Proofs.Types.Terms

/-!
# What registration demands

Where an instance is needed, its arguments are needed, and so is whatever its definition refers to,
with the arguments written for the parameters (`Registry.Demands`). What is demanded is found by
writing terms, without registering anything.

In a registry in which every instance is supplied, what is demanded of registered types is
registered. Only finitely many terms stand for registered types, so a demand that can be met is
finite.
-/
namespace Foreach.Registry

/-- What some terms demand. -/
inductive Demands (registry : Registry) (start : Set TypeTerm) : TypeTerm → Prop where
  /-- The terms themselves are demanded. -/
  | start {term : TypeTerm} (isStart : term ∈ start) : Demands registry start term
  /-- With an instance its arguments are demanded. -/
  | part {definition : TypeId} {arguments : List TypeTerm} {argument : TypeTerm}
    (whole : Demands registry start (.made definition arguments))
    (isPart : argument ∈ arguments) : Demands registry start argument
  /-- With an instance, whatever its definition refers to is demanded. -/
  | content {definition reference : TypeId} {arguments : List TypeTerm} {entry : TypeEntry}
    {term : TypeTerm} (whole : Demands registry start (.made definition arguments))
    (known : registry.type? definition = some entry)
    (isReference : reference ∈ registry.references entry)
    (spells : registry.Spells term reference) :
    Demands registry start (term.replace (TypeTerm.written entry.parameters arguments))

/-- If finitely many terms are related to each element of a list, finitely many lists of terms are
related to the list. -/
theorem finite_forall₂ {α : Type} {related : TypeTerm → α → Prop} {elements : List α}
    (each : ∀ element ∈ elements, {term | related term element}.Finite) :
    {terms | List.Forall₂ related terms elements}.Finite := by
  induction elements with
  | nil =>
    refine (Set.finite_singleton []).subset fun terms relatedEach => ?_
    cases relatedEach
    rfl
  | cons element rest ih =>
    have head := each element (List.mem_cons_self ..)
    have tail := ih fun other inRest => each other (List.mem_cons_of_mem _ inRest)
    refine (head.image2 List.cons tail).subset fun terms relatedEach => ?_
    cases relatedEach with
    | cons first others => exact Set.mem_image2_of_mem first others

section Finite

variable {registry : Registry} {term : TypeTerm} {type : TypeId}

/-- A generic parameter is written in one way. -/
theorem Closed.denotes_parameter (closed : registry.Closed) {placed : TypeEntry}
    (known : registry.type? type = some placed) (isParameter : placed.flags.genericParameter = true)
    (denotes : registry.Denotes term type) : term = .whole type := by
  obtain ⟨flags, uncopied⟩ := closed.placeholders known isParameter
  cases denotes with
  | whole => rfl
  | made definitionKnown generic same each found =>
    rcases closed.instanceAt?_cases found with ⟨rfl, -⟩ | ⟨entry, reached, isCopy, -⟩
    · cases known.symm.trans definitionKnown
      rw [flags] at generic
      cases generic
    · cases known.symm.trans reached
      cases uncopied.symm.trans isCopy

/-- A type is written in finitely many ways, by induction on its position: its arguments are older,
and the parameters of a definition are written in one way. -/
theorem Closed.finite_denotes (closed : registry.Closed) (type : TypeId) :
    {term | registry.Denotes term type}.Finite := by
  induction index : type.index using Nat.strongRecOn generalizing type with
  | ind position ih =>
    cases found : registry.type? type with
    | none =>
      refine Set.finite_empty.subset fun term denotes => ?_
      obtain ⟨entry, known⟩ := has_iff.mp (denotes.has closed.toWellFormed)
      cases found.symm.trans known
    | some entry =>
      have parameters : {terms | registry.DenotesEach terms entry.parameters}.Finite := by
        refine finite_forall₂ fun parameter isListed => ?_
        obtain ⟨placed, placedKnown, isParameter⟩ := closed.parameters found isListed
        exact (Set.finite_singleton (TypeTerm.whole parameter)).subset fun term denotes =>
          closed.denotes_parameter placedKnown isParameter.flags denotes
      have arguments : {terms | registry.DenotesEach terms entry.arguments}.Finite := by
        refine finite_forall₂ fun argument isArgument => ?_
        exact ih argument.index (index ▸ closed.older found isArgument) argument rfl
      have all := ((Set.finite_singleton (TypeTerm.whole type)).union
        (parameters.image (TypeTerm.made type))).union
          (arguments.image (TypeTerm.made (entry.definition.getD type)))
      refine all.subset fun term denotes => ?_
      cases denotes with
      | whole => exact .inl (.inl rfl)
      | made known generic same each found' =>
        have denoted := List.forall₂_iff_zip.mpr ⟨same, fun isPair => each _ isPair⟩
        rcases closed.instanceAt?_cases found' with
          ⟨rfl, whole, wholeKnown, rfl⟩ | ⟨made, reached, isCopy, rfl⟩
        · cases found.symm.trans wholeKnown
          exact .inl (.inr ⟨_, denoted, rfl⟩)
        · cases found.symm.trans reached
          refine .inr ⟨_, denoted, ?_⟩
          rw [isCopy, Option.getD_some]

/-- Only finitely many terms stand for registered types. -/
theorem Closed.finite_denoted (closed : registry.Closed) :
    {term | ∃ type, registry.Denotes term type}.Finite := by
  have types : {type | registry.Has type}.Finite := by
    refine ((Set.finite_lt_nat registry.size).image TypeId.mk).subset fun type has => ?_
    exact ⟨type.index, has, rfl⟩
  refine (types.biUnion fun type _ => closed.finite_denotes type).subset ?_
  rintro term ⟨type, denotes⟩
  exact Set.mem_biUnion (denotes.has closed.toWellFormed) denotes

end Finite

section Meeting

variable {before after : Registry}

/-- Where every instance is supplied, what a definition refers to is written for a registered type
once arguments of an instance are written in it. -/
theorem AllSupplied.denotes_content (supplied : after.AllSupplied) (closed : after.Closed)
    {definition reference type : TypeId} {entry : TypeEntry} {arguments : List TypeTerm}
    {term : TypeTerm} (denotes : after.Denotes (.made definition arguments) type)
    (known : after.type? definition = some entry)
    (isReference : reference ∈ after.references entry) (spells : after.Spells term reference) :
    ∃ result,
      after.Denotes (term.replace (TypeTerm.written entry.parameters arguments)) result := by
  obtain ⟨entry', types, known', generic, denoted, found⟩ := denotes.arguments
  cases known.symm.trans known'
  have assigns := denoted.assigns closed known
  have becomes : ∃ result, after.Becomes (entry.parameters.zip types) reference result := by
    rcases closed.instanceAt?_cases found with
      ⟨-, whole, wholeKnown, rfl⟩ | ⟨made, reached, isCopy, rfl⟩
    · -- The definition itself refers to what it refers to.
      cases known.symm.trans wholeKnown
      exact ⟨reference, closed.becomes_self _ (closed.references_has known isReference)⟩
    · exact supplied reached isCopy known not_false reference isReference
  obtain ⟨result, becomes⟩ := becomes
  exact ⟨result, spells.denotes_of_becomes assigns closed.toWellFormed becomes⟩

/-- What terms for registered types demand is registered where every instance is supplied. -/
theorem Demands.denoted {start : Set TypeTerm} {term : TypeTerm}
    (demands : before.Demands start term) (closed : before.Closed) (complete : after.Complete)
    (supplied : after.AllSupplied) (proceeds : after.Proceeds before)
    (registered : ∀ term ∈ start, ∃ type, after.Denotes term type) :
    ∃ type, after.Denotes term type := by
  induction demands with
  | start isStart => exact registered _ isStart
  | part whole isPart ih =>
    obtain ⟨type, denotes⟩ := ih
    obtain ⟨-, types, -, -, denoted, -⟩ := denotes.arguments
    obtain ⟨place, bound, rfl⟩ := List.mem_iff_getElem.mp isPart
    exact ⟨_, denoted.get bound (Nat.lt_of_lt_of_eq bound denoted.length_eq)⟩
  | content whole known isReference spells ih =>
    obtain ⟨type, denotes⟩ := ih
    obtain ⟨changed, -, reached, generic, -⟩ := denotes.arguments
    obtain ⟨changed', reached', continued⟩ := proceeds.entries known
    cases reached.symm.trans reached'
    have uncopied := continued.definition.symm.trans (complete.generic reached generic)
    have left := proceeds.left known uncopied
    rw [← proceeds.toGrows.references closed known] at isReference
    exact supplied.denotes_content complete.toClosed denotes left isReference
      (spells.grow proceeds.toGrows)

/-- What can be registered is a finite demand. -/
theorem finite_demands_of_denoted {start : Set TypeTerm} (closed : before.Closed)
    (complete : after.Complete) (supplied : after.AllSupplied) (proceeds : after.Proceeds before)
    (registered : ∀ term ∈ start, ∃ type, after.Denotes term type) :
    {term | before.Demands start term}.Finite :=
  complete.finite_denoted.subset fun _ demands =>
    demands.denoted closed complete supplied proceeds registered

end Meeting

/-- A term is another in which some types that are no instances are replaced by what is written for
them. -/
inductive Varies (written : TypeId → TypeTerm) : TypeTerm → TypeTerm → Prop where
  /-- A type is left. -/
  | left (type : TypeId) : Varies written (.whole type) (.whole type)
  /-- A type is replaced. -/
  | replaced (type : TypeId) : Varies written (written type) (.whole type)
  /-- The arguments of an instance vary. -/
  | made {definition : TypeId} {terms others : List TypeTerm} (same : terms.length = others.length)
    (each : ∀ pair ∈ terms.zip others, Varies written pair.1 pair.2) :
    Varies written (.made definition terms) (.made definition others)

section Variants

variable {written : TypeId → TypeTerm}

/-- The instances at arguments that vary, vary. -/
theorem varies_made {definition : TypeId} {terms others : List TypeTerm}
    (each : List.Forall₂ (Varies written) terms others) :
    Varies written (.made definition terms) (.made definition others) := by
  obtain ⟨same, pairs⟩ := List.forall₂_iff_zip.mp each
  exact .made same fun _ isPair => pairs isPair

/-- All types of a term may be left. -/
theorem varies_refl (term : TypeTerm) : Varies written term term := by
  induction term with
  | whole type => exact .left type
  | made definition arguments ih => exact varies_made (List.forall₂_same.mpr ih)

/-- A term varies in finitely many ways. -/
theorem finite_varies (term : TypeTerm) : {other | Varies written other term}.Finite := by
  induction term with
  | whole type =>
    refine ((Set.finite_singleton (written type)).insert (.whole type)).subset
      fun other varies => ?_
    cases varies with
    | left => exact .inl rfl
    | replaced => exact .inr rfl
  | made definition arguments ih =>
    refine ((finite_forall₂ ih).image (TypeTerm.made definition)).subset fun other varies => ?_
    cases varies with
    | made same each =>
      exact ⟨_, List.forall₂_iff_zip.mpr ⟨same, fun isPair => each _ isPair⟩, rfl⟩

/-- What is written for a type varies with the arguments. -/
theorem varies_written {terms others : List TypeTerm}
    (each : List.Forall₂ (Varies written) terms others) (parameters : List TypeId)
    (type : TypeId) :
    Varies written (TypeTerm.written parameters terms type)
      (TypeTerm.written parameters others type) := by
  induction parameters generalizing terms others with
  | nil => exact .left type
  | cons parameter rest ih =>
    cases each with
    | nil => exact .left type
    | cons head tail =>
      simp only [TypeTerm.written, List.zip_cons_cons, List.find?_cons]
      cases decide (parameter = type) with
      | true => exact head
      | false => exact ih tail

/-- A term in which arguments are written varies with them, by induction on the term. -/
theorem varies_replace {terms others : List TypeTerm}
    (each : List.Forall₂ (Varies written) terms others) (parameters : List TypeId)
    (term : TypeTerm) :
    Varies written (term.replace (TypeTerm.written parameters terms))
      (term.replace (TypeTerm.written parameters others)) := by
  induction term with
  | whole type =>
    rw [TypeTerm.replace_whole, TypeTerm.replace_whole]
    exact varies_written each parameters type
  | made definition arguments ih =>
    rw [TypeTerm.replace_made, TypeTerm.replace_made]
    refine varies_made ?_
    rw [List.forall₂_map_left_iff, List.forall₂_map_right_iff]
    exact List.forall₂_same.mpr ih

/-- The argument at the place of a parameter that is listed once is written for it. -/
theorem written_of_mem_zip {parameters : List TypeId} {terms : List TypeTerm}
    (distinct : parameters.Nodup) {pair : TypeId × TypeTerm}
    (isPair : pair ∈ parameters.zip terms) :
    TypeTerm.written parameters terms pair.1 = pair.2 := by
  induction parameters generalizing terms with
  | nil => cases isPair
  | cons parameter rest ih =>
    cases terms with
    | nil => cases isPair
    | cons term others =>
      obtain ⟨absent, distinctRest⟩ := List.nodup_cons.mp distinct
      rw [List.zip_cons_cons] at isPair
      cases List.mem_cons.mp isPair with
      | inl isFirst =>
        have matched : decide (parameter = pair.1) = true := decide_eq_true (isFirst ▸ rfl)
        simp only [TypeTerm.written, List.zip_cons_cons, List.find?_cons, matched]
        exact congrArg Prod.snd isFirst.symm
      | inr inRest =>
        have unmatched : decide (parameter = pair.1) = false := by
          refine decide_eq_false fun same => absent ?_
          exact same ▸ (List.of_mem_zip inRest).1
        have there := ih distinctRest inRest
        simp only [TypeTerm.written] at there
        simp only [TypeTerm.written, List.zip_cons_cons, List.find?_cons, unmatched]
        exact there

end Variants

section Instances

variable {registry : Registry} {written : TypeId → TypeTerm} {substitution : Substitution}

/-- A term for an instance that varies from one for a registered type has arguments that vary from
those of a registered instance: it stands for a registered type itself, or it is an instance of the
same definition. -/
theorem Assigns.exists_made (assigns : registry.Assigns written substitution)
    {definition type : TypeId} {arguments : List TypeTerm} {base : TypeTerm}
    (varies : Varies written (.made definition arguments) base)
    (denotes : registry.Denotes base type) :
    ∃ others result, registry.Denotes (.made definition others) result ∧
      List.Forall₂ (Varies written) arguments others := by
  generalize isMade : TypeTerm.made definition arguments = varied at varies
  cases varies with
  | left => cases isMade
  | replaced whole =>
    cases replaced : substitution.argument? whole with
    | none =>
      rw [assigns.kept replaced] at isMade
      cases isMade
    | some argument =>
      have stands := assigns.replaced replaced
      rw [← isMade] at stands
      exact ⟨arguments, argument, stands, List.forall₂_same.mpr fun term _ => varies_refl term⟩
  | made same each =>
    cases isMade
    exact ⟨_, type, denotes, List.forall₂_iff_zip.mpr ⟨same, fun isPair => each _ isPair⟩⟩

variable {definition : TypeId} {entry : TypeEntry} {terms : List TypeTerm}
  {arguments : List TypeId} (complete : registry.Complete)
  (known : registry.type? definition = some entry)
  (generic : entry.flags.genericDefinition = true)
  (arity : entry.parameters.length = arguments.length)
  (denoted : registry.DenotesEach terms arguments)
include complete known generic arity denoted

/-- An instance of a definition varies from the definition at its own parameters. -/
theorem exists_varied : ∃ base type, registry.Denotes base type ∧
    Varies (TypeTerm.written entry.parameters terms) (.made definition terms) base := by
  have own : registry.instanceAt? definition entry.parameters = some definition := by
    rw [Registry.instanceAt?, known, Option.bind_some, if_pos rfl]
  have parameters : registry.DenotesEach (entry.parameters.map .whole) entry.parameters := by
    refine List.forall₂_map_left_iff.mpr (List.forall₂_same.mpr fun parameter isListed => ?_)
    obtain ⟨placed, placedKnown, isParameter⟩ := complete.parameters known isListed
    exact .whole placedKnown (complete.placeholders placedKnown isParameter.flags).2
  have sameLength : terms.length = entry.parameters.length := denoted.length_eq.trans arity.symm
  refine ⟨_, definition, parameters.made known generic own, varies_made ?_⟩
  refine List.forall₂_map_right_iff.mpr (List.forall₂_iff_zip.mpr ⟨sameLength, ?_⟩)
  intro term parameter isPair
  have swapped : (parameter, term) ∈ entry.parameters.zip terms := by
    rw [← List.zip_swap]
    exact List.mem_map.mpr ⟨(term, parameter), isPair, rfl⟩
  have isWritten := written_of_mem_zip (complete.distinct known) swapped
  have replaced := @Varies.replaced (TypeTerm.written entry.parameters terms) parameter
  rw [isWritten] at replaced
  exact replaced

/-- What an instance demands varies from what stands for registered types, by induction on the
demand: with the arguments, what the definitions of registered instances refer to varies. -/
theorem Demands.exists_varied (supplied : registry.AllSupplied) {term : TypeTerm}
    (demands : registry.Demands {.made definition terms} term) :
    ∃ base type, registry.Denotes base type ∧
      Varies (TypeTerm.written entry.parameters terms) term base := by
  have assigns := denoted.assigns complete.toClosed known
  induction demands with
  | start isStart =>
    rw [Set.mem_singleton_iff.mp isStart]
    exact Registry.exists_varied complete known generic arity denoted
  | part whole isPart ih =>
    obtain ⟨base, type, denotes, varies⟩ := ih
    obtain ⟨others, result, stands, vary⟩ := assigns.exists_made varies denotes
    obtain ⟨-, types, -, -, each, -⟩ := stands.arguments
    obtain ⟨place, bound, rfl⟩ := List.mem_iff_getElem.mp isPart
    have inOthers := Nat.lt_of_lt_of_eq bound vary.length_eq
    have inTypes := Nat.lt_of_lt_of_eq inOthers each.length_eq
    exact ⟨_, _, each.get inOthers inTypes, vary.get bound inOthers⟩
  | @content _ reference _ found term whole foundKnown isReference spells ih =>
    obtain ⟨base, type, denotes, varies⟩ := ih
    obtain ⟨others, result, stands, vary⟩ := assigns.exists_made varies denotes
    obtain ⟨result', stands'⟩ :=
      supplied.denotes_content complete.toClosed stands foundKnown isReference spells
    exact ⟨_, result', stands', varies_replace vary found.parameters term⟩

/-- An instance of a registered definition at registered arguments is a finite demand. -/
theorem finite_demands_instance (supplied : registry.AllSupplied) :
    {term | registry.Demands {.made definition terms} term}.Finite := by
  have all := complete.finite_denoted.biUnion fun base _ =>
    @finite_varies (TypeTerm.written entry.parameters terms) base
  refine all.subset fun term demands => ?_
  obtain ⟨base, type, denotes, varies⟩ :=
    Demands.exists_varied complete known generic arity denoted supplied demands
  exact Set.mem_biUnion ⟨type, denotes⟩ varies

end Instances

end Foreach.Registry
