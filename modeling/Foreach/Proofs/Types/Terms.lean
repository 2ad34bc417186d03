import Foreach.Proofs.Types.Commuting

/-!
# Types written out

A type can be written out: a type that is no instance by its handle, and an instance by its
definition and its arguments written out (`TypeTerm`). A registered type has one spelling, which
follows its entry (`Registry.Spells`). More terms denote it, since a generic definition stands for
its instance at its own parameters as well (`Registry.Denotes`).

Terms can also be written for instances that are not registered, and parameters can be replaced in
them without a registry. What a type becomes under a substitution is what its spelling denotes once
the arguments are written in it (`Spells.denotes_iff_becomes`).
-/
namespace Foreach

/-- A type written out. -/
inductive TypeTerm where
  /-- A type that is no instance. -/
  | whole (type : TypeId)
  /-- The instance of a definition at arguments. -/
  | made (definition : TypeId) (arguments : List TypeTerm)

namespace TypeTerm

/-- What holds of types that are no instances, and of an instance if it holds of its arguments,
holds of every term. -/
@[induction_eliminator]
theorem induct {holds : TypeTerm → Prop} (whole : ∀ type, holds (.whole type))
    (made : ∀ definition arguments, (∀ argument ∈ arguments, holds argument) →
      holds (.made definition arguments)) : ∀ term, holds term
  | .whole type => whole type
  | .made definition arguments =>
    made definition arguments fun argument _ => induct whole made argument

/-- Write a term for each type that is no instance. -/
def replace (written : TypeId → TypeTerm) : TypeTerm → TypeTerm
  | .whole type => written type
  | .made definition arguments =>
    .made definition (arguments.map fun argument => replace written argument)

/-- The terms that are written for types: arguments for parameters, and each other type itself. -/
def written (parameters : List TypeId) (arguments : List TypeTerm) (type : TypeId) : TypeTerm :=
  (((parameters.zip arguments).find? fun pair => pair.1 = type).map Prod.snd).getD (.whole type)

/-- A term for a type that is no instance is replaced by what is written for the type. -/
@[simp] theorem replace_whole (written : TypeId → TypeTerm) (type : TypeId) :
    replace written (.whole type) = written type := by
  rw [replace]

/-- A term for an instance is replaced by one for the instance at the replaced arguments. -/
@[simp] theorem replace_made (written : TypeId → TypeTerm) (definition : TypeId)
    (arguments : List TypeTerm) :
    replace written (.made definition arguments) =
      .made definition (arguments.map (replace written)) := by
  rw [replace]

end TypeTerm

namespace Registry

/-- A term follows the entries of a type and of its arguments. -/
inductive Spells (registry : Registry) : TypeTerm → TypeId → Prop where
  /-- A type that is no instance is spelled by its handle. -/
  | whole {type : TypeId} {entry : TypeEntry} (known : registry.type? type = some entry)
    (uncopied : entry.definition = none) : Spells registry (.whole type) type
  /-- An instance is spelled by its definition and the spellings of its arguments. -/
  | made {type definition : TypeId} {entry : TypeEntry} {terms : List TypeTerm}
    (known : registry.type? type = some entry) (copied : entry.definition = some definition)
    (same : terms.length = entry.arguments.length)
    (each : ∀ pair ∈ terms.zip entry.arguments, Spells registry pair.1 pair.2) :
    Spells registry (.made definition terms) type

/-- A term stands for a registered type. -/
inductive Denotes (registry : Registry) : TypeTerm → TypeId → Prop where
  /-- A type that is no instance stands for itself. -/
  | whole {type : TypeId} {entry : TypeEntry} (known : registry.type? type = some entry)
    (uncopied : entry.definition = none) : Denotes registry (.whole type) type
  /-- A generic definition at arguments stands for the instance there. -/
  | made {definition result : TypeId} {entry : TypeEntry} {terms : List TypeTerm}
    {arguments : List TypeId} (known : registry.type? definition = some entry)
    (generic : entry.flags.genericDefinition = true) (same : terms.length = arguments.length)
    (each : ∀ pair ∈ terms.zip arguments, Denotes registry pair.1 pair.2)
    (found : registry.instanceAt? definition arguments = some result) :
    Denotes registry (.made definition terms) result

/-- Terms stand for registered types, in order. -/
abbrev DenotesEach (registry : Registry) : List TypeTerm → List TypeId → Prop :=
  List.Forall₂ registry.Denotes

/-- What is written for a type stands for what a substitution replaces the type by. Instances are
not replaced themselves. -/
structure Assigns (registry : Registry) (written : TypeId → TypeTerm)
    (substitution : Substitution) : Prop where
  /-- What is written for a replaced type stands for its argument. -/
  replaced : ∀ {type argument}, substitution.argument? type = some argument →
    registry.Denotes (written type) argument
  /-- What is not replaced is written as it is. -/
  kept : ∀ {type}, substitution.argument? type = none → written type = .whole type
  /-- What is replaced is registered and no instance. -/
  plain : ∀ {type argument}, substitution.argument? type = some argument →
    ∃ entry, registry.type? type = some entry ∧ entry.definition = none

/-- What follows from one relation at the middle of two lists holds between their ends. -/
theorem forall₂_chain {α β γ : Type} {middle : β → γ → Prop} {outer : α → γ → Prop}
    {first : List α} {second : List β} {third : List γ}
    (each : List.Forall₂ (fun left centre => ∀ ⦃right⦄, middle centre right → outer left right)
      first second)
    (others : List.Forall₂ middle second third) : List.Forall₂ outer first third := by
  induction each generalizing third with
  | nil =>
    cases others
    exact .nil
  | cons head _ ih =>
    cases others with
    | cons holds rest => exact .cons (head holds) (ih rest)

section Terms

variable {registry later earlier : Registry} {term : TypeTerm} {type result : TypeId}

/-- A term stands for one type at most, by induction on what it stands for. -/
theorem Denotes.unique {other : TypeId} (first : registry.Denotes term result)
    (second : registry.Denotes term other) : result = other := by
  induction first generalizing other with
  | whole =>
    cases second with
    | whole => rfl
  | @made _ _ _ terms arguments known generic same each found ih =>
    cases second with
    | @made _ _ _ _ others _ _ same' each' found' =>
      have equal : arguments = others := by
        refine List.ext_getElem (same.symm.trans same') fun place bound bound' => ?_
        have inTerms := Nat.lt_of_lt_of_eq bound same.symm
        exact ih _ (getElem_mem_zip inTerms bound) (each' _ (getElem_mem_zip inTerms bound'))
      rw [equal] at found
      exact Option.some.inj (found.symm.trans found')

/-- Terms stand for one list of types at most. -/
theorem DenotesEach.unique {terms : List TypeTerm} {types others : List TypeId}
    (first : registry.DenotesEach terms types) (second : registry.DenotesEach terms others) :
    types = others := by
  induction first generalizing others with
  | nil =>
    cases second
    rfl
  | cons head _ ih =>
    cases second with
    | cons head' rest' => rw [head.unique head', ih rest']

/-- A term stands for a type ever after. -/
theorem Denotes.grow (kept : later.Keeps earlier) (denotes : earlier.Denotes term type) :
    later.Denotes term type := by
  induction denotes with
  | whole known uncopied =>
    obtain ⟨changed, reached, continued⟩ := kept.entries known
    exact .whole reached (continued.definition.trans uncopied)
  | made known generic same each found ih =>
    obtain ⟨changed, reached, continued⟩ := kept.entries known
    exact .made reached (continued.flags ▸ generic) same ih (kept.instanceAt? found)

/-- Terms stand for types ever after. -/
theorem DenotesEach.grow (kept : later.Keeps earlier) {terms : List TypeTerm}
    {types : List TypeId} (each : earlier.DenotesEach terms types) :
    later.DenotesEach terms types := each.imp fun _ _ => Denotes.grow kept

/-- A generic definition at terms stands for the instance at what the terms stand for. -/
theorem DenotesEach.made {definition : TypeId} {entry : TypeEntry} {terms : List TypeTerm}
    {arguments : List TypeId} (each : registry.DenotesEach terms arguments)
    (known : registry.type? definition = some entry)
    (generic : entry.flags.genericDefinition = true)
    (found : registry.instanceAt? definition arguments = some result) :
    registry.Denotes (.made definition terms) result := by
  obtain ⟨same, pairs⟩ := List.forall₂_iff_zip.mp each
  exact .made known generic same (fun _ isPair => pairs isPair) found

/-- A term for an instance stands for the instance at what its arguments stand for. -/
theorem Denotes.arguments {definition : TypeId} {terms : List TypeTerm}
    (denotes : registry.Denotes (.made definition terms) result) :
    ∃ entry arguments, registry.type? definition = some entry ∧
      entry.flags.genericDefinition = true ∧ registry.DenotesEach terms arguments ∧
        registry.instanceAt? definition arguments = some result := by
  cases denotes with
  | made known generic same each found =>
    exact ⟨_, _, known, generic, List.forall₂_iff_zip.mpr ⟨same, fun isPair => each _ isPair⟩,
      found⟩

/-- What follows the entries of a type stands for it. -/
theorem Spells.denotes (formed : registry.WellFormed) (spells : registry.Spells term type) :
    registry.Denotes term type := by
  induction spells with
  | whole known uncopied => exact .whole known uncopied
  | made known copied same each ih =>
    obtain ⟨-, whole, wholeKnown, -, -, -, generic⟩ := formed.copied known copied
    exact .made wholeKnown generic same ih
      (Registration.instanceAt?_of_instance formed known copied)

/-- If each of some types has a term, the types have terms in order. -/
theorem exists_forall₂ {related : TypeTerm → TypeId → Prop} {types : List TypeId}
    (each : ∀ type ∈ types, ∃ term, related term type) :
    ∃ terms, List.Forall₂ related terms types := by
  induction types with
  | nil => exact ⟨[], .nil⟩
  | cons type rest ih =>
    obtain ⟨term, head⟩ := each type (List.mem_cons_self ..)
    obtain ⟨terms, tail⟩ := ih fun other inRest => each other (List.mem_cons_of_mem _ inRest)
    exact ⟨term :: terms, .cons head tail⟩

/-- What a term stands for is registered. -/
theorem Denotes.has (formed : registry.WellFormed) (denotes : registry.Denotes term type) :
    registry.Has type := by
  cases denotes with
  | whole known => exact has_iff.mpr ⟨_, known⟩
  | made known generic same each found =>
    rcases formed.instanceAt?_cases found with ⟨rfl, -⟩ | ⟨entry, reached, -⟩
    · exact has_iff.mpr ⟨_, known⟩
    · exact has_iff.mpr ⟨entry, reached⟩

/-- What terms stand for is registered. -/
theorem DenotesEach.has (formed : registry.WellFormed) {terms : List TypeTerm}
    {types : List TypeId} (each : registry.DenotesEach terms types) :
    ∀ type ∈ types, registry.Has type := by
  intro type isType
  obtain ⟨place, bound, rfl⟩ := List.mem_iff_getElem.mp isType
  exact (each.get (Nat.lt_of_lt_of_eq bound each.length_eq.symm) bound).has formed

/-- Every registered type can be written out, by induction on its position. -/
theorem Closed.exists_spells (closed : registry.Closed) (has : registry.Has type) :
    ∃ term, registry.Spells term type := by
  induction index : type.index using Nat.strongRecOn generalizing type with
  | ind position ih =>
    obtain ⟨entry, known⟩ := has_iff.mp has
    cases origin : entry.definition with
    | none => exact ⟨.whole type, .whole known origin⟩
    | some definition =>
      have each : ∀ argument ∈ entry.arguments, ∃ term, registry.Spells term argument := by
        intro argument isArgument
        have isOlder : argument.index < position := index ▸ closed.older known isArgument
        exact ih argument.index isOlder (closed.arguments known isArgument) rfl
      obtain ⟨terms, spelled⟩ := exists_forall₂ each
      obtain ⟨same, pairs⟩ := List.forall₂_iff_zip.mp spelled
      exact ⟨.made definition terms, .made known origin same fun _ isPair => pairs isPair⟩

/-- The spelling of a type is its spelling ever after. -/
theorem Spells.grow (grown : later.Grows earlier) (spells : earlier.Spells term type) :
    later.Spells term type := by
  induction spells with
  | whole known uncopied =>
    obtain ⟨changed, reached, -, definition, -⟩ := grown.types known
    exact .whole reached (definition.trans uncopied)
  | made known copied same each ih =>
    obtain ⟨changed, reached, -, definition, arguments, -⟩ := grown.types known
    rw [← arguments] at same ih
    exact .made reached (definition.trans copied) same ih

/-- What a substitution assigns, it assigns ever after. -/
theorem Assigns.grow (kept : later.Keeps earlier) {written : TypeId → TypeTerm}
    {substitution : Substitution} (assigns : earlier.Assigns written substitution) :
    later.Assigns written substitution where
  replaced isReplaced := (assigns.replaced isReplaced).grow kept
  kept := assigns.kept
  plain isReplaced := by
    obtain ⟨entry, known, uncopied⟩ := assigns.plain isReplaced
    obtain ⟨changed, reached, continued⟩ := kept.entries known
    exact ⟨changed, reached, continued.definition.trans uncopied⟩

/-- An instance is not replaced itself. -/
theorem Assigns.instance_kept {written : TypeId → TypeTerm} {substitution : Substitution}
    (assigns : registry.Assigns written substitution) {entry : TypeEntry} {definition : TypeId}
    (known : registry.type? type = some entry) (copied : entry.definition = some definition) :
    substitution.argument? type = none := by
  cases replaced : substitution.argument? type with
  | none => rfl
  | some argument =>
    obtain ⟨found, known', uncopied⟩ := assigns.plain replaced
    cases known.symm.trans known'
    cases copied.symm.trans uncopied

section Replacing

variable {written : TypeId → TypeTerm} {substitution : Substitution}
  (assigns : registry.Assigns written substitution) (spells : registry.Spells term type)
include assigns spells

/-- What a type becomes is what its spelling stands for once arguments are written in it, by
induction on the spelling. -/
theorem Spells.denotes_of_becomes (formed : registry.WellFormed)
    (becomes : registry.Becomes substitution type result) :
    registry.Denotes (term.replace written) result := by
  induction spells generalizing result with
  | whole known uncopied =>
    rw [TypeTerm.replace_whole]
    cases becomes with
    | argument replaced => exact assigns.replaced replaced
    | whole kept =>
      rw [assigns.kept kept]
      exact .whole known uncopied
    | made _ known' copied =>
      cases known.symm.trans known'
      cases uncopied.symm.trans copied
  | @made type definition entry terms known copied same each ih =>
    rw [TypeTerm.replace_made]
    cases becomes with
    | argument replaced => cases (assigns.instance_kept known copied).symm.trans replaced
    | whole _ known' uncopied =>
      cases known.symm.trans known'
      cases uncopied.symm.trans copied
    | @made _ _ _ _ arguments _ known' copied' same' each' found =>
      cases known.symm.trans known'
      cases copied.symm.trans copied'
      obtain ⟨-, whole, wholeKnown, -, -, -, generic⟩ := formed.copied known copied
      have spelled : List.Forall₂ (fun term type => ∀ ⦃result⦄,
          registry.Becomes substitution type result →
            registry.Denotes (term.replace written) result) terms entry.arguments :=
        List.forall₂_iff_zip.mpr ⟨same, fun isPair _ becomes => ih _ isPair becomes⟩
      have become : List.Forall₂ (registry.Becomes substitution) entry.arguments arguments :=
        List.forall₂_iff_zip.mpr ⟨same', fun isPair => each' _ isPair⟩
      have denoted : registry.DenotesEach (terms.map (TypeTerm.replace written)) arguments :=
        List.forall₂_map_left_iff.mpr (forall₂_chain spelled become)
      exact denoted.made wholeKnown generic found

end Replacing

end Terms

section Written

variable {registry : Registry} {terms : List TypeTerm} {arguments : List TypeId}

/-- What is written for a type is the term of the argument that replaces it, if any, and else the
type itself. -/
theorem DenotesEach.written (each : registry.DenotesEach terms arguments)
    (parameters : List TypeId) (type : TypeId) :
    (∀ argument, Substitution.argument? (parameters.zip arguments) type = some argument →
      registry.Denotes (TypeTerm.written parameters terms type) argument) ∧
    (Substitution.argument? (parameters.zip arguments) type = none →
      TypeTerm.written parameters terms type = .whole type) := by
  induction parameters generalizing terms arguments with
  | nil => exact ⟨fun _ replaced => (by cases replaced), fun _ => rfl⟩
  | cons parameter rest ih =>
    cases each with
    | nil => exact ⟨fun _ replaced => (by cases replaced), fun _ => rfl⟩
    | cons head tail =>
      simp only [List.zip_cons_cons, Substitution.argument?, TypeTerm.written, List.find?_cons]
      cases decide (parameter = type) with
      | true =>
        refine ⟨fun argument replaced => ?_, fun kept => by cases kept⟩
        cases replaced
        exact head
      | false => exact ih tail

/-- The parameters of a definition are assigned what stands for arguments. -/
theorem DenotesEach.assigns (closed : registry.Closed)
    (each : registry.DenotesEach terms arguments) {definition : TypeId} {entry : TypeEntry}
    (known : registry.type? definition = some entry) :
    registry.Assigns (TypeTerm.written entry.parameters terms)
      (entry.parameters.zip arguments) where
  replaced {type argument} replaced := (each.written entry.parameters type).1 argument replaced
  kept {type} := (each.written entry.parameters type).2
  plain {type argument} replaced := by
    obtain ⟨placed, placedKnown, isParameter⟩ :=
      closed.parameters known (List.of_mem_zip (mem_of_argument? replaced)).1
    exact ⟨placed, placedKnown, (closed.placeholders placedKnown isParameter.flags).2⟩

end Written

end Registry

end Foreach
