import Foreach.Proofs.Types.Returning
import Foreach.Proofs.Types.Supplied
import Foreach.Proofs.Types.Twins

/-!
# What is copied to instances

A base, an interface and a member are copied to an instance in the same manner: what they refer to
is replaced, and then the instance alone is changed. `Registration.Copies` says what copying does: a
furnished registry proceeds, the instance is supplied with what the references become, and copying
returns if replacing each reference does. It is closed under sequencing, so filling a new instance
with all that its definition has is copying again (`copies_fill`).

From this follow what instantiation supplies, at every depth, and that in every registry that is
built all instances are supplied.
-/
namespace Foreach.Registration

open Registry

/-- An instance in a furnished registry can be copied to under a substitution. -/
structure Ready (registry : Registry) (substitution : Substitution) (lacking : TypeId → Prop)
    (type : TypeId) (before : Registry) : Prop where
  /-- The registry is furnished. -/
  furnished : before.Furnished lacking
  /-- The registry proceeds from the one that holds what is copied. -/
  proceeds : before.Proceeds registry
  /-- Parameters are replaced by registered types. -/
  suits : before.Suits substitution
  /-- What is copied to is an instance. -/
  isCopy : ∃ definition, before.IsCopy type definition

/-- Wherever a registry proceeds to, replacing each of some types returns. -/
def Answers (replace : Nat → TypeId → Registration TypeId) (types : List TypeId)
    (before : Registry) : Prop :=
  ∀ ⦃later lacking⦄, later.Furnished lacking → later.Proceeds before → ∀ type ∈ types,
    Returns (fun depth => replace depth type) later

/-- Copying to an instance something that refers to some types. -/
structure Copies (registry : Registry) (references : List TypeId)
    (copy : (TypeId → Registration TypeId) → TypeId → Registration Unit) : Prop where
  /-- A furnished registry stays furnished and proceeds. -/
  proceeds : ∀ {replace substitution lacking type before after}, Supplies replace substitution →
    Ready registry substitution lacking type before → copy replace type before = .ok ((), after) →
      after.Furnished lacking ∧ after.Proceeds before
  /-- What is supplied stays supplied, and the references become something. -/
  supplies : ∀ {replace substitution lacking pending type before after},
    Supplies replace substitution → Ready registry substitution lacking type before →
      before.Supplied pending → copy replace type before = .ok ((), after) →
        after.Supplied pending ∧ BecomeIn after substitution references
  /-- Copying returns if replacing the references does. -/
  returns : ∀ {replace : Nat → TypeId → Registration TypeId} {substitution lacking type before},
    (∀ depth, Supplies (replace depth) substitution) →
      Ready registry substitution lacking type before → Answers replace references before →
        Returns (fun depth => copy (replace depth) type) before

section Ready

variable {registry before after : Registry} {substitution : Substitution}
  {lacking : TypeId → Prop} {type : TypeId}

/-- An instance can be copied to wherever a registry proceeds to. -/
theorem Ready.next (ready : Ready registry substitution lacking type before)
    (furnished : after.Furnished lacking) (proceeds : after.Proceeds before) :
    Ready registry substitution lacking type after := by
  obtain ⟨definition, isCopy⟩ := ready.isCopy
  exact ⟨furnished, proceeds.trans ready.proceeds, proceeds.suits ready.suits, definition,
    proceeds.isCopy isCopy⟩

/-- An instance has an entry that says so. -/
theorem Ready.exists_entry (ready : Ready registry substitution lacking type before) :
    ∃ entry, before.type? type = some entry ∧ entry.definition ≠ none := by
  obtain ⟨definition, entry, known, isDefinition⟩ := ready.isCopy
  exact ⟨entry, known, isDefinition ▸ Option.some_ne_none definition⟩

/-- A registry proceeds if its entries are continued and only an instance is changed. -/
theorem Ready.proceeds_of_leaves {α : Type} {work : Registration α} {result : α}
    (ready : Ready registry substitution lacking type before) (kept : after.Keeps before)
    (leaves : Leaves (· ≠ type) work) (ran : work before = .ok (result, after)) :
    after.Proceeds before := by
  refine ⟨kept, fun {other entry} known uncopied => ?_⟩
  obtain ⟨instanceEntry, instanceKnown, isInstance⟩ := ready.exists_entry
  have differs : other ≠ type := by
    rintro rfl
    cases known.symm.trans instanceKnown
    exact isInstance uncopied
  exact leaves ran differs known

/-- Replacing returns wherever a registry proceeds to further. -/
theorem Answers.later {replace : Nat → TypeId → Registration TypeId} {types : List TypeId}
    (answers : Answers replace types before) (proceeds : after.Proceeds before) :
    Answers replace types after :=
  fun _ _ furnished further => answers furnished (further.trans proceeds)

/-- Replacing fewer types returns. -/
theorem Answers.fewer {replace : Nat → TypeId → Registration TypeId} {types others : List TypeId}
    (answers : Answers replace types before) (fewer : others ⊆ types) :
    Answers replace others before :=
  fun _ _ furnished proceeds type isType => answers furnished proceeds type (fewer isType)

end Ready

section Links

variable {registry : Registry}

/-- Linking an instance to what a registered type becomes is copying. -/
theorem copies_link {reference : TypeId} (has : registry.Has reference)
    (change : TypeId → TypeEntry → TypeEntry)
    (links : ∀ link entry, change link entry =
      { entry with base := (change link entry).base, interfaces := (change link entry).interfaces })
    (continues : ∀ link entry, (change link entry).Continues entry)
    (furnishes : ∀ {replace substitution lacking type before after},
      Supplies replace substitution → Ready registry substitution lacking type before →
        (do let link ← replace reference
            changeType type (change link)) before = .ok ((), after) →
          after.Furnished lacking ∧ after.Keeps before) :
    Copies registry [reference] fun replace type => do
      let link ← replace reference
      changeType type (change link) where
  proceeds {replace substitution lacking type before after} supplies ready ran := by
    obtain ⟨afterFurnished, kept⟩ := furnishes supplies ready ran
    have leaves : Leaves (· ≠ type) (replace reference >>= fun link =>
        changeType type (change link)) :=
      .bind ((supplies.leaves reference).fewer fun _ _ => trivial)
        fun _ => leaves_changeType type _
    exact ⟨afterFurnished, ready.proceeds_of_leaves kept leaves ran⟩
  supplies {replace substitution lacking pending type before after} supplies ready supplied
      ran := by
    obtain ⟨link, middle, replaced, changed⟩ := Work.bind_eq_ok.mp ran
    have registered := ready.proceeds.has has
    obtain ⟨middleFurnished, proceeds, -⟩ :=
      supplies.proceeds ready.furnished ready.suits registered replaced
    obtain ⟨middleSupplied, becomes⟩ :=
      supplies.becomes ready.furnished supplied ready.suits registered replaced
    obtain ⟨entry, known, rfl⟩ := changeType_eq_ok.mp changed
    obtain ⟨entry', known', isInstance⟩ := (ready.next middleFurnished proceeds).exists_entry
    cases known.symm.trans known'
    have amends := Amends.of_links known (change link) (links link)
    refine ⟨middleSupplied.amend middleFurnished.toClosed amends (continues link entry) isInstance,
      fun other isOther => ?_⟩
    rw [List.mem_singleton.mp isOther]
    exact ⟨link, becomes.grow (amends.keeps (continues link entry)).toGrows⟩
  returns {replace substitution lacking type before} supplies ready answers := by
    have answered := answers ready.furnished (.refl before) reference (List.mem_singleton.mpr rfl)
    refine answered.bind fun replaced => ?_
    obtain ⟨middleFurnished, proceeds, -⟩ := (supplies _).proceeds ready.furnished ready.suits
      (ready.proceeds.has has) replaced
    obtain ⟨entry, known, -⟩ := (ready.next middleFurnished proceeds).exists_entry
    exact returns_changeType known

/-- A registered base is copied. -/
theorem copies_base {base : TypeId} (has : registry.Has base) :
    Copies registry [base] fun replace type => copyBase replace type base :=
  copies_link has (fun link entry => { entry with base := some link }) (fun _ _ => rfl)
    (fun link _ => ⟨some link, [], [], by simp⟩)
    fun supplies ready ran =>
      supplies.furnishes.copyBase ready.furnished ready.suits (ready.proceeds.has has) ran

/-- A contract is copied. -/
theorem copies_interface {interface : TypeId} (isContract : registry.IsContract interface) :
    Copies registry [interface] fun replace type => copyInterface replace type interface := by
  have has : registry.Has interface := by
    obtain ⟨entry, known, -⟩ := isContract
    exact has_iff.mpr ⟨entry, known⟩
  refine copies_link has
    (fun link entry => { entry with interfaces := entry.interfaces ++ [link] })
    (fun _ _ => rfl) (fun link entry => ⟨entry.base, [link], [], by simp⟩)
    fun supplies ready ran => ?_
  obtain ⟨afterFurnished, kept, -⟩ := supplies.furnishes.copyInterface ready.furnished ready.suits
    (ready.proceeds.isContract isContract) ran
  exact ⟨afterFurnished, kept⟩

end Links

section Members

variable {before after : Registry} {substitution : Substitution} {lacking : TypeId → Prop}

/-- Replacing types in sequence makes a registry proceed. -/
theorem Supplies.mapM_proceeds {replace : TypeId → Registration TypeId}
    (supplies : Supplies replace substitution) (furnished : before.Furnished lacking)
    (suits : before.Suits substitution) {types results : List TypeId}
    (registered : ∀ type ∈ types, before.Has type)
    (replaced : types.mapM replace before = .ok (results, after)) :
    after.Furnished lacking ∧ after.Proceeds before := by
  obtain ⟨afterFurnished, kept, -⟩ := supplies.furnishes.mapM furnished suits registered replaced
  exact ⟨afterFurnished, kept,
    fun known _ => composes_leaves.mapM supplies.leaves _ replaced trivial known⟩

/-- Replacing in a signature makes a registry proceed. -/
theorem Supplies.copyKind_proceeds {replace : TypeId → Registration TypeId}
    (supplies : Supplies replace substitution) (furnished : before.Furnished lacking)
    (suits : before.Suits substitution) {kind result : MemberKind}
    (registered : ∀ type ∈ kind.types, before.Has type)
    (copied : Registration.copyKind replace kind before = .ok (result, after)) :
    after.Furnished lacking ∧ after.Proceeds before := by
  obtain ⟨afterFurnished, kept, -⟩ := supplies.furnishes.copyKind furnished suits registered copied
  exact ⟨afterFurnished, kept,
    fun known _ => composes_leaves.copyKind supplies.leaves _ copied trivial known⟩

/-- Looking for what the copy of a member implements makes a registry proceed. -/
theorem Supplies.counterparts_proceeds {replace : TypeId → Registration TypeId}
    (supplies : Supplies replace substitution) (furnished : before.Furnished lacking)
    (suits : before.Suits substitution) {contract result : Option MemberId}
    (registered : ∀ member ∈ contract, before.HasMember member)
    (asked : contract.mapM (Registration.counterpart replace) before = .ok (result, after)) :
    after.Furnished lacking ∧ after.Proceeds before := by
  obtain ⟨afterFurnished, kept, -⟩ :=
    supplies.furnishes.counterparts furnished suits registered asked
  exact ⟨afterFurnished, kept,
    fun known _ => composes_leaves.counterparts supplies.leaves _ asked trivial known⟩

section Returning

variable {replace : Nat → TypeId → Registration TypeId}
  (supplies : ∀ depth, Supplies (replace depth) substitution)
  (furnished : before.Furnished lacking) (suits : before.Suits substitution)
include supplies furnished suits

/-- Replacing types in sequence returns if replacing each of them does. -/
theorem returns_replaceEach {types : List TypeId} (registered : ∀ type ∈ types, before.Has type)
    (answers : Answers replace types before) :
    Returns (fun depth => types.mapM (replace depth)) before := by
  refine returns_mapM (fun between => between.Furnished lacking ∧ between.Proceeds before)
    (fun type isType between holds => answers holds.1 holds.2 type isType)
    (fun {type} isType {depth between result after} holds replaced => ?_) ⟨furnished, .refl before⟩
  obtain ⟨afterFurnished, proceeds, -⟩ := (supplies depth).proceeds holds.1 (holds.2.suits suits)
    (holds.2.has (registered type isType)) replaced
  exact ⟨afterFurnished, proceeds.trans holds.2⟩

/-- Replacing in a signature returns if replacing each of its types does. -/
theorem returns_copyKind {kind : MemberKind} (registered : ∀ type ∈ kind.types, before.Has type)
    (answers : Answers replace kind.types before) :
    Returns (fun depth => copyKind (replace depth) kind) before := by
  cases kind with
  | method parameters returns =>
    have parametersHave : ∀ type ∈ parameters, before.Has type :=
      fun type isParameter => registered type (List.mem_append_left _ isParameter)
    have first := returns_replaceEach supplies furnished suits parametersHave
      (answers.fewer (List.subset_append_left ..))
    refine first.bind fun replaced => ?_
    obtain ⟨middleFurnished, proceeds⟩ :=
      (supplies _).mapM_proceeds furnished suits parametersHave replaced
    have answered := answers middleFurnished proceeds returns
      (List.mem_append_right _ (List.mem_singleton.mpr rfl))
    exact answered.bind fun _ => returns_pure _
  | property type =>
    have answered := answers furnished (.refl before) type (List.mem_singleton.mpr rfl)
    exact answered.bind fun _ => returns_pure _

/-- Looking for what the copy of a member implements returns if replacing the type that declares the
implemented member does. -/
theorem returns_counterpart {contract : MemberId} {source : MemberEntry}
    (known : before.member? contract = some source)
    (answers : Answers replace [source.owner] before) :
    Returns (fun depth => counterpart (replace depth) contract) before := by
  obtain ⟨ownerEntry, ownerKnown, -⟩ := furnished.listed known
  have ownerHas : before.Has source.owner := has_iff.mpr ⟨ownerEntry, ownerKnown⟩
  have asked : before.member contract = .ok source := Checked.ofOption_eq_ok.mpr known
  refine (returns_ask asked).bind fun ended => ?_
  obtain ⟨known', rfl⟩ := ask_member_eq_ok.mp ended
  cases known.symm.trans known'
  have answered := answers furnished (.refl before) source.owner (List.mem_singleton.mpr rfl)
  refine answered.bind fun {depth owner middle} replaced => ?_
  obtain ⟨middleFurnished, -, hasOwner⟩ :=
    (supplies depth).proceeds furnished suits ownerHas replaced
  by_cases stays : owner = source.owner
  · simp only [if_pos stays]
    exact returns_pure _
  · simp only [if_neg stays]
    obtain ⟨target, targetKnown⟩ := has_iff.mp hasOwner
    have targetAsked : middle.entry owner = .ok target := Checked.ofOption_eq_ok.mpr targetKnown
    refine (returns_ask targetAsked).bind fun ended => ?_
    obtain ⟨targetKnown', rfl⟩ := ask_entry_eq_ok.mp ended
    cases targetKnown.symm.trans targetKnown'
    have originHas : ∃ origin, middle.type? (target.definition.getD owner) = some origin := by
      cases isCopy : target.definition with
      | none => exact ⟨target, targetKnown⟩
      | some definition =>
        obtain ⟨-, whole, wholeKnown, -⟩ := middleFurnished.copied targetKnown isCopy
        exact ⟨whole, wholeKnown⟩
    obtain ⟨origin, originKnown⟩ := originHas
    have originAsked : middle.entry (target.definition.getD owner) = .ok origin :=
      Checked.ofOption_eq_ok.mpr originKnown
    exact (returns_ask originAsked).bind fun _ => returns_pure _

/-- Looking for what the copy of a member implements returns, if it implements anything, if
replacing the type that declares the implemented member does. -/
theorem returns_counterparts {contract : Option MemberId}
    (registered : ∀ member ∈ contract, before.HasMember member)
    (answers : Answers replace
      ((contract.bind before.member?).map MemberEntry.owner).toList before) :
    Returns (fun depth => contract.mapM (counterpart (replace depth))) before := by
  cases contract with
  | none => exact returns_pure none
  | some contract =>
    obtain ⟨source, known⟩ := hasMember_iff.mp (registered contract rfl)
    rw [Option.bind_some, known] at answers
    exact (returns_counterpart supplies furnished suits known answers).map some

end Returning

/-- A registered member is copied. -/
theorem copies_member {registry : Registry} (closed : registry.Closed) {member : MemberId}
    (registered : registry.HasMember member) :
    Copies registry (registry.memberReferences member)
      fun replace type => copyMember replace type member where
  proceeds {replace substitution lacking type before after} supplies ready ran := by
    obtain ⟨entry, known, isInstance⟩ := ready.exists_entry
    obtain ⟨source, sourceKnown⟩ := hasMember_iff.mp (ready.proceeds.hasMember registered)
    obtain ⟨afterFurnished, kept, -⟩ := supplies.furnishes.copyMember supplies.leaves
      ready.furnished ready.suits known isInstance sourceKnown ran
    have leaves : Leaves (· ≠ type) (copyMember replace type member) :=
      leaves_copyMember (fun other => (supplies.leaves other).fewer fun _ _ => trivial)
        (fun _ => id) member
    exact ⟨afterFurnished, ready.proceeds_of_leaves kept leaves ran⟩
  supplies {replace substitution lacking pending type before after} supplies ready supplied
      ran := by
    obtain ⟨source, kind, middle, implements, last, _, sourceKnown, kindCopied, counterparts, -,
      rfl⟩ := copyMember_eq_ok.mp ran
    have furnished := ready.furnished
    have typesHave : ∀ other ∈ source.kind.types, before.Has other :=
      fun _ isType => furnished.signatures sourceKnown isType
    obtain ⟨middleFurnished, proceeds⟩ :=
      supplies.copyKind_proceeds furnished ready.suits typesHave kindCopied
    obtain ⟨middleSupplied, types⟩ :=
      supplies.copyKind furnished supplied ready.suits typesHave kindCopied
    obtain ⟨lastFurnished, further⟩ := supplies.counterparts_proceeds middleFurnished
      (proceeds.suits ready.suits)
      (fun _ implements => proceeds.hasMember (furnished.implemented sourceKnown implements))
      counterparts
    obtain ⟨lastSupplied, owners⟩ := supplies.counterparts middleFurnished middleSupplied
      (proceeds.suits ready.suits) counterparts
    obtain ⟨entry, known, isInstance⟩ :=
      (ready.next lastFurnished (further.trans proceeds)).exists_entry
    have sourceLast := (further.trans proceeds).members sourceKnown
    have originKnown := lastFurnished.origin_lt sourceLast
    have amends := Amends.of_member
      ⟨source.name, type, source.flags, kind, implements, some (source.definition.getD member)⟩
      known rfl (fun isNone => absurd isNone isInstance)
      (fun origin isOrigin => Option.some.inj isOrigin ▸ originKnown)
    have continued := TypeEntry.Continues.withMember entry ⟨last.members.size⟩
    have final := amends.keeps continued
    refine ⟨lastSupplied.amend lastFurnished.toClosed amends continued isInstance,
      fun reference isReference => ?_⟩
    rw [← ready.proceeds.toGrows.memberReferences closed registered,
      memberReferences_of_known sourceKnown,
      ← proceeds.toGrows.bind_member? furnished.toClosed sourceKnown] at isReference
    cases List.mem_append.mp isReference with
    | inl isType => exact (types.grow (final.trans further.toKeeps)) reference isType
    | inr isOwner => exact (owners.grow final) reference isOwner
  returns {replace substitution lacking type before} supplies ready answers := by
    obtain ⟨source, sourceKnown⟩ := hasMember_iff.mp (ready.proceeds.hasMember registered)
    rw [← ready.proceeds.toGrows.memberReferences closed registered,
      memberReferences_of_known sourceKnown] at answers
    have furnished := ready.furnished
    have asked : before.member member = .ok source := Checked.ofOption_eq_ok.mpr sourceKnown
    refine (returns_ask asked).bind fun ended => ?_
    obtain ⟨sourceKnown', rfl⟩ := ask_member_eq_ok.mp ended
    cases sourceKnown.symm.trans sourceKnown'
    have typesHave : ∀ other ∈ source.kind.types, before.Has other :=
      fun _ isType => furnished.signatures sourceKnown isType
    have kinds := returns_copyKind supplies furnished ready.suits typesHave
      (answers.fewer (List.subset_append_left ..))
    refine kinds.bind fun {depth kind middle} kindCopied => ?_
    obtain ⟨middleFurnished, proceeds⟩ :=
      (supplies depth).copyKind_proceeds furnished ready.suits typesHave kindCopied
    have implementsHave : ∀ contract ∈ source.implements, middle.HasMember contract :=
      fun _ implements => proceeds.hasMember (furnished.implemented sourceKnown implements)
    have owners := (answers.later proceeds).fewer (List.subset_append_right ..)
    rw [← proceeds.toGrows.bind_member? furnished.toClosed sourceKnown] at owners
    have counterparts := returns_counterparts supplies middleFurnished
      (proceeds.suits ready.suits) implementsHave owners
    refine counterparts.bind fun {depth implements last} found => ?_
    obtain ⟨lastFurnished, further⟩ := (supplies depth).counterparts_proceeds middleFurnished
      (proceeds.suits ready.suits) implementsHave found
    obtain ⟨entry, known, -⟩ :=
      (ready.next lastFurnished (further.trans proceeds)).exists_entry
    refine Returns.bind (returns_of_eq_ok rfl) fun added => ?_
    obtain ⟨rfl, rfl⟩ := addMember_eq_ok.mp added
    have knownPushed : (last.pushMember
        ⟨source.name, type, source.flags, kind, implements,
          some (source.definition.getD member)⟩).1.type? type = some entry := known
    exact returns_changeType knownPushed

end Members

section Filling

variable {registry : Registry} {references others : List TypeId}
  {copy next : (TypeId → Registration TypeId) → TypeId → Registration Unit}

/-- Nothing is copied. -/
theorem copies_nothing : Copies registry [] fun _ _ => pure () where
  proceeds _ ready ran := by
    obtain ⟨-, rfl⟩ := Work.pure_eq_ok.mp ran
    exact ⟨ready.furnished, .refl _⟩
  supplies _ _ supplied ran := by
    obtain ⟨-, rfl⟩ := Work.pure_eq_ok.mp ran
    exact ⟨supplied, fun _ isReference => nomatch isReference⟩
  returns _ _ _ := returns_pure ()

/-- Something is copied after something else. -/
theorem Copies.append (first : Copies registry references copy)
    (second : Copies registry others next) :
    Copies registry (references ++ others) fun replace type => do
      copy replace type
      next replace type where
  proceeds supplies ready ran := by
    obtain ⟨⟨⟩, middle, copied, last⟩ := Work.bind_eq_ok.mp ran
    obtain ⟨middleFurnished, proceeds⟩ := first.proceeds supplies ready copied
    obtain ⟨afterFurnished, further⟩ :=
      second.proceeds supplies (ready.next middleFurnished proceeds) last
    exact ⟨afterFurnished, further.trans proceeds⟩
  supplies supplies ready supplied ran := by
    obtain ⟨⟨⟩, middle, copied, last⟩ := Work.bind_eq_ok.mp ran
    obtain ⟨middleFurnished, proceeds⟩ := first.proceeds supplies ready copied
    obtain ⟨middleSupplied, become⟩ := first.supplies supplies ready supplied copied
    have readyMiddle := ready.next middleFurnished proceeds
    obtain ⟨-, further⟩ := second.proceeds supplies readyMiddle last
    obtain ⟨afterSupplied, become'⟩ := second.supplies supplies readyMiddle middleSupplied last
    refine ⟨afterSupplied, fun reference isReference => ?_⟩
    cases List.mem_append.mp isReference with
    | inl inFirst => exact (become.grow further.toKeeps) reference inFirst
    | inr inSecond => exact become' reference inSecond
  returns supplies ready answers := by
    have started := first.returns supplies ready (answers.fewer (List.subset_append_left ..))
    refine started.bind fun {depth _ middle} copied => ?_
    obtain ⟨middleFurnished, proceeds⟩ := first.proceeds (supplies depth) ready copied
    exact second.returns supplies (ready.next middleFurnished proceeds)
      ((answers.later proceeds).fewer (List.subset_append_right ..))

/-- Part after part is copied. -/
theorem copies_parts {α : Type} {parts : List α} {mentioned : α → List TypeId}
    {copy : α → (TypeId → Registration TypeId) → TypeId → Registration Unit}
    (each : ∀ part ∈ parts, Copies registry (mentioned part) (copy part)) :
    Copies registry (parts.flatMap mentioned)
      fun replace type => parts.forM fun part => copy part replace type := by
  induction parts with
  | nil => exact copies_nothing
  | cons part rest ih =>
    have others := ih fun other inRest => each other (List.mem_cons_of_mem _ inRest)
    exact (each part (List.mem_cons_self ..)).append others

/-- Give an instance what a definition has. -/
def fill (entry : TypeEntry) (replace : TypeId → Registration TypeId) (type : TypeId) :
    Registration Unit := do
  entry.base.forM (copyBase replace type)
  entry.interfaces.forM (copyInterface replace type)
  entry.members.forM (copyMember replace type)

/-- What a registered definition has is copied. -/
theorem copies_fill (closed : registry.Closed) {definition : TypeId} {entry : TypeEntry}
    (known : registry.type? definition = some entry) :
    Copies registry (registry.references entry) (fill entry) := by
  have bases : Copies registry entry.base.toList
      fun replace type => entry.base.forM (copyBase replace type) := by
    cases isBase : entry.base with
    | none => exact copies_nothing
    | some base => exact copies_base (closed.bases known isBase)
  have interfaces : Copies registry (entry.interfaces.flatMap fun interface => [interface])
      fun replace type => entry.interfaces.forM (copyInterface replace type) :=
    copies_parts fun _ isListed => copies_interface (closed.interfaces known isListed)
  have members : Copies registry (entry.members.flatMap registry.memberReferences)
      fun replace type => entry.members.forM (copyMember replace type) :=
    copies_parts fun _ isListed => copies_member closed (closed.listed_has known isListed)
  rw [List.flatMap_singleton'] at interfaces
  exact bases.append (interfaces.append members)

end Filling

section Making

variable {before after : Registry} {definition result : TypeId} {arguments : List TypeId}
  {entry : TypeEntry}

/-- Work goes on from where its first part ended. -/
theorem bind_of_ok {α β : Type} {work : Registration α} {next : α → Registration β} {value : α}
    {middle : Registry} (ended : work before = .ok (value, middle)) :
    (work >>= next) before = next value middle := by
  simp only [bind, StateT.bind, Except.bind, ended]

/-- Where a definition has no instance at arguments yet, one is added and filled. -/
theorem instantiateWith_new {replace : Substitution → TypeId → Registration TypeId}
    (known : before.type? definition = some entry)
    (generic : entry.flags.genericDefinition = true)
    (arity : entry.parameters.length = arguments.length) (proper : entry.parameters ≠ arguments)
    (absent : before.instance? definition arguments = none) :
    instantiateWith replace definition arguments before =
      (do fill entry (replace (entry.parameters.zip arguments)) ⟨before.size⟩
          return ⟨before.size⟩ : Registration TypeId)
        (before.withInstance definition arguments entry) := by
  have got : (get : Registration Registry) before = .ok (before, before) := rfl
  rw [instantiateWith, bind_of_ok (ask_entry_eq_ok.mpr ⟨known, rfl⟩),
    bind_of_ok (Work.lift_eq_ok.mpr ⟨Checked.require_eq_ok.mpr generic, rfl⟩),
    bind_of_ok (Work.lift_eq_ok.mpr ⟨Checked.require_eq_ok.mpr (decide_eq_true arity), rfl⟩),
    if_neg proper, bind_of_ok got, absent]
  have filled : fill entry (replace (entry.parameters.zip arguments)) ⟨before.size⟩ = (do
      entry.base.forM (copyBase (replace (entry.parameters.zip arguments)) ⟨before.size⟩)
      entry.interfaces.forM
        (copyInterface (replace (entry.parameters.zip arguments)) ⟨before.size⟩)
      entry.members.forM
        (copyMember (replace (entry.parameters.zip arguments)) ⟨before.size⟩)) := rfl
  rw [filled]
  simp only [bind_assoc]
  rfl

/-- A new instance of a furnished registry is ready to be filled. -/
theorem ready_withInstance {lacking : TypeId → Prop} (furnished : before.Furnished lacking)
    (registered : ∀ argument ∈ arguments, before.Has argument)
    (known : before.type? definition = some entry)
    (generic : entry.flags.genericDefinition = true)
    (arity : entry.parameters.length = arguments.length) (proper : entry.parameters ≠ arguments)
    (absent : before.instance? definition arguments = none) :
    Ready (before.withInstance definition arguments entry) (entry.parameters.zip arguments)
      (fun other => lacking other ∨ other = ⟨before.size⟩) ⟨before.size⟩
      (before.withInstance definition arguments entry) := by
  have closed := furnished.toClosed.withInstance known generic arity proper absent registered
  have stillKnown := before.type?_withInstance_of_some definition arguments entry known
  have suits := closed.suits_zip stillKnown
    (fun argument isArgument => withInstance_keeps.has (registered argument isArgument))
  exact ⟨furnished.withInstance closed, .refl _, suits, definition, _,
    before.type?_withInstance_self definition arguments entry, rfl⟩

section Spec

variable {replace : Substitution → TypeId → Registration TypeId}
  (supplies : ∀ substitution, Supplies (replace substitution) substitution)
  {lacking pending : TypeId → Prop} (furnished : before.Furnished lacking)
  (registered : ∀ argument ∈ arguments, before.Has argument)
  (made : instantiateWith replace definition arguments before = .ok (result, after))
include supplies furnished registered made

/-- Using a definition at registered arguments makes a registry proceed and gives a registered
type. -/
theorem instantiateWith_proceeds :
    after.Furnished lacking ∧ after.Proceeds before ∧ after.Has result := by
  have leaves := leaves_instantiateWith (fun substitution => (supplies substitution).leaves)
    definition arguments
  obtain ⟨afterFurnished, kept, -, found, -, foundKnown, -⟩ :=
    instantiateWith_furnishes (fun substitution => (supplies substitution).furnishes)
      (fun substitution => (supplies substitution).leaves) furnished registered made
  exact ⟨afterFurnished, ⟨kept, fun known _ => leaves made trivial known⟩,
    has_iff.mpr ⟨found, foundKnown⟩⟩

/-- The instance of a definition at registered arguments is found once it was asked for, and
supplied with what the definition refers to if it is new. -/
theorem instantiateWith_supplies (supplied : before.Supplied pending) :
    after.Supplied pending ∧ after.instanceAt? definition arguments = some result := by
  obtain ⟨entry, known, generic, arity, decided⟩ := instantiateWith_cases made
  rcases decided with ⟨own, rfl, rfl⟩ | ⟨proper, recorded | isNew⟩
  · refine ⟨supplied, ?_⟩
    rw [Registry.instanceAt?, known, Option.bind_some, if_pos own]
  · obtain ⟨isRecorded, rfl⟩ := recorded
    refine ⟨supplied, ?_⟩
    rw [Registry.instanceAt?, known, Option.bind_some, if_neg proper, isRecorded]
  · obtain ⟨absent, -⟩ := isNew
    rw [instantiateWith_new known generic arity proper absent] at made
    obtain ⟨⟨⟩, last, filled, ended⟩ := Work.bind_eq_ok.mp made
    obtain ⟨rfl, rfl⟩ := Work.pure_eq_ok.mp ended
    have ready := ready_withInstance furnished registered known generic arity proper absent
    have closed := ready.furnished.toClosed
    have stillKnown := before.type?_withInstance_of_some definition arguments entry known
    have copies := copies_fill closed stillKnown
    obtain ⟨-, proceeds⟩ := copies.proceeds (supplies _) ready filled
    obtain ⟨afterSupplied, become⟩ := copies.supplies (supplies _) ready
      (supplied.withInstance furnished.toClosed) filled
    have sameEntry := proceeds.left stillKnown (furnished.generic known generic)
    obtain ⟨found, foundKnown, continued⟩ :=
      proceeds.entries (before.type?_withInstance_self definition arguments entry)
    have each : ∀ reference ∈ last.references entry, ∃ result,
        last.Becomes (entry.parameters.zip found.arguments) reference result := by
      rw [continued.arguments, proceeds.toGrows.references closed stillKnown]
      exact become
    have isFound : last.instance? definition arguments = some ⟨before.size⟩ :=
      proceeds.instance? (instance?_withInstance absent)
    refine ⟨afterSupplied.settle foundKnown continued.definition sameEntry each, ?_⟩
    rw [Registry.instanceAt?, sameEntry, Option.bind_some, if_neg proper, isFound]

end Spec

/-- Using a definition at registered arguments returns if, where an instance has to be made,
replacing what the definition refers to returns. -/
theorem returns_instantiateWith {replace : Nat → Substitution → TypeId → Registration TypeId}
    (supplies : ∀ depth substitution, Supplies (replace depth substitution) substitution)
    {lacking : TypeId → Prop} (furnished : before.Furnished lacking)
    (registered : ∀ argument ∈ arguments, before.Has argument)
    (known : before.type? definition = some entry)
    (generic : entry.flags.genericDefinition = true)
    (arity : entry.parameters.length = arguments.length)
    (answers : entry.parameters ≠ arguments → before.instance? definition arguments = none →
      Answers (fun depth => replace depth (entry.parameters.zip arguments))
        (before.references entry) (before.withInstance definition arguments entry)) :
    Returns (fun depth => instantiateWith (replace depth) definition arguments) before := by
  cases found : before.instanceAt? definition arguments with
  | some made =>
    exact ⟨0, _, fun depth _ => instantiateWith_of_instanceAt? known generic arity found⟩
  | none =>
    rw [Registry.instanceAt?, known, Option.bind_some] at found
    have proper : entry.parameters ≠ arguments := by
      intro own
      rw [if_pos own] at found
      cases found
    rw [if_neg proper] at found
    have ready := ready_withInstance furnished registered known generic arity proper found
    have closed := ready.furnished.toClosed
    have stillKnown := before.type?_withInstance_of_some definition arguments entry known
    have answered := answers proper found
    rw [← withInstance_keeps.toGrows.references furnished.toClosed known] at answered
    have filled := (copies_fill closed stillKnown).returns
      (fun depth => supplies depth (entry.parameters.zip arguments)) ready answered
    obtain ⟨least, outcome, ended⟩ := filled.bind fun _ => returns_pure (⟨before.size⟩ : TypeId)
    refine ⟨least, outcome, fun depth enough => ?_⟩
    exact (instantiateWith_new known generic arity proper found).trans (ended depth enough)

/-- Parameters are replaced in a way that supplies a registry at every depth, by induction on it:
the instances that replacing makes are filled at one level less. -/
theorem substitute_supplies (depth : Nat) :
    ∀ substitution : Substitution, Supplies (substitute depth substitution) substitution := by
  induction depth with
  | zero =>
    intro substitution
    refine ⟨substitute_furnishes 0 substitution, substitute_leaves 0 substitution, ?_⟩
    intro lacking pending before type result after _ _ _ _ stopped
    cases stopped
  | succ depth ih =>
    intro substitution
    refine ⟨substitute_furnishes _ substitution, substitute_leaves _ substitution, ?_⟩
    intro lacking pending before type result after furnished supplied suits has replaced
    by_cases proper : substitution = []
    · rw [proper, substitute, if_pos List.isEmpty_nil] at replaced
      obtain ⟨rfl, rfl⟩ := Work.pure_eq_ok.mp replaced
      exact ⟨supplied, proper ▸ furnished.becomes_self [] has⟩
    rcases substitute_cases proper replaced with ⟨isReplaced, rfl⟩ | ⟨kept, entry, known, decided⟩
    · exact ⟨supplied, .argument isReplaced⟩
    rcases decided with ⟨isWhole, rfl, rfl⟩ | ⟨definition, arguments, middle, isCopy, listed, made⟩
    · exact ⟨supplied, .whole kept known isWhole⟩
    have argumentsHave : ∀ argument ∈ entry.arguments, before.Has argument :=
      fun _ isArgument => furnished.arguments known isArgument
    obtain ⟨middleFurnished, -, stand⟩ :=
      (ih substitution).furnishes.mapM furnished suits argumentsHave listed
    obtain ⟨middleSupplied, become⟩ :=
      (ih substitution).mapM furnished supplied suits argumentsHave listed
    have knownMiddle : middle.type? type = some entry :=
      composes_leaves.mapM (ih substitution).leaves _ listed trivial known
    obtain ⟨sameLength, pairs⟩ := List.forall₂_iff_zip.mp become
    rcases made with ⟨rfl, rfl, rfl⟩ | made
    · exact ⟨middleSupplied, .made kept knownMiddle isCopy sameLength
        (fun _ isPair => pairs isPair)
        (instanceAt?_of_instance middleFurnished.toWellFormed knownMiddle isCopy)⟩
    have registered : ∀ argument ∈ arguments, middle.Has argument := by
      intro argument isArgument
      obtain ⟨place, bound, rfl⟩ := List.mem_iff_getElem.mp isArgument
      exact (stand.get (Nat.lt_of_lt_of_eq bound stand.length_eq.symm) bound).has
    obtain ⟨afterSupplied, found⟩ :=
      instantiateWith_supplies ih middleFurnished registered made middleSupplied
    obtain ⟨-, proceeds, -⟩ := instantiateWith_proceeds ih middleFurnished registered made
    have knownAfter : after.type? type = some entry :=
      leaves_instantiateWith (substitute_leaves depth) definition arguments made trivial
        knownMiddle
    exact ⟨afterSupplied, .made kept knownAfter isCopy sameLength
      (fun _ isPair => (pairs isPair).grow proceeds.toGrows) found⟩

end Making

end Foreach.Registration
