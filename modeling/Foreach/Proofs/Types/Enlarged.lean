import Mathlib.Data.List.Find
import Foreach.Proofs.Types.Built
import Foreach.Proofs.Types.Dispatch
import Foreach.Proofs.Types.Traversal
import Foreach.Proofs.Types.TwinHierarchy

/-!
# Registries with more types

Declaring a type and instantiating a definition add types and members, and change no entry that is
there (`Enlarges.of_adds`). What is asked of a type that was there is answered from such entries
alone, so the answers stay: its interfaces, what it can serve as, its public members, and the
members that run.

One thing does change. A walk along bases takes as many steps as there are types, so where bases run
in a circle it goes round more often when there are more. What it visits in addition was visited
before (`Repeats`), which no search and no search for interfaces can tell.
-/
namespace Foreach.Registry

/-- A type is declared, or a definition instantiated: nothing that is registered may be edited. -/
abbrev Adds : Registry → Registry → Prop := Edit fun _ => False

/-- A registry has the entries of an earlier one, as they were. -/
structure Enlarges (later earlier : Registry) : Prop where
  /-- Types have their entries. -/
  types : ∀ {type entry}, earlier.type? type = some entry → later.type? type = some entry
  /-- Members have their entries. -/
  members : ∀ {member source}, earlier.member? member = some source →
    later.member? member = some source

/-- What is added changes no entry. -/
theorem Adds.enlarges {before after : Registry} (adds : Adds before after)
    (complete : before.Complete) : after.Enlarges before := by
  have kept := (Edit.complete adds complete).2
  refine ⟨fun known => ?_, kept.members⟩
  cases adds with
  | declare outers ran =>
    exact (Registration.declare_introduces complete.keeps outers ran).kept known
  | instantiate _ ran =>
    exact Registration.leaves_instantiateWith (Registration.substitute_leaves _) _ _ ran trivial
      known
  | setBase _ allowed => exact allowed.elim
  | addInterface _ allowed => exact allowed.elim
  | addMember _ allowed => exact allowed.elim

/-- What work leads to is reached by adding if work that does not stop adds. -/
theorem Adds.after {α : Type} {before : Registry} {work : Registration α}
    (adds : ∀ {result later}, work before = .ok (result, later) → Adds before later) :
    Relation.ReflTransGen Adds before (before.after work) := by
  unfold Registry.after
  cases ran : work before with
  | error stop => exact .refl
  | ok ended => exact .single (adds ran)

/-- However much is added, no entry changes. -/
theorem Enlarges.of_adds {before after : Registry} (complete : before.Complete)
    (adds : Relation.ReflTransGen Adds before after) :
    after.Complete ∧ after.Enlarges before := by
  induction adds with
  | refl => exact ⟨complete, id, id⟩
  | tail _ last ih =>
    obtain ⟨middleComplete, enlarges⟩ := ih
    have further := last.enlarges middleComplete
    exact ⟨(Edit.complete last middleComplete).1,
      fun known => further.types (enlarges.types known),
      fun known => further.members (enlarges.members known)⟩

/-- A list of types has what another has, and behind it some of the same again. -/
def Repeats (types others : List TypeId) : Prop :=
  ∃ again, types = others ++ again ∧ again ⊆ others

section Repeating

variable {types others : List TypeId}

/-- What is repeated is there exactly if it was. -/
theorem Repeats.mem_iff (repeats : Repeats types others) (type : TypeId) :
    type ∈ types ↔ type ∈ others := by
  obtain ⟨again, rfl, within⟩ := repeats
  rw [List.mem_append, or_iff_left_of_imp fun isAgain => within isAgain]

/-- A search that is answered alike by what is repeated has the same answer. -/
theorem Repeats.findSome? {α : Type} {answer answer' : TypeId → Option α}
    (repeats : Repeats types others) (alike : ∀ type ∈ others, answer' type = answer type) :
    types.findSome? answer' = others.findSome? answer := by
  obtain ⟨again, rfl, within⟩ := repeats
  have before : others.findSome? answer' = others.findSome? answer := by
    rw [← List.head?_filterMap, ← List.head?_filterMap, List.filterMap_congr alike]
  rw [List.findSome?_append, before]
  cases found : others.findSome? answer with
  | some first => rfl
  | none =>
    rw [Option.none_or, List.findSome?_eq_none_iff]
    intro type isAgain
    rw [alike type (within isAgain)]
    exact List.findSome?_eq_none_iff.mp found type (within isAgain)

/-- What is listed by types that are repeated occurs in the same order for the first time. -/
theorem Repeats.firsts_flatMap {listed listed' : TypeId → List TypeId}
    (repeats : Repeats types others) (alike : ∀ type ∈ others, listed' type = listed type) :
    firsts (types.flatMap listed') = firsts (others.flatMap listed) := by
  obtain ⟨again, rfl, within⟩ := repeats
  have before : others.flatMap listed' = others.flatMap listed := List.flatMap_congr alike
  rw [List.flatMap_append, firsts, List.foldl_append, before]
  refine foldl_addNew_of_subset fun type isAgain => mem_firsts.mpr ?_
  obtain ⟨holder, isHolder, isListed⟩ := List.mem_flatMap.mp isAgain
  rw [alike holder (within isHolder)] at isListed
  exact List.mem_flatMap.mpr ⟨holder, within isHolder, isListed⟩

end Repeating

section Entries

variable {later earlier : Registry} (enlarges : later.Enlarges earlier) {type : TypeId}
  (has : earlier.Has type)
include enlarges

/-- There are no fewer types. -/
theorem Enlarges.size_le : earlier.size ≤ later.size := by
  by_contra fewer
  have has : earlier.Has ⟨later.size⟩ := Nat.lt_of_not_le fewer
  obtain ⟨entry, known⟩ := has_iff.mp has
  exact Nat.lt_irrefl _ (index_lt_of_type? (enlarges.types known))

include has

/-- The entry of a type stays. -/
theorem Enlarges.type?_eq : later.type? type = earlier.type? type := by
  obtain ⟨entry, known⟩ := has_iff.mp has
  rw [known]
  exact enlarges.types known

/-- A type stays registered. -/
theorem Enlarges.registered : later.Has type := by
  rw [has_iff, enlarges.type?_eq has]
  exact has_iff.mp has

/-- The flags of a type stay. -/
theorem Enlarges.flagsOf_eq : later.flagsOf type = earlier.flagsOf type := by
  rw [flagsOf, flagsOf, enlarges.type?_eq has]

/-- The interfaces that a type lists stay. -/
theorem Enlarges.interfacesOf_eq : later.interfacesOf type = earlier.interfacesOf type := by
  rw [interfacesOf, interfacesOf, enlarges.type?_eq has]

/-- A type stands for the same definitions. -/
theorem Enlarges.standsFor_eq (definition : TypeId) :
    later.standsFor definition type = earlier.standsFor definition type := by
  rw [standsFor, standsFor, enlarges.type?_eq has]

omit has in
/-- The entry of a member stays. -/
theorem Enlarges.member?_eq {member : MemberId} (hasMember : earlier.HasMember member) :
    later.member? member = earlier.member? member := by
  obtain ⟨source, known⟩ := hasMember_iff.mp hasMember
  rw [known]
  exact enlarges.members known

/-- The first member of a type that passes a test stays. -/
theorem Enlarges.findMember?_eq (formed : earlier.WellFormed) (test : MemberEntry → Bool) :
    later.findMember? type test = earlier.findMember? type test := by
  obtain ⟨entry, known⟩ := has_iff.mp has
  rw [findMember?, findMember?, membersOf, membersOf, enlarges.type?_eq has, known]
  refine List.find?_congr fun member isListed => ?_
  obtain ⟨source, sourceKnown, -⟩ := formed.owned known isListed
  rw [enlarges.member?_eq (hasMember_iff.mpr ⟨source, sourceKnown⟩)]

end Entries

section Walks

variable {registry : Registry} (closed : registry.Closed) {type : TypeId} (has : registry.Has type)
include closed has

/-- The types above a type are registered. -/
theorem Closed.ancestors_has : ∀ target ∈ registry.ancestors type, registry.Has target :=
  (closed.walkBases fun _ isType => Option.some.inj isType ▸ has).2

/-- The types whose interfaces are a type's own are registered. -/
theorem Closed.interfaceHolders_has :
    ∀ holder ∈ registry.interfaceHolders type, registry.Has holder := by
  intro holder isHolder
  rw [interfaceHolders] at isHolder
  cases isInterface : (registry.flagsOf type).isInterface with
  | true =>
    rw [isInterface, if_pos rfl, List.mem_singleton] at isHolder
    exact isHolder ▸ has
  | false =>
    rw [isInterface, if_neg Bool.false_ne_true] at isHolder
    exact closed.ancestors_has has holder isHolder

/-- The types in which members of a type are looked for are registered. -/
theorem Closed.scopes_has : ∀ scope ∈ registry.scopes type, registry.Has scope := by
  intro scope isScope
  rw [scopes] at isScope
  cases isInterface : (registry.flagsOf type).isInterface with
  | true =>
    rw [isInterface, if_pos rfl] at isScope
    rcases List.mem_cons.mp isScope with rfl | isContract
    · exact has
    · exact closed.contracts_has scope isContract
  | false =>
    rw [isInterface, if_neg Bool.false_ne_true] at isScope
    exact closed.ancestors_has has scope isScope

end Walks

section Hierarchy

variable {later earlier : Registry} (enlarges : later.Enlarges earlier)
  (closed : earlier.Closed) (laterClosed : later.Closed) {type : TypeId}
  (has : earlier.Has type)
include enlarges closed

include has in
/-- The same type is reached in the same number of steps. -/
theorem Enlarges.climb_eq (steps : Nat) : later.climb steps type = earlier.climb steps type := by
  induction steps generalizing type with
  | zero => rfl
  | succ steps ih =>
    obtain ⟨entry, known⟩ := has_iff.mp has
    rw [climb, climb, enlarges.type?_eq has, known, Option.bind_some, Option.bind_some]
    cases given : entry.base with
    | none => rfl
    | some base => exact ih (closed.bases known given)

/-- A search for interfaces takes the same course. -/
theorem Enlarges.closeInterfaces_eq {steps : Nat} {reached pending : List TypeId}
    (frontier : earlier.Frontier reached pending) :
    later.closeInterfaces steps reached pending =
      earlier.closeInterfaces steps reached pending := by
  induction steps generalizing reached pending with
  | zero => rfl
  | succ steps ih =>
    cases pending with
    | nil => rfl
    | cons next pending =>
      have nextHas := frontier.registered next (by simp)
      rw [closeInterfaces, closeInterfaces, enlarges.interfacesOf_eq nextHas]
      exact ih (frontier.step closed)

include laterClosed has

/-- A walk along bases visits what it did, and beyond it nothing but what it did. -/
theorem Enlarges.ancestors : Repeats (later.ancestors type) (earlier.ancestors type) := by
  have laterHas := enlarges.registered has
  have isPrefix : earlier.ancestors type <+: later.ancestors type := by
    rw [List.prefix_iff_getElem?]
    intro place inside
    have before := closed.walkBases_getElem? has earlier.size place
    have after := laterClosed.walkBases_getElem? laterHas later.size place
    have visited : (earlier.walkBases earlier.size (some type)).visited[place]? =
        some (earlier.ancestors type)[place] := List.getElem?_eq_getElem inside
    rw [visited] at before
    by_cases few : place < earlier.size
    · rw [if_pos few] at before
      rw [if_pos (few.trans_le enlarges.size_le), enlarges.climb_eq closed has, ← before] at after
      exact after
    · rw [if_neg few] at before
      cases before
  obtain ⟨again, isLater⟩ := isPrefix
  refine ⟨again, isLater.symm, fun target isAgain => ?_⟩
  have isThere : target ∈ later.ancestors type := isLater ▸ List.mem_append_right _ isAgain
  obtain ⟨steps, reached⟩ := (laterClosed.mem_ancestors laterHas).mp isThere
  rw [enlarges.climb_eq closed has] at reached
  exact (closed.mem_ancestors has).mpr ⟨steps, reached⟩

/-- The types whose interfaces are a type's own are the same, in the same order. -/
theorem Enlarges.interfaceHolders :
    Repeats (later.interfaceHolders type) (earlier.interfaceHolders type) := by
  rw [Registry.interfaceHolders, Registry.interfaceHolders, enlarges.flagsOf_eq has]
  cases (earlier.flagsOf type).isInterface with
  | true => exact ⟨[], (List.append_nil _).symm, List.nil_subset _⟩
  | false => exact enlarges.ancestors closed laterClosed has

/-- The interfaces of a type stay. -/
theorem Enlarges.contracts_eq : later.contracts type = earlier.contracts type := by
  have holders := enlarges.interfaceHolders closed laterClosed has
  have listed := holders.firsts_flatMap fun holder isHolder =>
    enlarges.interfacesOf_eq (closed.interfaceHolders_has has holder isHolder)
  have frontier := frontier_firsts (@Closed.isContract_of_holders _ closed type)
  obtain ⟨more, isSize⟩ := Nat.exists_eq_add_of_le enlarges.size_le
  rw [contracts, contracts, listed, enlarges.closeInterfaces_eq closed frontier, isSize]
  exact frontier.settled closed (Nat.le_add_right _ _) more

/-- What a value can serve as stays. -/
theorem Enlarges.assignable_eq {target : TypeId} (targetHas : earlier.Has target) :
    later.assignable type target = earlier.assignable type target := by
  have above : (later.ancestors type).contains target =
      (earlier.ancestors type).contains target := by
    rw [Bool.eq_iff_iff, List.contains_iff_mem, List.contains_iff_mem]
    exact (enlarges.ancestors closed laterClosed has).mem_iff target
  rw [assignable, assignable, enlarges.flagsOf_eq targetHas, enlarges.flagsOf_eq has,
    enlarges.contracts_eq closed laterClosed has, above]

/-- The instances of a definition among a type and its interfaces stay. -/
theorem Enlarges.instancesIn_eq (definition : TypeId) :
    later.instancesIn type definition = earlier.instancesIn type definition := by
  rw [instancesIn, instancesIn, enlarges.contracts_eq closed laterClosed has]
  refine List.filter_congr fun other isUsed => enlarges.standsFor_eq ?_ definition
  rcases List.mem_cons.mp isUsed with rfl | isContract
  · exact has
  · exact closed.contracts_has other isContract

/-- Members of a type are looked for in the same types, in the same order. -/
theorem Enlarges.scopes : Repeats (later.scopes type) (earlier.scopes type) := by
  rw [Registry.scopes, Registry.scopes, enlarges.flagsOf_eq has,
    enlarges.contracts_eq closed laterClosed has]
  cases (earlier.flagsOf type).isInterface with
  | true => exact ⟨[], (List.append_nil _).symm, List.nil_subset _⟩
  | false => exact enlarges.ancestors closed laterClosed has

/-- The public member that passes a test stays. -/
theorem Enlarges.publicMember?_eq (test : MemberEntry → Bool) :
    later.publicMember? type test = earlier.publicMember? type test :=
  (enlarges.scopes closed laterClosed has).findSome? fun scope isScope =>
    enlarges.findMember?_eq (closed.scopes_has has scope isScope) closed.toWellFormed _

/-- The member that is recorded for another one stays. -/
theorem Enlarges.recorded?_eq (member : MemberId) :
    later.recorded? type member = earlier.recorded? type member :=
  (enlarges.ancestors closed laterClosed has).findSome? fun scope isScope =>
    enlarges.findMember?_eq (closed.ancestors_has has scope isScope) closed.toWellFormed _

end Hierarchy

end Foreach.Registry
