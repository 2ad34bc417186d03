import Foreach.Proofs.Types.WellFormed

/-!
# Copies of what a definition has

An instance mirrors content when it has what the content becomes, part by part and in order. A copy
of a member says which member it was made from. What it implements is decided once, when the copy is
made: the counterpart of the implemented member if there is one by then, and otherwise the
implemented member itself (`Registry.Follows`). Handles count members in the order they are made, so
a counterpart that was there is older than the copy and one that came later is younger.

All of this stays true when the registry grows.
-/
namespace Foreach

/-- What a type has of its own. -/
structure Content where
  /-- The base. -/
  base : Option TypeId
  /-- The interfaces. -/
  interfaces : List TypeId
  /-- The members. -/
  members : List MemberId

/-- What the entry of a type has of its own. -/
def TypeEntry.content (entry : TypeEntry) : Content := ⟨entry.base, entry.interfaces, entry.members⟩

/-- Nothing at all, as a new instance has. -/
def Content.empty : Content := ⟨none, [], []⟩

namespace Registry

/-- The member of a type at the place where its definition lists another member. -/
def counterpart? (registry : Registry) (owner : TypeId) (origin : MemberId) : Option MemberId :=
  (registry.type? owner).bind fun target =>
    (registry.type? (target.definition.getD owner)).bind fun source =>
      (source.members.idxOf? origin).bind fun place => target.members[place]?

/-- What a copy implements if the member it is made from implements a contract. -/
inductive Follows (registry : Registry) (substitution : Substitution) (copy : MemberId) :
    MemberId → MemberId → Prop where
  /-- The contract itself, if its type stays. -/
  | stays {contract : MemberId} {entry : MemberEntry}
    (known : registry.member? contract = some entry)
    (becomes : registry.Becomes substitution entry.owner entry.owner) :
    Follows registry substitution copy contract contract
  /-- The counterpart of the contract, if it is older than the copy. -/
  | found {contract result : MemberId} {entry : MemberEntry} {owner : TypeId}
    (known : registry.member? contract = some entry)
    (becomes : registry.Becomes substitution entry.owner owner) (moved : owner ≠ entry.owner)
    (atPlace : registry.counterpart? owner (entry.definition.getD contract) = some result)
    (older : result.index < copy.index) :
    Follows registry substitution copy contract result
  /-- The contract itself, if its counterpart is no older than the copy. -/
  | missed {contract : MemberId} {entry : MemberEntry} {owner : TypeId} {target source : TypeEntry}
    (known : registry.member? contract = some entry)
    (becomes : registry.Becomes substitution entry.owner owner) (moved : owner ≠ entry.owner)
    (targetKnown : registry.type? owner = some target)
    (sourceKnown : registry.type? (target.definition.getD owner) = some source)
    (originKnown : (entry.definition.getD contract).index < registry.members.size)
    (younger : ∀ result,
      registry.counterpart? owner (entry.definition.getD contract) = some result →
        copy.index ≤ result.index) :
    Follows registry substitution copy contract contract

/-- A member of an instance is the copy of a member. -/
structure CopyOf (registry : Registry) (substitution : Substitution) (type : TypeId)
    (member : MemberId) (source : MemberEntry) (copy : MemberId) (made : MemberEntry) : Prop where
  /-- The name is the same. -/
  name : made.name = source.name
  /-- The instance declares the copy. -/
  owner : made.owner = type
  /-- The flags are the same. -/
  flags : made.flags = source.flags
  /-- The signature is what the signature becomes. -/
  kind : registry.KindBecomes substitution source.kind made.kind
  /-- The copy says what it was made from. -/
  definition : made.definition = some (source.definition.getD member)
  /-- The copy implements what follows from what the member implements. -/
  implements : Option.Rel (registry.Follows substitution copy) source.implements made.implements

/-- A member of an instance copies a member, both registered. -/
def Copies (registry : Registry) (substitution : Substitution) (type : TypeId)
    (member copy : MemberId) : Prop :=
  ∃ source made, registry.member? member = some source ∧ registry.member? copy = some made ∧
    registry.CopyOf substitution type member source copy made

/-- An instance has what some content becomes. -/
structure Mirrors (registry : Registry) (substitution : Substitution) (type : TypeId)
    (whole part : Content) : Prop where
  /-- The base is what the base becomes. -/
  base : Option.Rel (registry.Becomes substitution) whole.base part.base
  /-- The interfaces are what the interfaces become. -/
  interfaces : List.Forall₂ (registry.Becomes substitution) whole.interfaces part.interfaces
  /-- The members are copies of the members. -/
  members : List.Forall₂ (registry.Copies substitution type) whole.members part.members

/-- What relates two options still does where everything related stays so. -/
theorem rel_imp {α β : Type} {before after : α → β → Prop} {left : Option α} {right : Option β}
    (weaker : ∀ first second, before first second → after first second)
    (related : Option.Rel before left right) : Option.Rel after left right := by
  cases related with
  | some holds => exact .some (weaker _ _ holds)
  | none => exact .none

section Growing

variable {later earlier : Registry} (grown : later.Grows earlier)
include grown

/-- A registered type stays registered, with its definition, and its members are only added to. -/
theorem Grows.lists {type : TypeId} {entry : TypeEntry}
    (known : earlier.type? type = some entry) :
    ∃ changed added, later.type? type = some changed ∧ changed.definition = entry.definition ∧
      changed.members = entry.members ++ added ∧
      ∀ member ∈ added, earlier.members.size ≤ member.index := by
  obtain ⟨changed, reached, -, definition, -, added, members, fresh⟩ := grown.types known
  exact ⟨changed, added, reached, definition, members, fresh⟩

/-- A counterpart stays the counterpart. -/
theorem Grows.counterpart? {owner : TypeId} {origin result : MemberId}
    (found : earlier.counterpart? owner origin = some result) :
    later.counterpart? owner origin = some result := by
  obtain ⟨target, targetKnown, inTarget⟩ := Option.bind_eq_some_iff.mp found
  obtain ⟨source, sourceKnown, inSource⟩ := Option.bind_eq_some_iff.mp inTarget
  obtain ⟨place, listed, holds⟩ := Option.bind_eq_some_iff.mp inSource
  obtain ⟨target', more, targetReached, definition, targetMembers, -⟩ := grown.lists targetKnown
  obtain ⟨source', added, sourceReached, -, sourceMembers, -⟩ := grown.lists sourceKnown
  obtain ⟨bound, -⟩ := List.getElem?_eq_some_iff.mp holds
  rw [Registry.counterpart?, targetReached, Option.bind_some, definition, sourceReached,
    Option.bind_some, sourceMembers, List.idxOf?, List.findIdx?_append]
  rw [List.idxOf?] at listed
  rw [listed, Option.some_or, Option.bind_some, targetMembers, List.getElem?_append_left bound]
  exact holds

/-- Where a member that is registered already had no counterpart, its counterpart is new. -/
theorem Grows.counterpart?_fresh {owner : TypeId} {origin result : MemberId}
    {target source : TypeEntry} (targetKnown : earlier.type? owner = some target)
    (sourceKnown : earlier.type? (target.definition.getD owner) = some source)
    (originKnown : origin.index < earlier.members.size)
    (absent : earlier.counterpart? owner origin = none)
    (found : later.counterpart? owner origin = some result) :
    earlier.members.size ≤ result.index := by
  obtain ⟨target', more, targetReached, definition, targetMembers, fresh⟩ := grown.lists targetKnown
  obtain ⟨source', added, sourceReached, -, sourceMembers, newer⟩ := grown.lists sourceKnown
  rw [Registry.counterpart?, targetKnown, Option.bind_some, sourceKnown, Option.bind_some] at absent
  rw [Registry.counterpart?, targetReached, Option.bind_some, definition, sourceReached,
    Option.bind_some] at found
  obtain ⟨place, listed, holds⟩ := Option.bind_eq_some_iff.mp found
  obtain ⟨inBounds, same, -⟩ := List.idxOf?_eq_some_iff.mp listed
  have inSource : origin ∈ source.members := by
    have listedLater : origin ∈ source'.members := same ▸ List.getElem_mem inBounds
    rw [sourceMembers] at listedLater
    cases List.mem_append.mp listedLater with
    | inl listedBefore => exact listedBefore
    | inr isNew => exact absurd originKnown (Nat.not_lt.mpr (newer origin isNew))
  have samePlace : source.members.idxOf? origin = some place := by
    cases before : source.members.idxOf? origin with
    | none => exact absurd inSource (List.idxOf?_eq_none_iff.mp before)
    | some place' =>
      rw [List.idxOf?] at before
      rw [sourceMembers, List.idxOf?, List.findIdx?_append, before, Option.some_or] at listed
      exact listed
  rw [samePlace, Option.bind_some, List.getElem?_eq_none_iff] at absent
  rw [targetMembers, List.getElem?_append_right absent] at holds
  exact fresh result (List.mem_of_getElem? holds)

/-- What a copy implements follows ever after. -/
theorem Follows.grow {substitution : Substitution} {copy contract result : MemberId}
    (noLater : copy.index ≤ earlier.members.size)
    (follows : earlier.Follows substitution copy contract result) :
    later.Follows substitution copy contract result := by
  cases follows with
  | stays known becomes => exact .stays (grown.members known) (becomes.grow grown)
  | found known becomes moved atPlace older =>
    exact .found (grown.members known) (becomes.grow grown) moved (grown.counterpart? atPlace) older
  | @missed entry owner _ _ known becomes moved targetKnown sourceKnown originKnown younger =>
    obtain ⟨target', -, targetReached, definition, -⟩ := grown.lists targetKnown
    obtain ⟨source', -, sourceReached, -⟩ := grown.lists sourceKnown
    rw [← definition] at sourceReached
    refine .missed (grown.members known) (becomes.grow grown) moved targetReached sourceReached
      (Nat.lt_of_lt_of_le originKnown grown.count) fun result found => ?_
    cases before : earlier.counterpart? owner (entry.definition.getD contract) with
    | none =>
      have isNew := grown.counterpart?_fresh targetKnown sourceKnown originKnown before found
      exact Nat.le_trans noLater isNew
    | some result' =>
      cases (grown.counterpart? before).symm.trans found
      exact younger result before

/-- A copy stays a copy. -/
theorem Copies.grow {substitution : Substitution} {type : TypeId} {member copy : MemberId}
    (copies : earlier.Copies substitution type member copy) :
    later.Copies substitution type member copy := by
  obtain ⟨source, made, sourceKnown, madeKnown, same⟩ := copies
  refine ⟨source, made, grown.members sourceKnown, grown.members madeKnown, same.name, same.owner,
    same.flags, same.kind.grow grown, same.definition, ?_⟩
  exact rel_imp (fun _ _ => Follows.grow grown (Nat.le_of_lt (index_lt_of_member? madeKnown)))
    same.implements

/-- What an instance mirrors, it mirrors ever after. -/
theorem Mirrors.grow {substitution : Substitution} {type : TypeId} {whole part : Content}
    (mirrors : earlier.Mirrors substitution type whole part) :
    later.Mirrors substitution type whole part where
  base := rel_imp (fun _ _ => Becomes.grow grown) mirrors.base
  interfaces := mirrors.interfaces.imp fun _ _ => Becomes.grow grown
  members := mirrors.members.imp fun _ _ => Copies.grow grown

end Growing

/-- A new instance mirrors nothing. -/
theorem Mirrors.empty {registry : Registry} {substitution : Substitution} {type : TypeId} :
    registry.Mirrors substitution type .empty .empty :=
  ⟨.none, .nil, .nil⟩

end Registry

end Foreach
