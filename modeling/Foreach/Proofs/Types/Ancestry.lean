import Mathlib.Data.List.Nodup
import Mathlib.Data.List.Perm.Subperm
import Foreach.Proofs.Types.Closed
import Foreach.Types.Hierarchy

/-!
# The hierarchy of a closed registry

In a closed registry every question about the hierarchy has an answer: a walk along bases never
leaves the registry, and as many steps as there are types are enough to visit all interfaces that
are reached. The interfaces of a type are therefore closed: the interfaces of one of them are among
them (`Closed.contracts_closed`).
-/
namespace Foreach.Registry

/-- Append a type that is not listed yet. -/
def addNew (listed : List TypeId) (next : TypeId) : List TypeId :=
  if next ∈ listed then listed else listed ++ [next]

/-- The first occurrences of the elements of a list. -/
def firsts (types : List TypeId) : List TypeId := types.foldl addNew []

section Appending

variable {listed extra known : List TypeId} {type : TypeId}

/-- A type that is appended is listed, with those before. -/
theorem mem_addNew {next : TypeId} : type ∈ addNew listed next ↔ type ∈ listed ∨ type = next := by
  unfold addNew
  by_cases isListed : next ∈ listed
  · rw [if_pos isListed]
    exact ⟨.inl, fun either => either.elim id fun same => same ▸ isListed⟩
  · rw [if_neg isListed, List.mem_append, List.mem_singleton]

/-- Nothing is appended twice. -/
theorem nodup_addNew (nodup : listed.Nodup) (next : TypeId) : (addNew listed next).Nodup := by
  unfold addNew
  by_cases isListed : next ∈ listed
  · rw [if_pos isListed]
    exact nodup
  · rw [if_neg isListed, List.nodup_append]
    refine ⟨nodup, List.nodup_singleton next, fun type inListed other isNext same => ?_⟩
    rw [List.mem_singleton] at isNext
    exact isListed (isNext ▸ same ▸ inListed)

/-- What is appended is listed, with what was listed. -/
theorem mem_foldl_addNew : type ∈ extra.foldl addNew listed ↔ type ∈ listed ∨ type ∈ extra := by
  induction extra generalizing listed with
  | nil => simp
  | cons next rest ih => rw [List.foldl_cons, ih, mem_addNew, List.mem_cons, or_assoc]

/-- Nothing is listed twice after types are appended. -/
theorem nodup_foldl_addNew (nodup : listed.Nodup) : (extra.foldl addNew listed).Nodup := by
  induction extra generalizing listed with
  | nil => exact nodup
  | cons next rest ih => exact ih (nodup_addNew nodup next)

/-- What is neither known nor listed yet is what is not listed yet after what is known. -/
theorem append_appendNew :
    known ++ appendNew known listed extra = extra.foldl addNew (known ++ listed) := by
  induction extra generalizing listed with
  | nil => rfl
  | cons next rest ih =>
    rw [appendNew, List.foldl_cons, List.foldl_cons, addNew]
    by_cases isListed : next ∈ known ++ listed
    · rw [if_pos isListed, if_pos (List.mem_append.mp isListed)]
      exact ih
    · rw [if_neg isListed, if_neg (mt List.mem_append.mpr isListed), List.append_assoc]
      exact ih

/-- If nothing is known or listed, the first occurrences are appended. -/
theorem appendNew_nil (types : List TypeId) : appendNew [] [] types = firsts types :=
  @append_appendNew [] types []

/-- A type is among the first occurrences exactly if it occurs. -/
@[simp] theorem mem_firsts {types : List TypeId} : type ∈ firsts types ↔ type ∈ types := by
  rw [firsts, mem_foldl_addNew, or_iff_right List.not_mem_nil]

/-- First occurrences are all different. -/
theorem nodup_firsts (types : List TypeId) : (firsts types).Nodup :=
  nodup_foldl_addNew List.nodup_nil

end Appending

/-- There are no more registered types in a list without repetitions than are registered. -/
theorem length_le_size {registry : Registry} {types : List TypeId} (nodup : types.Nodup)
    (registered : ∀ type ∈ types, registry.Has type) : types.length ≤ registry.size := by
  have injective : Function.Injective TypeId.index := by
    rintro ⟨_⟩ ⟨_⟩ rfl
    rfl
  have subset : types.map TypeId.index ⊆ List.range registry.size := by
    intro index isIndex
    obtain ⟨type, isType, rfl⟩ := List.mem_map.mp isIndex
    exact List.mem_range.mpr (registered type isType)
  have bound := ((List.Nodup.map injective nodup).subperm subset).length_le
  rw [List.length_map, List.length_range] at bound
  exact bound

/-- The state of a search for interfaces: each type is visited or pending once, and the interfaces
of what was visited are visited or pending. -/
structure Frontier (registry : Registry) (reached pending : List TypeId) : Prop where
  /-- Nothing is there twice. -/
  nodup : (reached ++ pending).Nodup
  /-- All is registered. -/
  registered : ∀ type ∈ reached ++ pending, registry.Has type
  /-- Nothing is missed. -/
  covered : ∀ type ∈ reached, ∀ interface ∈ registry.interfacesOf type,
    interface ∈ reached ++ pending

/-- No more types are visited and pending than are registered. -/
theorem Frontier.length_le {registry : Registry} {reached pending : List TypeId}
    (frontier : registry.Frontier reached pending) :
    reached.length + pending.length ≤ registry.size := by
  rw [← List.length_append]
  exact length_le_size frontier.nodup frontier.registered

section Search

variable {registry : Registry} (closed : registry.Closed)
include closed

/-- A listed interface is a contract. -/
theorem Closed.isContract_of_listed {type interface : TypeId}
    (isListed : interface ∈ registry.interfacesOf type) : registry.IsContract interface := by
  unfold interfacesOf at isListed
  cases known : registry.type? type with
  | none =>
    rw [known] at isListed
    cases isListed
  | some entry =>
    rw [known] at isListed
    exact closed.interfaces known isListed

omit closed in
/-- A contract is registered. -/
theorem IsContract.has {type : TypeId} (isContract : registry.IsContract type) :
    registry.Has type := by
  obtain ⟨entry, known, -⟩ := isContract
  exact has_iff.mpr ⟨entry, known⟩

omit closed in
/-- A search for interfaces starts with contracts, each once. -/
theorem frontier_firsts {types : List TypeId}
    (contracts : ∀ type ∈ types, registry.IsContract type) :
    registry.Frontier [] (firsts types) :=
  ⟨nodup_firsts _, fun _ isThere => (contracts _ (mem_firsts.mp isThere)).has,
    fun _ isReached => nomatch isReached⟩

/-- One more interface is visited. -/
theorem Frontier.step {reached pending : List TypeId} {next : TypeId}
    (frontier : registry.Frontier reached (next :: pending)) :
    registry.Frontier (reached ++ [next])
      (appendNew (reached ++ [next]) pending (registry.interfacesOf next)) := by
  have together : reached ++ [next] ++ pending = reached ++ next :: pending := by simp
  refine ⟨?_, fun type isThere => ?_, fun type isReached interface isListed => ?_⟩
  · rw [append_appendNew, together]
    exact nodup_foldl_addNew frontier.nodup
  · rw [append_appendNew, together, mem_foldl_addNew] at isThere
    cases isThere with
    | inl before => exact frontier.registered type before
    | inr isNew => exact (closed.isContract_of_listed isNew).has
  · rw [append_appendNew, together, mem_foldl_addNew]
    cases List.mem_append.mp isReached with
    | inl before => exact .inl (frontier.covered type before interface isListed)
    | inr isNext =>
      rw [List.mem_singleton.mp isNext] at isListed
      exact .inr isListed

/-- A search with enough steps ends with nothing pending, and all that was there is visited. -/
theorem Frontier.run {steps : Nat} {reached pending : List TypeId}
    (frontier : registry.Frontier reached pending)
    (enough : registry.size ≤ steps + reached.length) :
    registry.Frontier (registry.closeInterfaces steps reached pending) [] ∧
      reached ++ pending ⊆ registry.closeInterfaces steps reached pending := by
  induction steps generalizing reached pending with
  | zero =>
    have bound := frontier.length_le
    have nothing : pending = [] := List.eq_nil_of_length_eq_zero (by omega)
    rw [nothing] at frontier ⊢
    rw [closeInterfaces]
    exact ⟨frontier, by simp⟩
  | succ steps ih =>
    cases pending with
    | nil =>
      rw [closeInterfaces]
      exact ⟨frontier, by simp⟩
    | cons next pending =>
      have later := frontier.step closed
      obtain ⟨done, within⟩ := ih later (by rw [List.length_append, List.length_singleton]; omega)
      rw [closeInterfaces]
      refine ⟨done, fun type isThere => within ?_⟩
      rw [append_appendNew, mem_foldl_addNew]
      exact .inl (by simpa using isThere)

omit closed in
/-- What holds of all that is there from the start, and of the interfaces of what it holds of, holds
of all that is visited. -/
theorem closeInterfaces_induct (holds : TypeId → Prop)
    (step : ∀ type, holds type → ∀ interface ∈ registry.interfacesOf type, holds interface)
    {steps : Nat} {reached pending : List TypeId}
    (start : ∀ type ∈ reached ++ pending, holds type) :
    ∀ type ∈ registry.closeInterfaces steps reached pending, holds type := by
  induction steps generalizing reached pending with
  | zero => exact fun type isReached => start type (List.mem_append_left _ isReached)
  | succ steps ih =>
    cases pending with
    | nil => exact fun type isReached => start type (List.mem_append_left _ isReached)
    | cons next pending =>
      refine ih fun type isThere => ?_
      have together : reached ++ [next] ++ pending = reached ++ next :: pending := by simp
      rw [append_appendNew, together, mem_foldl_addNew] at isThere
      cases isThere with
      | inl before => exact start type before
      | inr isNew =>
        have isNext : next ∈ reached ++ next :: pending := by simp
        exact step next (start next isNext) type isNew

end Search

/-- The flags of a type; a type that is not there has none. -/
def flagsOf (registry : Registry) (type : TypeId) : TypeFlags :=
  match registry.type? type with
  | some entry => entry.flags
  | none => {}

/-- The types of a walk along bases. -/
def ancestors (registry : Registry) (type : TypeId) : List TypeId :=
  (registry.baseWalk type).visited

/-- The types whose declared interfaces are a type's own. -/
def interfaceHolders (registry : Registry) (type : TypeId) : List TypeId :=
  if (registry.flagsOf type).isInterface then [type] else registry.ancestors type

/-- The interfaces that a type has. -/
def contracts (registry : Registry) (type : TypeId) : List TypeId :=
  registry.closeInterfaces registry.size []
    (firsts ((registry.interfaceHolders type).flatMap registry.interfacesOf))

/-- Whether a type is a definition or an instance of it. -/
def standsFor (registry : Registry) (definition type : TypeId) : Bool :=
  type = definition || (registry.type? type).bind TypeEntry.definition = some definition

section Answers

variable {registry : Registry} (closed : registry.Closed) {type : TypeId} (has : registry.Has type)

include has in
/-- A registered type has an entry, with its flags. -/
theorem exists_entry : ∃ entry, registry.entry type = .ok entry ∧
    registry.type? type = some entry ∧ entry.flags = registry.flagsOf type := by
  obtain ⟨entry, known⟩ := has_iff.mp has
  refine ⟨entry, Checked.ofOption_eq_ok.mpr known, known, ?_⟩
  rw [flagsOf, known]

include has in
/-- Whether a registered type is a contract is among its flags. -/
theorem isInterface_eq_ok :
    registry.isInterface type = .ok (registry.flagsOf type).isInterface := by
  obtain ⟨entry, found, -, flags⟩ := exists_entry has
  rw [isInterface, found, ← flags]
  rfl

include has in
/-- Whether a registered type is on the stack alone is among its flags. -/
theorem isByRefLike_eq_ok :
    registry.isByRefLike type = .ok (registry.flagsOf type).byRefLike := by
  obtain ⟨entry, found, -, flags⟩ := exists_entry has
  rw [isByRefLike, found, ← flags]
  rfl

include has in
/-- Whether a registered type is copied is among its flags. -/
theorem isValueType_eq_ok :
    registry.isValueType type = .ok (registry.flagsOf type).valueType := by
  obtain ⟨entry, found, -, flags⟩ := exists_entry has
  rw [isValueType, found, ← flags]
  rfl

include has in
/-- Whether a registered type is a definition or an instance of it is known. -/
theorem isInstanceOf_eq_ok (definition : TypeId) :
    registry.isInstanceOf type definition = .ok (registry.standsFor definition type) := by
  obtain ⟨entry, found, known, -⟩ := exists_entry has
  unfold isInstanceOf standsFor
  by_cases same : type = definition
  · rw [if_pos same, decide_eq_true same, Bool.true_or]
  · rw [if_neg same, found, known, Option.bind_some, decide_eq_false same, Bool.false_or]
    rfl

include closed in
/-- A walk along bases from a registered type visits registered types only and is complete. -/
theorem Closed.walkBases {steps : Nat} {from? : Option TypeId}
    (registered : ∀ type ∈ from?, registry.Has type) :
    (registry.walkBases steps from?).complete = true ∧
      ∀ type ∈ (registry.walkBases steps from?).visited, registry.Has type := by
  induction steps generalizing from? with
  | zero => cases from? <;> exact ⟨rfl, fun _ isVisited => nomatch isVisited⟩
  | succ steps ih =>
    cases from? with
    | none => exact ⟨rfl, fun _ isVisited => nomatch isVisited⟩
    | some type =>
      have has := registered type rfl
      obtain ⟨entry, known⟩ := has_iff.mp has
      obtain ⟨complete, visited⟩ := ih fun base isBase => closed.bases known isBase
      rw [Registry.walkBases, known]
      refine ⟨complete, fun other isVisited => ?_⟩
      cases List.mem_cons.mp isVisited with
      | inl isType => exact isType ▸ has
      | inr isAbove => exact visited other isAbove

include has in
/-- A walk along bases starts with the type itself. -/
theorem ancestors_eq_cons : ∃ above, registry.ancestors type = type :: above := by
  obtain ⟨entry, known⟩ := has_iff.mp has
  obtain ⟨steps, isSize⟩ := Nat.exists_eq_add_one_of_ne_zero (Nat.ne_of_gt (Nat.zero_lt_of_lt has))
  rw [ancestors, baseWalk, isSize, Registry.walkBases, known]
  exact ⟨_, rfl⟩

include has in
/-- A type is among the types whose interfaces are its own. -/
theorem mem_interfaceHolders : type ∈ registry.interfaceHolders type := by
  obtain ⟨above, isAncestors⟩ := ancestors_eq_cons has
  rw [interfaceHolders, isAncestors]
  cases (registry.flagsOf type).isInterface <;> exact List.mem_cons_self ..

include closed has

/-- The walk along bases is complete. -/
theorem Closed.baseWalk_complete : (registry.baseWalk type).complete = true :=
  (closed.walkBases fun _ isType => Option.some.inj isType ▸ has).1

/-- The base chain is the walk along bases. -/
theorem Closed.baseChain_eq_ok : registry.baseChain type = .ok (registry.ancestors type) := by
  rw [baseChain, Walk.toList, if_pos (closed.baseWalk_complete has)]
  rfl

/-- A search along bases finds the first answer. -/
theorem Closed.search_eq_ok {α : Type} (answer : TypeId → Option α) :
    (registry.baseWalk type).search answer = .ok ((registry.ancestors type).findSome? answer) := by
  rw [Walk.search, ancestors]
  cases (registry.baseWalk type).visited.findSome? answer with
  | some found => rfl
  | none =>
    rw [if_pos (closed.baseWalk_complete has)]

/-- A type's interfaces are found. -/
theorem Closed.allInterfaces_eq_ok :
    registry.allInterfaces type = .ok (registry.contracts type) := by
  have roots : registry.interfaceRoots type = .ok (registry.interfaceHolders type) := by
    rw [interfaceRoots, isInterface_eq_ok has, interfaceHolders]
    cases (registry.flagsOf type).isInterface with
    | true => rfl
    | false => exact closed.baseChain_eq_ok has
  rw [allInterfaces, roots, contracts, ← appendNew_nil]
  rfl

/-- Whether a type has an interface is known. -/
theorem Closed.implements_eq_ok (interface : TypeId) :
    registry.implements type interface = .ok ((registry.contracts type).contains interface) := by
  rw [implements, closed.allInterfaces_eq_ok has]
  rfl

omit has

/-- The interfaces that a search for those of a type starts with are contracts. -/
theorem Closed.isContract_of_holders :
    ∀ interface ∈ (registry.interfaceHolders type).flatMap registry.interfacesOf,
      registry.IsContract interface := by
  intro interface isThere
  obtain ⟨holder, -, isListed⟩ := List.mem_flatMap.mp isThere
  exact closed.isContract_of_listed isListed

/-- The search for the interfaces of a type ends with nothing pending. -/
theorem Closed.contracts_frontier :
    registry.Frontier (registry.contracts type) [] ∧
      ∀ holder ∈ registry.interfaceHolders type,
        ∀ interface ∈ registry.interfacesOf holder, interface ∈ registry.contracts type := by
  have start := frontier_firsts (@Closed.isContract_of_holders _ closed type)
  obtain ⟨done, within⟩ := start.run closed (Nat.le_add_right registry.size _)
  refine ⟨done, fun holder isHolder interface isListed => within ?_⟩
  exact mem_firsts.mpr (List.mem_flatMap.mpr ⟨holder, isHolder, isListed⟩)

/-- An interface that one of the types whose interfaces are a type's own lists is an interface of
the type. -/
theorem Closed.mem_contracts_of_holder {holder interface : TypeId}
    (isHolder : holder ∈ registry.interfaceHolders type)
    (isListed : interface ∈ registry.interfacesOf holder) : interface ∈ registry.contracts type :=
  closed.contracts_frontier.2 holder isHolder interface isListed

/-- An interface of an interface of a type is an interface of the type. -/
theorem Closed.mem_contracts_of_listed {interface other : TypeId}
    (isContract : interface ∈ registry.contracts type)
    (isListed : other ∈ registry.interfacesOf interface) : other ∈ registry.contracts type := by
  have covered := closed.contracts_frontier.1.covered interface isContract other isListed
  rwa [List.append_nil] at covered

/-- The interfaces of a type are contracts. -/
theorem Closed.isContract_of_mem_contracts {interface : TypeId}
    (isContract : interface ∈ registry.contracts type) : registry.IsContract interface := by
  refine closeInterfaces_induct registry.IsContract
    (fun _ _ _ isListed => closed.isContract_of_listed isListed) (fun other isThere => ?_)
    interface isContract
  exact closed.isContract_of_holders other (mem_firsts.mp isThere)

/-- The interfaces of an interface of a type are interfaces of the type. -/
theorem Closed.contracts_closed {interface : TypeId}
    (isContract : interface ∈ registry.contracts type) :
    registry.contracts interface ⊆ registry.contracts type := by
  obtain ⟨entry, known, isInterface⟩ := closed.isContract_of_mem_contracts isContract
  have flagged : (registry.flagsOf interface).isInterface = true := by
    rw [flagsOf, known]
    exact isInterface
  refine closeInterfaces_induct (· ∈ registry.contracts type)
    (fun _ isMember _ isListed => closed.mem_contracts_of_listed isMember isListed)
    (fun other isThere => ?_)
  obtain ⟨holder, isHolder, isListed⟩ := List.mem_flatMap.mp (mem_firsts.mp isThere)
  rw [interfaceHolders, if_pos flagged, List.mem_singleton] at isHolder
  exact closed.mem_contracts_of_listed isContract (isHolder ▸ isListed)

end Answers

end Foreach.Registry
