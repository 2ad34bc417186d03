import Foreach.Proofs.Types.Convertible

/-!
# The two walks of the hierarchy

Bases and interfaces may be linked in any shape, circles included. What the walk along bases and the
search for interfaces come to is said without them: a type is reached by `climb`ing, and an
interface through a number of interface links (`LinkedBy`).

The search visits the nearest interfaces first because of two facts that every step keeps
(`Layered`): the types in the queue are in the order of their distances, and no two of them are more
than one link apart. Both walks take a bounded number of steps, and in every registry that is built
the bound cuts nothing off (`Built.walks_exact`).
-/
namespace Foreach.Registry

/-- A type is reached from one of some types through a number of interface links. -/
def LinkedBy (registry : Registry) (roots : List TypeId) : Nat → TypeId → Prop
  | 0, type => type ∈ roots
  | links + 1, type =>
    ∃ nearer, registry.LinkedBy roots links nearer ∧ type ∈ registry.interfacesOf nearer

/-- A type is reached through one interface link or more, up to a number of them. -/
def Within (registry : Registry) (roots : List TypeId) (links : Nat) (type : TypeId) : Prop :=
  ∃ fewer, 0 < fewer ∧ fewer ≤ links ∧ registry.LinkedBy roots fewer type

/-- What a list of the interfaces that some types have is to be. -/
structure IsClosure (registry : Registry) (roots interfaces : List TypeId) : Prop where
  /-- No interface is there twice. -/
  nodup : interfaces.Nodup
  /-- An interface is there exactly if it is reached through one link or more. -/
  mem_iff : ∀ interface, interface ∈ interfaces ↔
    ∃ links, 0 < links ∧ registry.LinkedBy roots links interface
  /-- An interface that stands before another is reached through no more links. -/
  nearest : interfaces.Pairwise fun near far =>
    ∀ links, registry.Within roots links far → registry.Within roots links near
  /-- First are those that the types list themselves, type by type, in the order listed. -/
  declared : (roots.flatMap registry.interfacesOf).eraseDups <+: interfaces
  /-- A search that takes any more steps comes to the same. -/
  settled : ∀ more, registry.closeInterfaces (registry.size + more) []
    (appendNew [] [] (roots.flatMap registry.interfacesOf)) = interfaces

/-- What a list of a type and those above it is to be. -/
structure IsBaseChain (registry : Registry) (type : TypeId) (chain : List TypeId) : Prop where
  /-- A type is there exactly if it is reached along bases. -/
  mem_iff : ∀ target, target ∈ chain ↔ ∃ steps, registry.climb steps type = some target
  /-- Each place holds the type that is reached in as many steps. -/
  ordered : ∀ steps < chain.length, chain[steps]? = registry.climb steps type
  /-- If no type is above itself, each is there once, and the last has no base. -/
  acyclic : (∀ target ∈ chain, ∀ more, registry.climb (more + 1) target ≠ some target) →
    chain.Nodup ∧ ∃ top entry, chain.getLast? = some top ∧ registry.type? top = some entry ∧
      entry.base = none

section Distances

variable {registry : Registry} {roots : List TypeId} {links : Nat} {type : TypeId}

/-- What is within a distance is within a longer one. -/
theorem Within.mono (within : registry.Within roots links type) {more : Nat}
    (longer : links ≤ more) : registry.Within roots more type := by
  obtain ⟨fewer, positive, few, linked⟩ := within
  exact ⟨fewer, positive, few.trans longer, linked⟩

/-- Nothing is reached through one link or more without a link. -/
theorem Within.exists_eq_succ (within : registry.Within roots links type) :
    ∃ fewer, links = fewer + 1 := by
  obtain ⟨fewer, positive, few, -⟩ := within
  exact Nat.exists_eq_add_one_of_ne_zero (by omega)

/-- What is within a distance is listed by one of the types themselves, or by what is within a
shorter distance. -/
theorem within_succ : registry.Within roots (links + 1) type ↔
    type ∈ roots.flatMap registry.interfacesOf ∨
      ∃ nearer, registry.Within roots links nearer ∧ type ∈ registry.interfacesOf nearer := by
  constructor
  · rintro ⟨fewer, positive, few, linked⟩
    obtain ⟨fewer, rfl⟩ := Nat.exists_eq_add_one_of_ne_zero (Nat.ne_of_gt positive)
    obtain ⟨nearer, isNearer, isListed⟩ := linked
    cases fewer with
    | zero => exact .inl (List.mem_flatMap.mpr ⟨nearer, isNearer, isListed⟩)
    | succ fewer =>
      exact .inr ⟨nearer, ⟨fewer + 1, Nat.succ_pos _, by omega, isNearer⟩, isListed⟩
  · rintro (isDeclared | ⟨nearer, ⟨fewer, positive, few, linked⟩, isListed⟩)
    · obtain ⟨root, isRoot, isListed⟩ := List.mem_flatMap.mp isDeclared
      exact ⟨1, Nat.one_pos, by omega, root, isRoot, isListed⟩
    · exact ⟨fewer + 1, Nat.succ_pos _, by omega, nearer, linked, isListed⟩

/-- What one of the types lists itself is within every distance but none. -/
theorem within_of_declared (isDeclared : type ∈ roots.flatMap registry.interfacesOf)
    (positive : 0 < links) : registry.Within roots links type :=
  (within_succ.mpr (.inl isDeclared)).mono (show 0 + 1 ≤ links from positive)

/-- What is reached through one link or more is within some distance. -/
theorem exists_within : (∃ links, registry.Within roots links type) ↔
    ∃ links, 0 < links ∧ registry.LinkedBy roots links type := by
  constructor
  · rintro ⟨-, links, positive, -, linked⟩
    exact ⟨links, positive, linked⟩
  · rintro ⟨links, positive, linked⟩
    exact ⟨links, links, positive, Nat.le_refl _, linked⟩

end Distances

section Appending

variable {listed extra : List TypeId}

/-- To append what is not listed is to append, each once, those that are not. -/
theorem foldl_addNew_eq : extra.foldl addNew listed =
    listed ++ (extra.filter (· ∉ listed)).eraseDups := by
  induction extra generalizing listed with
  | nil => simp
  | cons next rest ih =>
    rw [List.foldl_cons, addNew]
    by_cases isListed : next ∈ listed
    · rw [if_pos isListed, ih, List.filter_cons_of_neg (by simpa using isListed)]
    · rw [if_neg isListed, ih, List.filter_cons_of_pos (by simpa using isListed),
        List.eraseDups_cons, List.filter_filter, List.append_assoc, List.singleton_append]
      have same (other : TypeId) : decide (other ∉ listed ++ [next]) =
          (!other == next && decide (other ∉ listed)) := by
        rw [Bool.eq_iff_iff]
        simp [and_comm]
      simp only [same]

/-- First occurrences are what is left without repetitions. -/
theorem firsts_eq_eraseDups (types : List TypeId) : firsts types = types.eraseDups := by
  rw [firsts, foldl_addNew_eq]
  simp

/-- An order in which what is appended comes after all that is there is kept. -/
theorem pairwise_foldl_addNew {order : TypeId → TypeId → Prop} (ordered : listed.Pairwise order)
    (behind : ∀ first, first ∈ listed ∨ first ∈ extra → ∀ second ∈ extra, second ∉ listed →
      order first second) : (extra.foldl addNew listed).Pairwise order := by
  induction extra generalizing listed with
  | nil => exact ordered
  | cons next rest ih =>
    rw [List.foldl_cons, addNew]
    by_cases isListed : next ∈ listed
    · rw [if_pos isListed]
      exact ih ordered fun first isThere second isSecond =>
        behind first (isThere.imp_right (List.mem_cons_of_mem _)) second
          (List.mem_cons_of_mem _ isSecond)
    · rw [if_neg isListed]
      refine ih ?_ fun first isThere second isSecond isNew => ?_
      · rw [List.pairwise_append]
        refine ⟨ordered, List.pairwise_singleton _ _, fun first isFirst second isNext => ?_⟩
        rw [List.mem_singleton.mp isNext]
        exact behind first (.inl isFirst) next List.mem_cons_self isListed
      · refine behind first ?_ second (List.mem_cons_of_mem _ isSecond)
          fun before => isNew (List.mem_append_left _ before)
        rcases isThere with before | isRest
        · refine (List.mem_append.mp before).imp_right fun isNext => ?_
          rw [List.mem_singleton.mp isNext]
          exact List.mem_cons_self
        · exact .inr (List.mem_cons_of_mem _ isRest)

end Appending

section Search

variable {registry : Registry} (closed : registry.Closed) {steps : Nat}
  {reached pending : List TypeId}
include closed

/-- What one step of a search keeps holds when a search with enough steps has ended, with nothing
pending. -/
theorem Frontier.run_induct (frontier : registry.Frontier reached pending)
    (enough : registry.size ≤ steps + reached.length)
    (holds : List TypeId → List TypeId → Prop)
    (step : ∀ {reached next pending}, registry.Frontier reached (next :: pending) →
      holds reached (next :: pending) →
        holds (reached ++ [next])
          (appendNew (reached ++ [next]) pending (registry.interfacesOf next)))
    (start : holds reached pending) :
    holds (registry.closeInterfaces steps reached pending) [] := by
  induction steps generalizing reached pending with
  | zero =>
    have bound := frontier.length_le
    have nothing : pending = [] := List.eq_nil_of_length_eq_zero (by omega)
    rw [nothing] at start
    exact start
  | succ steps ih =>
    cases pending with
    | nil => exact start
    | cons next pending =>
      exact ih (frontier.step closed) (by rw [List.length_append, List.length_singleton]; omega)
        (step frontier start)

/-- A search with enough steps comes to the same with any more. -/
theorem Frontier.settled (frontier : registry.Frontier reached pending)
    (enough : registry.size ≤ steps + reached.length) (more : Nat) :
    registry.closeInterfaces (steps + more) reached pending =
      registry.closeInterfaces steps reached pending := by
  induction steps generalizing reached pending with
  | zero =>
    have bound := frontier.length_le
    have nothing : pending = [] := List.eq_nil_of_length_eq_zero (by omega)
    rw [nothing]
    cases more <;> rfl
  | succ steps ih =>
    rw [Nat.succ_add]
    cases pending with
    | nil => rfl
    | cons next pending =>
      exact ih (frontier.step closed) (by rw [List.length_append, List.length_singleton]; omega)

/-- A search visits what is there in the order in which it is there, and what it adds later. -/
theorem Frontier.prefix_run (frontier : registry.Frontier reached pending)
    (enough : registry.size ≤ steps + reached.length) :
    reached ++ pending <+: registry.closeInterfaces steps reached pending := by
  have run := frontier.run_induct closed enough
    (fun later waiting => reached ++ pending <+: later ++ waiting)
    (fun {later next waiting} _ before => ?_) (List.prefix_refl _)
  · rwa [List.append_nil] at run
  · have together : later ++ [next] ++ waiting = later ++ next :: waiting := by simp
    rw [append_appendNew, foldl_addNew_eq, together]
    exact before.trans (List.prefix_append _ _)

end Search

/-- The order in which a search from some types has its queue: what is visited or pending is reached
through one link or more, nearer types come first, and no type that is pending is more than one link
nearer than another that is there. -/
structure Layered (registry : Registry) (roots reached pending : List TypeId) : Prop where
  /-- What is there is reached. -/
  linked : ∀ type ∈ reached ++ pending, ∃ links, registry.Within roots links type
  /-- What the types list themselves is there. -/
  started : roots.flatMap registry.interfacesOf ⊆ reached ++ pending
  /-- What is nearer comes first. -/
  nearest : (reached ++ pending).Pairwise fun near far =>
    ∀ links, registry.Within roots links far → registry.Within roots links near
  /-- What is there is at most one link beyond what is pending. -/
  level : ∀ near ∈ pending, ∀ far ∈ reached ++ pending, ∀ links,
    registry.Within roots links near → registry.Within roots (links + 1) far

section Layers

variable {registry : Registry} {roots reached pending : List TypeId} {next : TypeId}

/-- A search starts with what the types list themselves, all at the same distance. -/
theorem layered_firsts : registry.Layered roots []
    (firsts (roots.flatMap registry.interfacesOf)) := by
  have declared {type : TypeId}
      (isThere : type ∈ [] ++ firsts (roots.flatMap registry.interfacesOf)) {links : Nat}
      (positive : 0 < links) : registry.Within roots links type :=
    within_of_declared (mem_firsts.mp isThere) positive
  refine ⟨fun type isThere => ⟨1, declared isThere Nat.one_pos⟩,
    fun type isDeclared => mem_firsts.mpr isDeclared, ?_,
    fun _ _ far isFar links _ => declared isFar (Nat.succ_pos _)⟩
  refine List.pairwise_of_forall_mem_list fun near isNear far _ links within => ?_
  obtain ⟨fewer, rfl⟩ := within.exists_eq_succ
  exact declared isNear (Nat.succ_pos _)

/-- The next type to visit is no further than what is pending. -/
theorem Layered.next_nearest (layered : registry.Layered roots reached (next :: pending))
    {type : TypeId} (isPending : type ∈ next :: pending) {links : Nat}
    (within : registry.Within roots links type) : registry.Within roots links next := by
  have ordered := (List.pairwise_append.mp layered.nearest).2.1
  rcases List.mem_cons.mp isPending with rfl | isLater
  · exact within
  · exact (List.pairwise_cons.mp ordered).1 type isLater links within

/-- The next type to visit is no further than any type that is not visited. -/
theorem Layered.next_within (frontier : registry.Frontier reached (next :: pending))
    (layered : registry.Layered roots reached (next :: pending)) {type : TypeId} {links : Nat}
    (within : registry.Within roots links type) (unvisited : type ∉ reached) :
    registry.Within roots links next := by
  induction links generalizing type with
  | zero =>
    obtain ⟨_, impossible⟩ := within.exists_eq_succ
    cases impossible
  | succ links ih =>
    have ofThere (isThere : type ∈ reached ++ next :: pending) :
        registry.Within roots (links + 1) next :=
      layered.next_nearest ((List.mem_append.mp isThere).resolve_left unvisited) within
    rcases within_succ.mp within with isDeclared | ⟨nearer, nearerWithin, isListed⟩
    · exact ofThere (layered.started isDeclared)
    · by_cases isVisited : nearer ∈ reached
      · exact ofThere (frontier.covered nearer isVisited type isListed)
      · exact (ih nearerWithin isVisited).mono (Nat.le_succ _)

/-- A type that is not there yet is one link beyond the next type to visit, or further. -/
theorem Layered.next_within_of_new (frontier : registry.Frontier reached (next :: pending))
    (layered : registry.Layered roots reached (next :: pending)) {type : TypeId} {links : Nat}
    (isNew : type ∉ reached ++ next :: pending) (within : registry.Within roots links type) :
    ∃ fewer, links = fewer + 1 ∧ registry.Within roots fewer next := by
  obtain ⟨fewer, rfl⟩ := within.exists_eq_succ
  refine ⟨fewer, rfl, ?_⟩
  rcases within_succ.mp within with isDeclared | ⟨nearer, nearerWithin, isListed⟩
  · exact absurd (layered.started isDeclared) isNew
  · exact layered.next_within frontier nearerWithin fun isVisited =>
      isNew (frontier.covered nearer isVisited type isListed)

/-- One more interface is visited: what it adds is one link further. -/
theorem Layered.step (frontier : registry.Frontier reached (next :: pending))
    (layered : registry.Layered roots reached (next :: pending)) :
    registry.Layered roots (reached ++ [next])
      (appendNew (reached ++ [next]) pending (registry.interfacesOf next)) := by
  have together : reached ++ [next] ++ pending = reached ++ next :: pending := by simp
  have all : reached ++ [next] ++
      appendNew (reached ++ [next]) pending (registry.interfacesOf next) =
        (registry.interfacesOf next).foldl addNew (reached ++ next :: pending) := by
    rw [append_appendNew, together]
  have isNextThere : next ∈ reached ++ next :: pending := by simp
  -- What the next type brings within reach: all that was there, and what it lists.
  have reaches {far : TypeId} (isThere : far ∈ reached ++ next :: pending ∨
      far ∈ registry.interfacesOf next) {links : Nat} (within : registry.Within roots links next) :
      registry.Within roots (links + 1) far := by
    rcases isThere with before | isListed
    · exact layered.level next List.mem_cons_self far before links within
    · exact within_succ.mpr (.inr ⟨next, within, isListed⟩)
  refine ⟨fun type isThere => ?_, fun type isDeclared => ?_, ?_, fun near isNear far isFar links
    within => ?_⟩
  · rw [all, mem_foldl_addNew] at isThere
    obtain ⟨links, within⟩ := layered.linked next isNextThere
    exact ⟨links + 1, reaches isThere within⟩
  · rw [all, mem_foldl_addNew]
    exact .inl (layered.started isDeclared)
  · rw [all]
    refine pairwise_foldl_addNew layered.nearest fun first isThere second _ isNew links within => ?_
    obtain ⟨fewer, rfl, nextWithin⟩ := layered.next_within_of_new frontier isNew within
    exact reaches isThere nextWithin
  · rw [all, mem_foldl_addNew] at isFar
    refine reaches isFar ?_
    by_cases before : near ∈ reached ++ next :: pending
    · -- A type that was there and is pending was not visited, since nothing is there twice.
      refine layered.next_nearest ?_ within
      have distinct : (reached ++ [next] ++
          appendNew (reached ++ [next]) pending (registry.interfacesOf next)).Nodup := by
        rw [all]
        exact nodup_foldl_addNew frontier.nodup
      have unvisited : near ∉ reached := fun isVisited =>
        (List.nodup_append.mp distinct).2.2 near (List.mem_append_left _ isVisited) near isNear rfl
      exact (List.mem_append.mp before).resolve_left unvisited
    · obtain ⟨fewer, rfl, nextWithin⟩ := layered.next_within_of_new frontier before within
      exact nextWithin.mono (Nat.le_succ _)

/-- When nothing is pending, all that is reached is visited. -/
theorem Layered.visited (frontier : registry.Frontier reached [])
    (layered : registry.Layered roots reached []) {type : TypeId} {links : Nat}
    (within : registry.Within roots links type) : type ∈ reached := by
  have there {other : TypeId} (isThere : other ∈ reached ++ []) : other ∈ reached := by
    rwa [List.append_nil] at isThere
  induction links generalizing type with
  | zero =>
    obtain ⟨_, impossible⟩ := within.exists_eq_succ
    cases impossible
  | succ links ih =>
    rcases within_succ.mp within with isDeclared | ⟨nearer, nearerWithin, isListed⟩
    · exact there (layered.started isDeclared)
    · exact there (frontier.covered nearer (ih nearerWithin) type isListed)

/-- A search that is started from registered types comes to the interfaces that they have. -/
theorem Closed.isClosure (closed : registry.Closed) :
    registry.IsClosure roots (registry.closeInterfaces registry.size []
      (appendNew [] [] (roots.flatMap registry.interfacesOf))) := by
  have contracts : ∀ interface ∈ roots.flatMap registry.interfacesOf,
      registry.IsContract interface := by
    intro interface isThere
    obtain ⟨root, -, isListed⟩ := List.mem_flatMap.mp isThere
    exact closed.isContract_of_listed isListed
  have frontier := frontier_firsts contracts
  have enough : registry.size ≤ registry.size + ([] : List TypeId).length := Nat.le_add_right _ _
  have done := (frontier.run closed enough).1
  have layered := frontier.run_induct closed enough (registry.Layered roots)
    (fun before held => held.step before) layered_firsts
  rw [appendNew_nil]
  refine ⟨?_, fun interface => ?_, ?_, ?_, fun more => ?_⟩
  · rw [← List.append_nil (registry.closeInterfaces _ _ _)]
    exact done.nodup
  · rw [← exists_within]
    exact ⟨fun isThere => layered.linked interface (List.mem_append_left _ isThere),
      fun ⟨links, within⟩ => layered.visited done within⟩
  · rw [← List.append_nil (registry.closeInterfaces _ _ _)]
    exact layered.nearest
  · rw [← firsts_eq_eraseDups]
    exact frontier.prefix_run closed enough
  · rw [appendNew_nil]
    exact frontier.settled closed enough more

end Layers

section Bases

variable {registry : Registry} (closed : registry.Closed) {type : TypeId} (has : registry.Has type)
include closed has

/-- A walk along bases visits in each step the type that is reached in as many. -/
theorem Closed.walkBases_getElem? (steps place : Nat) :
    (registry.walkBases steps (some type)).visited[place]? =
      if place < steps then registry.climb place type else none := by
  induction steps generalizing type place with
  | zero => rfl
  | succ steps ih =>
    obtain ⟨entry, known⟩ := has_iff.mp has
    rw [Registry.walkBases, known]
    cases place with
    | zero => rw [if_pos (Nat.succ_pos _), List.getElem?_cons_zero, climb]
    | succ place =>
      rw [List.getElem?_cons_succ, climb, known, Option.bind_some]
      simp only [Nat.add_lt_add_iff_right]
      cases given : entry.base with
      | none => cases steps <;> simp [Registry.walkBases]
      | some base => exact ih (closed.bases known given) place

/-- The walk along bases is as it is to be. -/
theorem Closed.isBaseChain : registry.IsBaseChain type (registry.ancestors type) := by
  have reached {steps : Nat} (inside : steps < (registry.ancestors type).length) :
      (registry.ancestors type)[steps]? = registry.climb steps type := by
    have place := closed.walkBases_getElem? has registry.size steps
    have isSome : (registry.walkBases registry.size (some type)).visited[steps]? ≠ none := by
      rw [Ne, List.getElem?_eq_none_iff, Nat.not_le]
      exact inside
    rw [place] at isSome
    have few : steps < registry.size := by
      by_contra many
      exact isSome (if_neg many)
    rw [if_pos few] at place
    exact place
  refine ⟨fun target => closed.mem_ancestors has, fun steps inside => reached inside,
    fun straight => ?_⟩
  -- A type that is reached twice is above itself.
  have apart {first more : Nat} {target : TypeId}
      (isFirst : registry.climb first type = some target)
      (isSecond : registry.climb (first + (more + 1)) type = some target) : False := by
    rw [climb_add, isFirst] at isSecond
    exact straight target ((closed.mem_ancestors has).mpr ⟨first, isFirst⟩) more isSecond
  constructor
  · rw [List.nodup_iff_getElem?_ne_getElem?]
    intro first second before inside same
    rw [reached (before.trans inside), reached inside] at same
    have isSome : registry.climb second type ≠ none := by
      rw [← reached inside, Ne, List.getElem?_eq_none_iff, Nat.not_le]
      exact inside
    obtain ⟨target, isSecond⟩ := Option.ne_none_iff_exists'.mp isSome
    have split : second = first + (second - first - 1 + 1) := by omega
    exact apart (same.trans isSecond) (split ▸ isSecond)
  · obtain ⟨above, isAncestors⟩ := ancestors_eq_cons has
    have positive : 0 < (registry.ancestors type).length := by
      rw [isAncestors]
      exact Nat.succ_pos _
    obtain ⟨last, isLast⟩ := Nat.exists_eq_add_one_of_ne_zero (Nat.ne_of_gt positive)
    have inside : last < (registry.ancestors type).length := by omega
    have top := List.getElem?_eq_getElem inside
    have topReached := (reached inside).symm.trans top
    obtain ⟨entry, known⟩ := has_iff.mp (closed.climb_has has topReached)
    refine ⟨_, entry, ?_, known, ?_⟩
    · rw [List.getLast?_eq_getElem?, isLast]
      exact top
    · cases given : entry.base with
      | none => rfl
      | some base =>
        exfalso
        -- A base of the last type would be there, since all that is reached is.
        have further : registry.climb (last + 1) type = some base := by
          rw [climb_add, topReached, Option.bind_some, climb, known, Option.bind_some, given]
          rfl
        have isThere := (closed.mem_ancestors has).mpr ⟨_, further⟩
        obtain ⟨place, placeInside, isPlace⟩ := List.mem_iff_getElem.mp isThere
        have placeReached : registry.climb place type = some base := by
          rw [← reached placeInside, List.getElem?_eq_getElem placeInside, isPlace]
        have split : last + 1 = place + (last - place + 1) := by omega
        exact apart placeReached (split ▸ further)

end Bases

/-- In every registry that is built, whatever may be edited and in whatever shape types are linked,
both walks end and are exact: the walk along bases from a type and the search for its interfaces,
which starts from the type itself if it is an interface, and from its base chain otherwise. -/
theorem Built.walks_exact {mayEdit : TypeEntry → Prop} {registry : Registry}
    (built : Built mayEdit registry) {type : TypeId} (has : registry.Has type) :
    ∃ chain isInterface interfaces,
      registry.baseChain type = .ok chain ∧ registry.isInterface type = .ok isInterface ∧
      registry.allInterfaces type = .ok interfaces ∧ registry.IsBaseChain type chain ∧
      registry.IsClosure (if isInterface then [type] else chain) interfaces := by
  have closed := built.complete.toClosed
  refine ⟨_, _, _, closed.baseChain_eq_ok has, isInterface_eq_ok has,
    closed.allInterfaces_eq_ok has, closed.isBaseChain has, ?_⟩
  have exact := @Closed.isClosure registry (registry.interfaceHolders type) closed
  rwa [appendNew_nil] at exact

/-- Two classes that extend one another have the interfaces that one of them lists, two that extend
one another as well, and each of the interfaces is its own interface. -/
theorem circularTypes_walks :
    (∃ chain, circularTypes.baseChain ⟨14⟩ = .ok chain ∧ chain.length = 18 ∧
      circularTypes.IsBaseChain ⟨14⟩ chain ∧ circularTypes.IsClosure chain [⟨16⟩, ⟨17⟩]) ∧
    circularTypes.IsClosure [⟨16⟩] [⟨17⟩, ⟨16⟩] := by
  have built := circularTypes_built.toBuilt
  constructor
  · obtain ⟨chain, isInterface, interfaces, isChain, isClass, found, chainExact, exact⟩ :=
      built.walks_exact (show circularTypes.Has ⟨14⟩ by decide)
    cases (show circularTypes.isInterface ⟨14⟩ = .ok false by decide).symm.trans isClass
    cases (show circularTypes.allInterfaces ⟨14⟩ = .ok [⟨16⟩, ⟨17⟩] by decide).symm.trans found
    refine ⟨chain, isChain, ?_, chainExact, exact⟩
    cases (show circularTypes.baseChain ⟨14⟩ =
      .ok (List.replicate 9 [⟨14⟩, ⟨15⟩]).flatten by decide).symm.trans isChain
    rfl
  · obtain ⟨chain, isInterface, interfaces, -, isContract, found, -, exact⟩ :=
      built.walks_exact (show circularTypes.Has ⟨16⟩ by decide)
    cases (show circularTypes.isInterface ⟨16⟩ = .ok true by decide).symm.trans isContract
    cases (show circularTypes.allInterfaces ⟨16⟩ = .ok [⟨17⟩, ⟨16⟩] by decide).symm.trans found
    exact exact

end Foreach.Registry
