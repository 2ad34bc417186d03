import Foreach.Proofs.Types.Lookup
import Foreach.Proofs.Types.Twins

/-!
# The hierarchy of twins

Each base of a type has its twin among the bases of the twin, in the same order. Interfaces have
their twins as well, but several interfaces may have the same twin, which is then reached once. It
is reached where the first of them is, so a search that asks twins alike still ends at twins
(`TwinLists.search`).
-/
namespace Foreach.Registry

section Images

/-- Appending what is listed changes nothing. -/
theorem addNew_of_mem {listed : List TypeId} {next : TypeId} (isListed : next ∈ listed) :
    addNew listed next = listed := if_pos isListed

/-- Appending types that are all listed changes nothing. -/
theorem foldl_addNew_of_subset {listed extra : List TypeId}
    (within : ∀ type ∈ extra, type ∈ listed) : extra.foldl addNew listed = listed := by
  induction extra with
  | nil => rfl
  | cons next rest ih =>
    rw [List.foldl_cons, addNew_of_mem (within next List.mem_cons_self)]
    exact ih fun type inRest => within type (List.mem_cons_of_mem _ inRest)

/-- To append the images of first occurrences is to append the images of all. -/
theorem foldl_addNew_map (image : TypeId → TypeId) (listed known extra : List TypeId) :
    ((extra.foldl addNew known).map image).foldl addNew listed =
      ((known ++ extra).map image).foldl addNew listed := by
  induction extra generalizing known with
  | nil => rw [List.foldl_nil, List.append_nil]
  | cons next rest ih =>
    rw [List.foldl_cons, ih]
    by_cases isKnown : next ∈ known
    · have isThere : image next ∈ (known.map image).foldl addNew listed :=
        mem_foldl_addNew.mpr (.inr (List.mem_map_of_mem isKnown))
      rw [addNew_of_mem isKnown, List.map_append, List.map_append, List.map_cons,
        List.foldl_append, List.foldl_append, List.foldl_cons, addNew_of_mem isThere]
    · rw [addNew, if_neg isKnown, List.append_assoc, List.singleton_append]

/-- The first occurrences after a type and first occurrences are those after the type and all. -/
theorem firsts_cons_firsts (type : TypeId) (types : List TypeId) :
    firsts (type :: firsts types) = firsts (type :: types) := by
  have same := foldl_addNew_map id (addNew [] type) [] types
  rw [List.map_id, List.map_id, List.nil_append] at same
  exact same

/-- A search along types that are appended once is a search along all. -/
theorem findSome?_foldl_addNew {α : Type} (answer : TypeId → Option α)
    (listed extra : List TypeId) :
    (extra.foldl addNew listed).findSome? answer = (listed ++ extra).findSome? answer := by
  induction extra generalizing listed with
  | nil => rw [List.foldl_nil, List.append_nil]
  | cons next rest ih =>
    rw [List.foldl_cons, ih]
    by_cases isListed : next ∈ listed
    · rw [addNew_of_mem isListed, List.findSome?_append, List.findSome?_append]
      cases found : listed.findSome? answer with
      | some first => rfl
      | none =>
        have unanswered := List.findSome?_eq_none_iff.mp found next isListed
        rw [List.findSome?_cons, unanswered]
    · rw [addNew, if_neg isListed, List.append_assoc, List.singleton_append]

/-- A search along first occurrences is a search along all. -/
theorem findSome?_firsts {α : Type} (answer : TypeId → Option α) (types : List TypeId) :
    (firsts types).findSome? answer = types.findSome? answer :=
  findSome?_foldl_addNew answer [] types

/-- One search for interfaces is where another is among images: it has visited the images of what
that has visited, and what it has visited or pending are the images of what that has, each once. -/
structure Shadows (image : TypeId → TypeId) (reached pending reached' pending' : List TypeId) :
    Prop where
  /-- The images of what was visited are visited. -/
  visited : reached' = firsts (reached.map image)
  /-- The images of what is there are there. -/
  together : reached' ++ pending' = firsts ((reached ++ pending).map image)

variable {registry : Registry} {image : TypeId → TypeId}
  {reached pending reached' pending' : List TypeId} {next : TypeId}

/-- If nothing is left to visit, no image is. -/
theorem Shadows.over (shadows : Shadows image reached [] reached' pending') (steps steps' : Nat) :
    registry.closeInterfaces steps' reached' pending' =
      firsts ((registry.closeInterfaces steps reached []).map image) := by
  have nothing : pending' = [] := by
    have together := shadows.together
    rwa [List.append_nil, ← shadows.visited, List.append_right_eq_self] at together
  have stays (steps : Nat) (reached : List TypeId) :
      registry.closeInterfaces steps reached [] = reached := by
    cases steps <;> rfl
  rw [nothing, stays, stays, shadows.visited]

section Step

variable (shadows : Shadows image reached (next :: pending) reached' pending')
  (sameInterfaces : registry.interfacesOf (image next) = (registry.interfacesOf next).map image)
include shadows

/-- One more type is visited, and with it one more image. -/
theorem Shadows.visited_step :
    firsts ((reached ++ [next]).map image) = addNew reached' (image next) := by
  rw [List.map_append, firsts, List.foldl_append, shadows.visited]
  rfl

include sameInterfaces

/-- The interfaces of one more type are there, and with them those of one more image. -/
theorem Shadows.together_step : firsts ((reached ++ [next] ++
    appendNew (reached ++ [next]) pending (registry.interfacesOf next)).map image) =
      (registry.interfacesOf (image next)).foldl addNew (reached' ++ pending') := by
  have isNext : reached ++ [next] ++ pending = reached ++ next :: pending := by simp
  rw [append_appendNew, isNext, firsts, foldl_addNew_map, List.map_append, List.foldl_append,
    shadows.together, sameInterfaces]
  rfl

/-- If the image of the next type was visited, nothing is to be done among images: its interfaces
are visited or pending. -/
theorem Shadows.skip (frontier : registry.Frontier reached' pending')
    (isVisited : image next ∈ reached') : Shadows image (reached ++ [next])
      (appendNew (reached ++ [next]) pending (registry.interfacesOf next)) reached' pending' where
  visited := by rw [shadows.visited_step, addNew_of_mem isVisited]
  together := by
    rw [shadows.together_step sameInterfaces,
      foldl_addNew_of_subset (frontier.covered _ isVisited)]

/-- If the image of the next type was not visited, it is the next among images. -/
theorem Shadows.visit (isNew : image next ∉ reached') : ∃ rest, pending' = image next :: rest ∧
    Shadows image (reached ++ [next])
      (appendNew (reached ++ [next]) pending (registry.interfacesOf next))
      (reached' ++ [image next])
      (appendNew (reached' ++ [image next]) rest (registry.interfacesOf (image next))) := by
  have visited := shadows.visited_step
  rw [addNew, if_neg isNew] at visited
  have isNext : (reached ++ next :: pending).map image =
      (reached ++ [next]).map image ++ pending.map image := by simp
  obtain ⟨rest, isPending⟩ : ∃ rest, reached' ++ pending' = reached' ++ [image next] ++ rest := by
    refine ⟨appendNew (reached' ++ [image next]) [] (pending.map image), ?_⟩
    rw [append_appendNew, List.append_nil, ← visited, shadows.together, isNext]
    exact List.foldl_append
  rw [List.append_assoc] at isPending
  have isRest := List.append_cancel_left isPending
  refine ⟨rest, isRest, visited.symm, ?_⟩
  rw [shadows.together_step sameInterfaces, append_appendNew, isRest, List.append_assoc]

end Step

/-- A search for interfaces among images visits the images of what a search visits, each once, if
the interfaces of images are the images of interfaces. The induction is on the steps of the search
whose images are visited; the other one makes no step where an image was visited before. -/
theorem Closed.closeInterfaces_map (closed : registry.Closed) {holds : TypeId → Prop}
    (step : ∀ type, holds type →
      registry.interfacesOf (image type) = (registry.interfacesOf type).map image ∧
        ∀ interface ∈ registry.interfacesOf type, holds interface)
    {steps steps' : Nat} (frontier : registry.Frontier reached pending)
    (frontier' : registry.Frontier reached' pending')
    (start : ∀ type ∈ reached ++ pending, holds type)
    (shadows : Shadows image reached pending reached' pending')
    (enough : registry.size ≤ steps + reached.length)
    (enough' : registry.size ≤ steps' + reached'.length) :
    registry.closeInterfaces steps' reached' pending' =
      firsts ((registry.closeInterfaces steps reached pending).map image) := by
  induction steps generalizing reached pending reached' pending' steps' with
  | zero =>
    have bound := frontier.length_le
    obtain rfl : pending = [] := List.eq_nil_of_length_eq_zero (by omega)
    exact shadows.over 0 steps'
  | succ steps ih =>
    cases pending with
    | nil => exact shadows.over (steps + 1) steps'
    | cons next pending =>
      obtain ⟨sameInterfaces, isNext⟩ := step next (start next (by simp))
      have later := frontier.step closed
      have startLater : ∀ type ∈ reached ++ [next] ++
          appendNew (reached ++ [next]) pending (registry.interfacesOf next), holds type := by
        intro type isThere
        have before : reached ++ [next] ++ pending = reached ++ next :: pending := by simp
        rw [append_appendNew, before, mem_foldl_addNew] at isThere
        exact isThere.elim (start type) (isNext type)
      have enoughLater : registry.size ≤ steps + (reached ++ [next]).length := by
        rw [List.length_append, List.length_singleton]
        omega
      rw [closeInterfaces]
      by_cases isVisited : image next ∈ reached'
      · exact ih later frontier' startLater (shadows.skip sameInterfaces frontier' isVisited)
          enoughLater enough'
      · obtain ⟨rest, rfl, shadowsLater⟩ := shadows.visit sameInterfaces isVisited
        have bound := frontier'.length_le
        rw [List.length_cons] at bound
        obtain ⟨steps', rfl⟩ := Nat.exists_eq_add_of_le' (show 1 ≤ steps' by omega)
        rw [closeInterfaces]
        refine ih later (frontier'.step closed) startLater shadowsLater enoughLater ?_
        rw [List.length_append, List.length_singleton]
        omega

end Images

/-- Related lists are searched alike: the first answers are related, or there is none. -/
theorem rel_findSome? {α β γ δ : Type} {related : α → β → Prop} {agree : γ → δ → Prop}
    {answer : α → Option γ} {answer' : β → Option δ} {types : List α} {others : List β}
    (all : List.Forall₂ related types others)
    (each : ∀ {type other}, related type other → Option.Rel agree (answer type) (answer' other)) :
    Option.Rel agree (types.findSome? answer) (others.findSome? answer') := by
  induction all with
  | nil => exact .none
  | cons first _ ih =>
    rw [List.findSome?_cons, List.findSome?_cons]
    have answers := each first
    revert answers
    generalize answer _ = found
    generalize answer' _ = found'
    intro answers
    cases answers with
    | some agrees => exact .some agrees
    | none => exact ih

/-- The first ones that pass a test in related lists are related if related ones pass alike. -/
theorem rel_find? {α β : Type} {related : α → β → Prop} {test : α → Bool} {test' : β → Bool}
    {types : List α} {others : List β} (all : List.Forall₂ related types others)
    (each : ∀ {type other}, related type other → test' other = test type) :
    Option.Rel related (types.find? test) (others.find? test') := by
  rw [List.find?_eq_findSome?_guard, List.find?_eq_findSome?_guard]
  refine rel_findSome? all fun {type other} isRelated => ?_
  rw [Option.guard, Option.guard, each isRelated]
  cases test type with
  | true => exact .some isRelated
  | false => exact .none

/-- A list of types has, each once, the twins of what another has. -/
def TwinLists (registry : Registry) (substitution : Substitution) (definition type : TypeId)
    (types others : List TypeId) : Prop :=
  ∃ twins, List.Forall₂ (registry.Twin substitution definition type) types twins ∧
    firsts others = firsts twins

section Twins

variable {registry : Registry} {substitution : Substitution} {definition type : TypeId}

/-- A search that asks twins alike ends alike. -/
theorem TwinLists.search {α β : Type} {agree : α → β → Prop} {answer : TypeId → Option α}
    {answer' : TypeId → Option β} {types others : List TypeId}
    (lists : registry.TwinLists substitution definition type types others)
    (each : ∀ {other result}, registry.Twin substitution definition type other result →
      Option.Rel agree (answer other) (answer' result)) :
    Option.Rel agree (types.findSome? answer) (others.findSome? answer') := by
  obtain ⟨twins, all, same⟩ := lists
  rw [← findSome?_firsts answer' others, same, findSome?_firsts]
  exact rel_findSome? all each

/-- The first that passes a test that twins pass alike is the twin of the first that does. -/
theorem TwinLists.find? {test test' : TypeId → Bool} {types others : List TypeId}
    (lists : registry.TwinLists substitution definition type types others)
    (each : ∀ {other result}, registry.Twin substitution definition type other result →
      test' result = test other) :
    Option.Rel (registry.Twin substitution definition type) (types.find? test)
      (others.find? test') := by
  obtain ⟨twins, all, same⟩ := lists
  rw [List.find?_eq_findSome?_guard (l := others), ← findSome?_firsts, same, findSome?_firsts,
    ← List.find?_eq_findSome?_guard]
  exact rel_find? all each

variable (beside : registry.Beside substitution definition type)
include beside

/-- Each type has one twin at most. -/
theorem Beside.exists_image : ∃ image : TypeId → TypeId,
    ∀ {other result}, registry.Twin substitution definition type other result →
      image other = result := by
  have each (other : TypeId) : ∃ image, ∀ {result},
      registry.Twin substitution definition type other result → image = result := by
    by_cases has : ∃ image, registry.Twin substitution definition type other image
    · obtain ⟨image, twin⟩ := has
      exact ⟨image, fun twin' => beside.unique twin.specializes twin'.specializes⟩
    · exact ⟨other, fun twin => absurd ⟨_, twin⟩ has⟩
  choose image isImage using each
  exact ⟨image, fun {other _} twin => isImage other twin⟩

/-- Twins list twins for interfaces. -/
theorem Beside.interfacesOf {other result : TypeId}
    (twin : registry.Twin substitution definition type other result) :
    List.Forall₂ (registry.Twin substitution definition type) (registry.interfacesOf other)
      (registry.interfacesOf result) := by
  obtain ⟨otherHas, resultHas⟩ := beside.twins_has twin
  obtain ⟨part, known⟩ := has_iff.mp otherHas
  obtain ⟨copy, resultKnown⟩ := has_iff.mp resultHas
  rw [Registry.interfacesOf, Registry.interfacesOf, known, resultKnown]
  exact (beside.entryTwin twin known resultKnown).interfaces

/-- The flags of twins are the same, except for what tells instances. -/
theorem Beside.flagsOf {other result : TypeId}
    (twin : registry.Twin substitution definition type other result) :
    (registry.flagsOf result).forInstance = (registry.flagsOf other).forInstance := by
  obtain ⟨otherHas, resultHas⟩ := beside.twins_has twin
  obtain ⟨part, known⟩ := has_iff.mp otherHas
  obtain ⟨copy, resultKnown⟩ := has_iff.mp resultHas
  rw [Registry.flagsOf, Registry.flagsOf, known, resultKnown]
  exact (beside.entryTwin twin known resultKnown).flags

/-- Twins have twins for bases, one by one along a walk. -/
theorem Beside.walkBases {steps : Nat} {from? from?' : Option TypeId}
    (twins : Option.Rel (registry.Twin substitution definition type) from? from?') :
    List.Forall₂ (registry.Twin substitution definition type)
      (registry.walkBases steps from?).visited (registry.walkBases steps from?').visited := by
  induction steps generalizing from? from?' with
  | zero => cases twins <;> exact .nil
  | succ steps ih =>
    cases twins with
    | none => exact .nil
    | some twin =>
      obtain ⟨otherHas, resultHas⟩ := beside.twins_has twin
      obtain ⟨part, known⟩ := has_iff.mp otherHas
      obtain ⟨copy, resultKnown⟩ := has_iff.mp resultHas
      rw [Registry.walkBases, Registry.walkBases, known, resultKnown]
      exact .cons twin (ih (beside.entryTwin twin known resultKnown).base)

/-- The bases of twins are twins. -/
theorem Beside.ancestors {other result : TypeId}
    (twin : registry.Twin substitution definition type other result) :
    List.Forall₂ (registry.Twin substitution definition type) (registry.ancestors other)
      (registry.ancestors result) :=
  beside.walkBases (.some twin)

/-- The types whose interfaces are those of twins are twins. -/
theorem Beside.interfaceHolders {other result : TypeId}
    (twin : registry.Twin substitution definition type other result) :
    List.Forall₂ (registry.Twin substitution definition type) (registry.interfaceHolders other)
      (registry.interfaceHolders result) := by
  have sameSort : (registry.flagsOf result).isInterface = (registry.flagsOf other).isInterface := by
    injection beside.flagsOf twin
  rw [Registry.interfaceHolders, Registry.interfaceHolders, sameSort]
  cases (registry.flagsOf other).isInterface with
  | true => exact .cons twin .nil
  | false => exact beside.ancestors twin

/-- A twin has the twins of the interfaces of a type for interfaces, each once, in the order of the
first of them. -/
theorem Beside.contracts {other result : TypeId}
    (twin : registry.Twin substitution definition type other result) :
    ∃ twins, List.Forall₂ (registry.Twin substitution definition type) (registry.contracts other)
      twins ∧ registry.contracts result = firsts twins := by
  have closed := beside.built.complete.toClosed
  obtain ⟨image, isImage⟩ := beside.exists_image
  have mapped {types others : List TypeId}
      (all : List.Forall₂ (registry.Twin substitution definition type) types others) :
      others = types.map image ∧ ∀ found ∈ types,
        registry.Twin substitution definition type found (image found) := by
    induction all with
    | nil => exact ⟨rfl, fun _ isThere => nomatch isThere⟩
    | cons twin _ ih =>
      cases isImage twin
      exact ⟨congrArg _ ih.1, List.forall_mem_cons.mpr ⟨twin, ih.2⟩⟩
  have listed : List.Forall₂ (registry.Twin substitution definition type)
      ((registry.interfaceHolders other).flatMap registry.interfacesOf)
      ((registry.interfaceHolders result).flatMap registry.interfacesOf) :=
    List.rel_flatMap (beside.interfaceHolders twin) fun _ _ holders => beside.interfacesOf holders
  obtain ⟨start', start⟩ := mapped listed
  have step {found : TypeId}
      (isTwin : registry.Twin substitution definition type found (image found)) :=
    mapped (beside.interfacesOf isTwin)
  have visited : ∀ found ∈ registry.contracts other,
      registry.Twin substitution definition type found (image found) :=
    closeInterfaces_induct _ (fun _ isTwin => (step isTwin).2)
      fun found isThere => start found (mem_firsts.mp isThere)
  refine ⟨(registry.contracts other).map image, ?_, ?_⟩
  · rw [List.forall₂_map_right_iff]
    exact List.forall₂_same.mpr visited
  · refine closed.closeInterfaces_map (fun _ isTwin => step isTwin)
      (frontier_firsts (@Closed.isContract_of_holders _ closed other))
      (frontier_firsts (@Closed.isContract_of_holders _ closed result))
      (fun found isThere => start found (mem_firsts.mp isThere)) ⟨rfl, ?_⟩ (Nat.le_add_right ..)
      (Nat.le_add_right ..)
    rw [start', List.nil_append, List.nil_append, firsts, firsts, firsts, foldl_addNew_map]
    rfl

/-- Twins have twins to look for members in. -/
theorem Beside.used {other result : TypeId}
    (twin : registry.Twin substitution definition type other result) :
    registry.TwinLists substitution definition type (other :: registry.contracts other)
      (result :: registry.contracts result) := by
  obtain ⟨twins, all, same⟩ := beside.contracts twin
  refine ⟨result :: twins, .cons twin all, ?_⟩
  rw [same, firsts_cons_firsts]

/-- Twins have twins to look for members in. -/
theorem Beside.scopes {other result : TypeId}
    (twin : registry.Twin substitution definition type other result) :
    registry.TwinLists substitution definition type (registry.scopes other)
      (registry.scopes result) := by
  have sameSort : (registry.flagsOf result).isInterface = (registry.flagsOf other).isInterface := by
    injection beside.flagsOf twin
  rw [Registry.scopes, Registry.scopes, sameSort]
  cases (registry.flagsOf other).isInterface with
  | true => exact beside.used twin
  | false => exact ⟨registry.ancestors result, beside.ancestors twin, rfl⟩

/-- Twins have twins for members that pass a test, if the types of members do not matter to it. -/
theorem Beside.findMember? {other result : TypeId}
    (twin : registry.Twin substitution definition type other result) {test : MemberEntry → Bool}
    (blind : ∀ {source made : MemberEntry}, made.Alike source → test made = test source) :
    Option.Rel (registry.MemberTwin substitution definition type)
      (registry.findMember? other test) (registry.findMember? result test) := by
  obtain ⟨otherHas, resultHas⟩ := beside.twins_has twin
  obtain ⟨part, known⟩ := has_iff.mp otherHas
  obtain ⟨copy, resultKnown⟩ := has_iff.mp resultHas
  rw [Registry.findMember?, Registry.findMember?, membersOf, membersOf, known, resultKnown]
  refine rel_find? (beside.entryTwin twin known resultKnown).members fun isTwin => ?_
  obtain ⟨source, made, sourceKnown, madeKnown, alike, -⟩ := isTwin
  simp only [sourceKnown, madeKnown]
  exact blind alike

/-- Twins have twins for public members that pass a test, if the types of members do not matter to
it. -/
theorem Beside.publicMember? {other result : TypeId}
    (twin : registry.Twin substitution definition type other result) {test : MemberEntry → Bool}
    (blind : ∀ {source made : MemberEntry}, made.Alike source →
      (made.flags.isPublicInstance && test made) = (source.flags.isPublicInstance && test source)) :
    Option.Rel (registry.MemberTwin substitution definition type)
      (registry.publicMember? other test) (registry.publicMember? result test) :=
  (beside.scopes twin).search fun scopes => beside.findMember? scopes blind

end Twins

end Foreach.Registry
