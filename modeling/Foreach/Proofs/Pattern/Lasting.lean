import Foreach.Proofs.Pattern.TwinDetection
import Foreach.Proofs.Types.Enlarged

/-!
# Answers that last

Whatever types are declared and whatever definitions are instantiated afterwards, all that is asked
about a registered type is answered as before: what enumeration finds of it, how it is disposed of,
its interfaces, what it can serve as, its public members, and the members that run
(`Built.answers_last`). It does not matter how bases and interfaces are linked. Only a walk along
bases that run in a circle becomes longer (`circularTypesBeside_answers_last`).
-/
namespace Foreach.Registry

/-- A question has an answer, which is the answer later. -/
def Lasts {α : Type} (later earlier : Checked α) : Prop :=
  ∃ answer, earlier = .ok answer ∧ later = .ok answer

/-- What is asked about a type of an earlier registry has an answer there, and the same one in a
later registry. -/
structure AnswersLast (later earlier : Registry) (type : TypeId) : Prop where
  /-- Whether it is an enumerable, and what enumeration finds of it. -/
  enumerable : ∀ policy, Lasts (later.isEnumerable policy type) (earlier.isEnumerable policy type)
  /-- Whether it is an enumerator, and what enumeration finds of it. -/
  enumerator : ∀ policy, Lasts (later.isEnumerator policy type) (earlier.isEnumerator policy type)
  /-- How its values are disposed of. -/
  disposal : Lasts (later.classifyDisposal type) (earlier.classifyDisposal type)
  /-- Its interfaces. -/
  interfaces : Lasts (later.allInterfaces type) (earlier.allInterfaces type)
  /-- What its values can serve as. -/
  assignable : ∀ target, earlier.Has target →
    Lasts (later.isAssignableTo type target) (earlier.isAssignableTo type target)
  /-- Its public methods. -/
  method : ∀ name parameters,
    Lasts (later.findMethod? type name parameters) (earlier.findMethod? type name parameters)
  /-- Its public properties. -/
  property : ∀ name, Lasts (later.findProperty? type name) (earlier.findProperty? type name)
  /-- The members that run when members are called on its values. -/
  implementation : ∀ member, earlier.HasMember member →
    Lasts (later.findImplementation? type member) (earlier.findImplementation? type member)

/-- What is answered alike for registered types is answered alike through a contract that a type is
used through. -/
theorem Furnished.bind_eq {α : Type} {registry : Registry} (complete : registry.Complete)
    {type : TypeId} (has : registry.Has type) {contract : Option TypeId}
    {answer answer' : TypeId → Option α}
    (used : ∀ found ∈ contract, found ∈ type :: registry.contracts type)
    (alike : ∀ found, registry.Has found → answer' found = answer found) :
    contract.bind answer' = contract.bind answer := by
  cases contract with
  | none => rfl
  | some found => exact alike found (complete.has_of_used has (used found rfl))

section Patterns

variable {later earlier : Registry} (enlarges : later.Enlarges earlier)
  (complete : earlier.Complete) (laterComplete : later.Complete)

include enlarges in
/-- The type of what a member answers with stays. -/
theorem Enlarges.valueType?_eq {member : MemberId} {source : MemberEntry}
    (known : earlier.member? member = some source) :
    later.valueType? member = earlier.valueType? member := by
  rw [valueType?, valueType?, known, enlarges.members known]

variable {type : TypeId} (has : earlier.Has type)
include enlarges complete laterComplete has

/-- The public method of a name without parameters stays. -/
theorem Enlarges.method?_eq (name : String) : later.method? name type = earlier.method? name type :=
  enlarges.publicMember?_eq complete.toClosed laterComplete.toClosed has _

/-- The public property of a name stays. -/
theorem Enlarges.property?_eq (name : String) :
    later.property? name type = earlier.property? name type :=
  enlarges.publicMember?_eq complete.toClosed laterComplete.toClosed has _

/-- A type is used through the same contract without parameters. -/
theorem Enlarges.plainContract?_eq (contract : TypeId) :
    later.plainContract? type contract = earlier.plainContract? type contract := by
  rw [plainContract?, plainContract?,
    enlarges.contracts_eq complete.toClosed laterComplete.toClosed has]

/-- A type is used through the same instance of a generic contract. -/
theorem Enlarges.genericContract?_eq (policy : Policy) (contract : TypeId) :
    later.genericContract? policy type contract =
      earlier.genericContract? policy type contract := by
  rw [genericContract?, genericContract?,
    enlarges.instancesIn_eq complete.toClosed laterComplete.toClosed has]

/-- What gives an enumerator stays. -/
theorem Enlarges.getEnumerator?_eq (policy : Policy) :
    later.getEnumerator? policy type = earlier.getEnumerator? policy type := by
  have contract : later.enumerableContract? policy type =
      earlier.enumerableContract? policy type := by
    rw [enumerableContract?, enumerableContract?,
      enlarges.genericContract?_eq complete laterComplete has,
      enlarges.plainContract?_eq complete laterComplete has]
  rw [getEnumerator?, getEnumerator?, contract, enlarges.method?_eq complete laterComplete has,
    complete.bind_eq has (fun found isFound => (enumerableContract?_eq_some isFound).1)
      fun found foundHas => enlarges.method?_eq complete laterComplete foundHas _]

/-- What reads the current item stays. -/
theorem Enlarges.current?_eq (policy : Policy) :
    later.current? policy type = earlier.current? policy type := by
  have contract : later.enumeratorContract? policy type =
      earlier.enumeratorContract? policy type := by
    rw [enumeratorContract?, enumeratorContract?,
      enlarges.genericContract?_eq complete laterComplete has,
      enlarges.plainContract?_eq complete laterComplete has]
  rw [current?, current?, contract, enlarges.property?_eq complete laterComplete has,
    complete.bind_eq has (fun found isFound => (enumeratorContract?_eq_some isFound).1)
      fun found foundHas => enlarges.property?_eq complete laterComplete foundHas _]

/-- What goes on to the next item stays. -/
theorem Enlarges.moveNext?_eq : later.moveNext? type = earlier.moveNext? type := by
  have own : later.ownMoveNext? type = earlier.ownMoveNext? type := by
    rw [ownMoveNext?, ownMoveNext?, enlarges.method?_eq complete laterComplete has]
    cases found : earlier.method? contractNames.moveNext type with
    | none => rfl
    | some member =>
      obtain ⟨source, known, -⟩ := complete.method?_eq_some found
      rw [Option.filter_some, Option.filter_some, enlarges.valueType?_eq known]
  rw [moveNext?, moveNext?, own, enlarges.plainContract?_eq complete laterComplete has,
    complete.bind_eq has (fun found isFound => (plainContract?_eq_some.mp isFound).2)
      fun found foundHas => enlarges.method?_eq complete laterComplete foundHas _]

/-- What disposes of an enumerator stays. -/
theorem Enlarges.disposal?_eq : later.disposal? type = earlier.disposal? type := by
  have disposableHas : earlier.Has .disposable := complete.keeps.has (by decide)
  rw [disposal?, disposal?, enlarges.flagsOf_eq has, ownDispose?, ownDispose?,
    enlarges.findMember?_eq has complete.toWellFormed,
    enlarges.assignable_eq complete.toClosed laterComplete.toClosed has disposableHas,
    enlarges.method?_eq complete laterComplete has,
    enlarges.method?_eq complete laterComplete disposableHas]

/-- What a type has of an enumerator stays. -/
theorem Enlarges.enumeratorOf_eq (policy : Policy) :
    later.enumeratorOf policy type = earlier.enumeratorOf policy type := by
  have itemType : (earlier.current? policy type).bind later.valueType? =
      (earlier.current? policy type).bind earlier.valueType? := by
    cases found : earlier.current? policy type with
    | none => rfl
    | some member =>
      obtain ⟨source, known, -⟩ := complete.current?_eq_some found
      exact enlarges.valueType?_eq known
  have members : later.enumeratorMembers policy type = earlier.enumeratorMembers policy type := by
    rw [enumeratorMembers, enumeratorMembers, enlarges.current?_eq complete laterComplete has,
      enlarges.moveNext?_eq complete laterComplete has, itemType]
  rw [enumeratorOf, enumeratorOf, members, enlarges.disposal?_eq complete laterComplete has]

/-- What a type has of an enumerable stays. -/
theorem Enlarges.enumerableOf_eq (policy : Policy) :
    later.enumerableOf policy type = earlier.enumerableOf policy type := by
  have same := enlarges.getEnumerator?_eq complete laterComplete has policy
  cases found : earlier.getEnumerator? policy type with
  | none =>
    rw [found] at same
    rw [enumerableOf, enumerableOf, found, same]
  | some member =>
    obtain ⟨source, known, -⟩ := complete.getEnumerator?_eq_some found
    rw [Registry.enumerableOf_eq found known,
      Registry.enumerableOf_eq (same.trans found) (enlarges.members known),
      enlarges.enumeratorOf_eq complete laterComplete (complete.valueType_has known)]

/-- All answers about a type stay when a registry is enlarged. -/
theorem Enlarges.answersLast : AnswersLast later earlier type := by
  have closed := complete.toClosed
  have laterClosed := laterComplete.toClosed
  have laterHas := enlarges.registered has
  have member (test : MemberEntry → Bool) :
      Lasts (later.findPublic? type test) (earlier.findPublic? type test) :=
    ⟨_, closed.findPublic?_eq_ok has test, by
      rw [laterClosed.findPublic?_eq_ok laterHas,
        enlarges.publicMember?_eq closed laterClosed has]⟩
  refine
    { enumerable := fun policy => ⟨_, complete.isEnumerable_eq_ok has policy, ?enumerable⟩
      enumerator := fun policy => ⟨_, complete.isEnumerator_eq_ok has policy, ?enumerator⟩
      disposal := ⟨_, complete.classifyDisposal_eq_ok has, ?disposal⟩
      interfaces := ⟨_, closed.allInterfaces_eq_ok has, ?interfaces⟩
      assignable := fun target targetHas =>
        ⟨_, closed.isAssignableTo_eq_ok has targetHas, ?assignable⟩
      method := fun name parameters => member _
      property := fun name => member _
      implementation := fun called hasMember => ?implementation }
  case enumerable =>
    rw [laterComplete.isEnumerable_eq_ok laterHas,
      enlarges.enumerableOf_eq complete laterComplete has]
  case enumerator =>
    rw [laterComplete.isEnumerator_eq_ok laterHas,
      enlarges.enumeratorOf_eq complete laterComplete has]
  case disposal =>
    rw [laterComplete.classifyDisposal_eq_ok laterHas, enlarges.flagsOf_eq has, ownDispose?,
      ownDispose?, enlarges.findMember?_eq has closed.toWellFormed,
      enlarges.plainContract?_eq complete laterComplete has]
  case interfaces =>
    rw [laterClosed.allInterfaces_eq_ok laterHas, enlarges.contracts_eq closed laterClosed has]
  case assignable =>
    rw [laterClosed.isAssignableTo_eq_ok laterHas (enlarges.registered targetHas),
      enlarges.assignable_eq closed laterClosed has targetHas]
  case implementation =>
    obtain ⟨target, known⟩ := hasMember_iff.mp hasMember
    have ownerHas := closed.toWellFormed.owner_has known
    refine ⟨_, closed.findImplementation?_eq_ok has known ownerHas, ?_⟩
    rw [laterClosed.findImplementation?_eq_ok laterHas (enlarges.members known)
      (enlarges.registered ownerHas), enlarges.flagsOf_eq ownerHas,
      enlarges.recorded?_eq closed laterClosed has, namesake?, namesake?,
      enlarges.publicMember?_eq closed laterClosed has]

end Patterns

/-- In every registry that is built, whatever may be edited and in whatever shape types are linked,
all answers about a registered type stay when types are declared and definitions are instantiated,
any number of times. -/
theorem Built.answers_last {mayEdit : TypeEntry → Prop} {earlier later : Registry}
    (built : Built mayEdit earlier) (adds : Relation.ReflTransGen Adds earlier later)
    {type : TypeId} (has : earlier.Has type) : AnswersLast later earlier type := by
  obtain ⟨laterComplete, enlarges⟩ := Enlarges.of_adds built.complete adds
  exact enlarges.answersLast built.complete laterComplete has

/-- The circles, beside one more class and an instance of a contract. The contract mentions another
one, of which an instance is made as well. -/
def circularTypesBeside : Registry :=
  circularTypes
    |>.after (Registration.declare { name := "C", sort := .classType })
    |>.after (Registration.instantiate 3 .genericEnumerable [.int])

/-- All answers about the first class of the circle stay, although the walk along its bases becomes
longer. -/
theorem circularTypesBeside_answers_last :
    circularTypesBeside.size = circularTypes.size + 3 ∧
      circularTypesBeside.baseChain ⟨14⟩ ≠ circularTypes.baseChain ⟨14⟩ ∧
      AnswersLast circularTypesBeside circularTypes ⟨14⟩ := by
  refine ⟨by decide, by decide, ?_⟩
  have declares : Relation.ReflTransGen Adds circularTypes
      (circularTypes.after (Registration.declare { name := "C", sort := .classType })) :=
    Adds.after (.declare fun _ isOuter => nomatch isOuter)
  have adds : Relation.ReflTransGen Adds circularTypes circularTypesBeside :=
    declares.trans (Adds.after (.instantiate (by decide)))
  exact circularTypes_built.toBuilt.answers_last adds (by decide)

end Foreach.Registry
