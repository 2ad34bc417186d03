import Foreach.Proofs.Lowering.Outcome
import Foreach.Proofs.Types.Commuting

/-!
# Nothing hinders lowering

The constructors of nodes insist on what makes a node meaningful: a binding is assigned to, a called
member is a method with as many parameters as there are arguments, a read member is a property, the
condition of a loop is a truth value, and the variables of a block are variables. Lowering never
comes across one that insists in vain, whatever was added to the types, the well-known ones
included: it ends with a refusal, which leaves the tree, or with the statement that was wanted.

Why it does not is told by members that were found far away from the constructors. What goes on to
the next item answers with a truth value, since it is filtered or the contract's; the first member
of the disposal contract is its method without parameters, whatever is added later; and a value on
the stack is disposed of by a method without parameters.
-/
namespace Foreach

namespace Construction

variable {registry : Registry} {arena after : Arena}

/-- A property of a node is read. -/
theorem property_completes {receiver : NodeId} {member : MemberId} {entry : MemberEntry}
    (known : registry.member? member = some entry) (isProperty : entry.isProperty = true) :
    ∃ id after, property registry receiver member arena = .ok (id, after) ∧
      after.typeOf id = .ok entry.valueType := by
  obtain ⟨id, after, pushed⟩ := push_completes arena (.property receiver member) entry.valueType
  exact ⟨id, after, property_eq_ok.mpr ⟨entry, known, isProperty, pushed⟩, push_typeOf pushed⟩

/-- The block of a loop has the type of the plan's result. -/
theorem closeLoop_valueTypeOf {opened : OpenLoop} {plan : LoopPlan} {step block : NodeId}
    {type : TypeId} (typed : plan.valueType arena = .ok type)
    (built : closeLoop registry opened plan step arena = .ok (.ok block, after)) :
    after.typeOf block = .ok type := by
  obtain ⟨_, _, _, _, _, _, _, guarded, last, called, whileBuilt, -, disposeBuilt, guardBuilt,
    blockBuilt⟩ := closeLoop_eq_ok.mp built
  have loopGrown := (disposeBy_adds disposeBuilt).1
  have loopTyped := loopGrown.typeOf (whileLoop_typeOf whileBuilt)
  have guardTyped : last.typeOf guarded = .ok .void := tryFinally_typeOf loopTyped guardBuilt
  have toLast : last.Extends arena :=
    (tryFinally_adds guardBuilt).1.trans
      (loopGrown.trans ((whileLoop_adds whileBuilt).1.trans (call_adds called).1))
  have valued := plan.valueType_extend typed toLast
  exact block_typeOf (plan.lastTyped opened.start guardTyped valued) blockBuilt

/-- A lowered loop has the type of the plan's result, if its body only adds to the tree. -/
theorem foreachLoop_valueTypeOf {policy : Policy} {enumerable block : NodeId} {plan : LoopPlan}
    {body : LoopBinding → Construction NodeId} {valueType : TypeId}
    (grows : ∀ opened started step filled,
      openLoop registry policy enumerable arena = .ok (.ok opened, started) →
      body opened.binding started = .ok (step, filled) → filled.Extends started)
    (valued : plan.valueType arena = .ok valueType)
    (built : foreachLoop registry policy enumerable plan body arena = .ok (.ok block, after)) :
    after.typeOf block = .ok valueType := by
  obtain ⟨opened, started, step, filled, opens, fills, closed⟩ := foreachLoop_eq_ok.mp built
  have toFilled := (grows _ _ _ _ opens fills).trans (openLoop_grows opens)
  exact closeLoop_valueTypeOf (plan.valueType_extend valued toFilled) closed

/-- What a loop tells its body of the current item is what reads it and its type. -/
theorem startLoop_binding {enumerable : NodeId} {members : LoopMembers} {opened : OpenLoop}
    (built : startLoop registry enumerable members arena = .ok (opened, after)) :
    opened.binding.current = members.current ∧
      registry.valueTypeOf members.current = .ok opened.binding.itemType := by
  obtain ⟨-, isCurrent, isType, -⟩ := startLoop_eq_ok.mp built
  exact ⟨isCurrent, isType⟩

/-- A used resource has the type of the body. -/
theorem useResource_typeOf {resource body id : NodeId} {bodyType : TypeId}
    (typed : arena.typeOf body = .ok bodyType)
    (built : useResource registry resource body arena = .ok (.ok id, after)) :
    after.typeOf id = .ok bodyType := by
  obtain ⟨-, _, _, _, _, -, -, disposed, guarded⟩ := useResource_eq_ok.mp built
  exact tryFinally_typeOf ((disposeBy_adds disposed).1.typeOf typed) guarded

end Construction

open Construction

/-- Nothing hinders the lowering of what is done with a node of a type. -/
structure Unhindered (registry : Registry) (policy : Policy) (node : NodeId) (type : TypeId)
    (arena : Arena) : Prop where
  /-- The members that a loop uses are what the constructors insist on: what gives the enumerator,
  goes on to the next item and disposes of the enumerator are methods without parameters, and what
  reads the current item is a property. -/
  members : ∀ members, registry.resolveLoop policy type = .ok (.ok members) →
    registry.UsableMembers members ∧
      ∃ source, registry.member? members.current = some source ∧ source.isProperty = true
  /-- A loop is refused, which leaves the tree, or is a block of the type of the plan's result. -/
  loop : ∀ plan body, plan.Fits arena → BuildsBody registry policy node arena body →
    (∃ error, foreachLoop registry policy node plan body arena = .ok (.error error, arena)) ∨
      ∃ block after type, foreachLoop registry policy node plan body arena =
        .ok (.ok block, after) ∧ plan.valueType arena = .ok type ∧ after.typeOf block = .ok type
  /-- The body of a loop can read the current item wherever it has got to, and gets a node of the
  type that it was told. -/
  item : ∀ opened started later,
    openLoop registry policy node arena = .ok (.ok opened, started) →
      ∃ item after, currentItem registry opened.binding later = .ok (item, after) ∧
        after.typeOf item = .ok opened.binding.itemType
  /-- The use of a resource that is held by a binding is refused, which leaves the tree, or is a
  statement of the type of the body. -/
  resource : ∀ kind body bodyType, arena.kind node = .ok kind → kind.isBinding = true →
    arena.typeOf body = .ok bodyType →
      (∃ error, useResource registry node body arena = .ok (.error error, arena)) ∨
        ∃ id after, useResource registry node body arena = .ok (.ok id, after) ∧
          after.typeOf id = .ok bodyType

namespace Registry

variable {registry : Registry} {policy : Policy} {type : TypeId} {arena : Arena} {node : NodeId}

/-- What reads the current item in a loop is a property. -/
theorem Furnished.current_isProperty (complete : registry.Complete) (has : registry.Has type)
    {members : LoopMembers}
    (resolved : registry.resolveLoop policy type = .ok (.ok members)) :
    ∃ source, registry.member? members.current = some source ∧ source.isProperty = true := by
  obtain ⟨shape, _, found, -, -, isCurrent, -⟩ := resolveLoop_eq_ok resolved
  obtain ⟨shape', searched, describes⟩ := complete.describes has policy
  cases found.symm.trans (enumerableShape_of_isEnumerable searched)
  obtain ⟨source, known, isProperty, -⟩ := describes.current members.current isCurrent
  obtain ⟨itemType, kind⟩ := isProperty.kind
  refine ⟨source, known, ?_⟩
  rw [MemberEntry.isProperty, MemberEntry.isMethod, kind]
  rfl

/-- In every registry that is built, whatever may be edited, nothing hinders the lowering of what
is done with a node of a registered type. -/
theorem Built.unhindered {mayEdit : TypeEntry → Prop} (built : Built mayEdit registry)
    (typed : arena.typeOf node = .ok type) (has : registry.Has type) (policy : Policy) :
    Unhindered registry policy node type arena := by
  have complete := built.complete
  obtain ⟨shape, verdict, -, resolved, -⟩ := complete.resolveLoop_verdict has policy
  constructor
  case members =>
    intro members isPossible
    exact ⟨complete.usable_of_resolveLoop has policy isPossible,
      complete.current_isProperty has isPossible⟩
  case loop =>
    intro plan body fits builds
    cases verdict with
    | error error =>
      exact .inl ⟨error, foreachLoop_eq_error.mpr ⟨type, typed, resolved, rfl⟩⟩
    | ok members =>
      have usable := complete.usable_of_resolveLoop has policy resolved
      obtain ⟨block, after, lowered⟩ := foreachLoop_completes typed resolved usable fits builds
      obtain ⟨valueType, valued⟩ := fits.valueType
      exact .inr ⟨block, after, valueType, lowered, valued,
        foreachLoop_valueTypeOf builds.grows valued lowered⟩
  case item =>
    intro opened started later opens
    obtain ⟨_, members, typed', possible, start⟩ := openLoop_eq_ok.mp opens
    cases typed.symm.trans typed'
    obtain ⟨source, known, isProperty⟩ := complete.current_isProperty has possible
    obtain ⟨isCurrent, isItem⟩ := startLoop_binding start
    have itemType : source.valueType = opened.binding.itemType :=
      Except.ok.inj ((valueTypeOf_eq_ok known).symm.trans isItem)
    rw [← itemType]
    exact property_completes (isCurrent.symm ▸ known) isProperty
  case resource =>
    intro kind body bodyType known isBinding bodyTyped
    have outcome := complete.resourceOutcome has known isBinding typed
    by_cases disposable : registry.classifyDisposal type = .ok none
    · obtain ⟨name, -, refused⟩ := (outcome.notDisposable body).mpr disposable
      exact .inl ⟨_, refused⟩
    · obtain ⟨id, after, used⟩ := (outcome.used body bodyType bodyTyped).mpr disposable
      exact .inr ⟨id, after, used, useResource_typeOf bodyTyped used⟩

/-- The enumerable contract at integers, where the disposal contract has a second `Dispose`, the
enumerator contract a second `MoveNext`, and the instance of the generic enumerator contract a
method of its own. -/
def editedContracts : Registry :=
  enumerableOfInt
    |>.after (Registration.addDeclaredMember 1 .disposable (.method "Dispose" .void [.int]))
    |>.after (Registration.addDeclaredMember 1 .enumerator (.method "MoveNext" .int))
    |>.after (Registration.addDeclaredMember 1 ⟨15⟩ (.method "MoveNext" .string))

/-- The contracts are edited without a stop. -/
theorem editedContracts_built : Built (fun _ => True) editedContracts := by
  have start : Built (fun _ => True) .initial := .initial
  have instantiated : Built (fun _ => True) enumerableOfInt :=
    start.instantiate 2 .genericEnumerable [.int] (by decide)
  have disposable := instantiated.addMember .disposable (.method "Dispose" .void [.int])
    (by decide) (by decide) (by decide)
  have enumerator := disposable.addMember .enumerator (.method "MoveNext" .int)
    (by decide) (by decide) (by decide)
  exact enumerator.addMember ⟨15⟩ (.method "MoveNext" .string) (by decide) (by decide) (by decide)

/-- A tree of integers that can be enumerated and a variable for their sum. -/
def integersArena : Arena :=
  ⟨#[⟨.parameter "items", ⟨14⟩⟩, ⟨.var "sum", .int⟩], #[], 0⟩

/-- A loop over the integers that reads each of them is lowered to a block of the type of the
sum. -/
theorem editedContracts_unhindered :
    ∃ block after, foreachLoop editedContracts {} ⟨0⟩ { locals := [⟨1⟩], result := some ⟨1⟩ }
        (currentItem editedContracts) integersArena = .ok (.ok block, after) ∧
      after.typeOf block = .ok .int := by
  have typed : integersArena.typeOf ⟨0⟩ = .ok ⟨14⟩ := rfl
  have unhindered := editedContracts_built.unhindered typed (by decide) {}
  have fits : LoopPlan.Fits { locals := [⟨1⟩], result := some ⟨1⟩ } integersArena := by
    refine ⟨fun id isLocal => ?_, fun id isResult => ?_, by decide, by decide⟩
    · rw [List.mem_singleton.mp isLocal]
      exact ⟨.var "sum", rfl, rfl⟩
    · cases isResult
      exact ⟨.int, rfl⟩
  have builds : BuildsBody editedContracts {} ⟨0⟩ integersArena (currentItem editedContracts) := by
    intro opened started opens
    obtain ⟨item, after, read, -⟩ := unhindered.item opened started started opens
    exact ⟨item, after, read, (property_adds read).1⟩
  have searched : (editedContracts.resolveLoop {} ⟨14⟩).map Except.isOk = .ok true := by
    decide +kernel
  rcases unhindered.loop _ _ fits builds with ⟨error, refused⟩ | ⟨block, after, type, lowered⟩
  · obtain ⟨_, typed', resolved, -⟩ := foreachLoop_eq_error.mp refused
    cases typed.symm.trans typed'
    rw [resolved] at searched
    cases searched
  · obtain ⟨built, valued, blockTyped⟩ := lowered
    have isInt : TypeId.int = type := Except.ok.inj valued
    exact ⟨block, after, built, isInt ▸ blockTyped⟩

end Registry

end Foreach
