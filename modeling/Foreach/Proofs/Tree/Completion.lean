import Foreach.Proofs.Tree.Typed

/-!
# When construction completes

A constructor of nodes stops only if what it is given is not what it asks for. For each constructor
that a lowered loop is made with, this says what suffices (`Completes`), and, where the next one
asks for it, the type of the node that is built.
-/
namespace Foreach.Construction

variable {before after : Arena}

/-- Work that gives something when it begins with an arena. -/
def Completes {α : Type} (work : Construction α) (before : Arena) : Prop :=
  ∃ result after, work before = .ok (result, after)

/-- A node is always added. -/
theorem push_completes (before : Arena) (kind : NodeKind) (type : TypeId) :
    Completes (push kind type) before :=
  ⟨_, _, rfl⟩

/-- A list that is not too long is stored. -/
theorem list_completes (before : Arena) (ids : List NodeId)
    (fits : ids.length ≤ Arena.maxListLength) : Completes (list ids) before :=
  ⟨_, _, list_eq_ok.mpr (Arena.pushList_eq_ok.mpr ⟨fits, rfl, rfl⟩)⟩

/-- A binding that has a type is assigned. -/
theorem assign_completes (value : NodeId) {target : NodeId} {kind : NodeKind} {type : TypeId}
    (known : before.kind target = .ok kind) (isBinding : kind.isBinding = true)
    (typed : before.typeOf target = .ok type) : Completes (assign target value) before := by
  obtain ⟨id, after, pushed⟩ := push_completes before (.assign target value) type
  exact ⟨id, after, assignment_eq_ok.mpr ⟨⟨kind, known, isBinding⟩, type, typed, pushed⟩⟩

/-- A method without parameters is called without arguments. -/
theorem call_completes (before : Arena) {registry : Registry} (receiver : NodeId)
    {method : MemberId} {entry : MemberEntry} {returns : TypeId}
    (known : registry.member? method = some entry)
    (kind : entry.kind = .method [] returns) :
    Completes (call registry receiver method []) before := by
  have isMethod : entry.isMethod = true := by rw [MemberEntry.isMethod, kind]
  have noParameters : entry.parameters = [] := by rw [MemberEntry.parameters, kind]
  have asMany : entry.parameters.length = ([] : List NodeId).length := by rw [noParameters]; rfl
  obtain ⟨range, middle, stored⟩ := list_completes before [] (Nat.zero_le _)
  obtain ⟨id, after, pushed⟩ :=
    push_completes middle (.call receiver method range) entry.valueType
  exact ⟨id, after, call_eq_ok.mpr
    ⟨entry, range, middle, known, isMethod, asMany, stored, pushed⟩⟩

/-- A call has the type that its method answers with. -/
theorem call_typeOf {registry : Registry} {receiver id : NodeId} {method : MemberId}
    {arguments : List NodeId} {entry : MemberEntry} (known : registry.member? method = some entry)
    (built : call registry receiver method arguments before = .ok (id, after)) :
    after.typeOf id = .ok entry.valueType := by
  obtain ⟨found, _, _, isFound, -, -, -, pushed⟩ := call_eq_ok.mp built
  cases known.symm.trans isFound
  exact push_typeOf pushed

/-- A loop runs under a condition that is a truth value. -/
theorem whileLoop_completes (body : NodeId) {condition : NodeId}
    (typed : before.typeOf condition = .ok .bool) :
    Completes (whileLoop condition body) before := by
  obtain ⟨exit, left, pushedExit⟩ :=
    push_completes before.freshLabel.1 (.breakTo ⟨before.labels⟩) .void
  obtain ⟨step, branched, pushedStep⟩ :=
    push_completes left (.ifThenElse condition body exit) .void
  obtain ⟨id, after, pushedLoop⟩ := push_completes branched (.loop step ⟨before.labels⟩) .void
  exact ⟨id, after, whileLoop_eq_ok.mpr
    ⟨typed, exit, step, left, branched, pushedExit, pushedStep, pushedLoop⟩⟩

/-- A loop has no value. -/
theorem whileLoop_typeOf {condition body id : NodeId}
    (built : whileLoop condition body before = .ok (id, after)) : after.typeOf id = .ok .void := by
  obtain ⟨-, _, _, _, _, -, -, pushed⟩ := whileLoop_eq_ok.mp built
  exact push_typeOf pushed

/-- A statement that has a type gets a cleanup. -/
theorem tryFinally_completes (cleanup : NodeId) {body : NodeId} {type : TypeId}
    (typed : before.typeOf body = .ok type) : Completes (tryFinally body cleanup) before := by
  obtain ⟨id, after, pushed⟩ := push_completes before (.tryFinally body cleanup) type
  exact ⟨id, after, tryFinally_eq_ok.mpr ⟨type, typed, pushed⟩⟩

/-- A statement with a cleanup has the type of the statement. -/
theorem tryFinally_typeOf {body cleanup id : NodeId} {type : TypeId}
    (typed : before.typeOf body = .ok type)
    (built : tryFinally body cleanup before = .ok (id, after)) : after.typeOf id = .ok type := by
  obtain ⟨_, bodyTyped, pushed⟩ := tryFinally_eq_ok.mp built
  cases typed.symm.trans bodyTyped
  exact push_typeOf pushed

/-- A block is built of variables and statements that are not too many, the last of which has a
type. -/
theorem block_completes {locals statements : List NodeId} {type : TypeId}
    (areVariables : ∀ id ∈ locals, ∃ kind, before.kind id = .ok kind ∧ kind.isVariable = true)
    (typed : before.LastTyped statements type)
    (localsFit : locals.length ≤ Arena.maxListLength)
    (statementsFit : statements.length ≤ Arena.maxListLength) :
    Completes (block locals statements) before := by
  obtain ⟨bindings, middle, storedLocals⟩ := list_completes before locals localsFit
  obtain ⟨body, filled, storedStatements⟩ := list_completes middle statements statementsFit
  obtain ⟨id, after, pushed⟩ := push_completes filled (.block bindings body) type
  exact ⟨id, after, block_eq_ok.mpr ⟨areVariables, type, bindings, body, middle, filled,
    typed, storedLocals, storedStatements, pushed⟩⟩

end Foreach.Construction
