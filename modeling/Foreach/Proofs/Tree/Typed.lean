import Foreach.Proofs.Tree.Growth

/-!
# Types of nodes

A node keeps its type as the arena grows, and a block has the type of its last statement. What all
nodes of an arena have in common is shown of each node that is pushed (`Admits`); here it is that
conversions are to one type only.
-/
namespace Foreach

/-- The type of a node, read off its entry. -/
theorem Arena.typeOf_eq_ok {arena : Arena} {id : NodeId} {type : TypeId} :
    arena.typeOf id = .ok type ↔ ∃ node, arena.node? id = some node ∧ node.type = type := by
  cases found : arena.node? id <;>
    simp [Arena.typeOf, Arena.node, found, bind, Except.bind, pure, Except.pure]

/-- A node keeps its type. -/
theorem Arena.Extends.typeOf {later earlier : Arena} (grown : later.Extends earlier) {id : NodeId}
    {type : TypeId} (typed : earlier.typeOf id = .ok type) : later.typeOf id = .ok type := by
  obtain ⟨added, nodes⟩ := grown.nodes
  obtain ⟨node, found, same⟩ := Arena.typeOf_eq_ok.mp typed
  refine Arena.typeOf_eq_ok.mpr ⟨node, ?_, same⟩
  obtain ⟨inside, -⟩ := Array.getElem?_eq_some_iff.mp found
  rw [Arena.node?, nodes, Array.getElem?_append_left inside]
  exact found

namespace Construction

variable {before after : Arena}

/-- A pushed node has the type that it was pushed with. -/
theorem push_typeOf {kind : NodeKind} {type : TypeId} {id : NodeId}
    (pushed : push kind type before = .ok (id, after)) : after.typeOf id = .ok type := by
  obtain ⟨rfl, rfl⟩ := push_eq_ok.mp pushed
  exact Arena.typeOf_eq_ok.mpr ⟨_, Arena.node?_push_self _ _, rfl⟩

/-- A block has the type of its last statement. -/
theorem block_typeOf {locals statements : List NodeId} {id : NodeId} {type : TypeId}
    (typed : before.LastTyped statements type)
    (built : block locals statements before = .ok (id, after)) : after.typeOf id = .ok type := by
  obtain ⟨-, found, _, _, _, _, lastTyped, -, -, pushed⟩ := block_eq_ok.mp built
  have same : found = type := lastTyped.unique typed
  exact same ▸ push_typeOf pushed

section Admits

variable {α β : Type} {admits : Node → Prop}

/-- Work that leaves an arena all of whose nodes are admitted if it starts from one. -/
def Admits (admits : Node → Prop) (work : Construction α) : Prop :=
  ∀ before result after, work before = .ok (result, after) →
    (∀ node ∈ before.nodes, admits node) → ∀ node ∈ after.nodes, admits node

/-- Work in sequence adds what its parts add. -/
theorem Admits.bind {work : Construction α} {next : α → Construction β}
    (first : Admits admits work) (second : ∀ value, Admits admits (next value)) :
    Admits admits (work >>= next) := by
  intro before result after ended admitted
  obtain ⟨value, middle, started, ended⟩ := Work.bind_eq_ok.mp ended
  exact second value middle result after ended (first before value middle started admitted)

/-- Work with another answer adds what the work adds. -/
theorem Admits.map {work : Construction α} {answer : α → β} (added : Admits admits work) :
    Admits admits (answer <$> work) := by
  intro before result after ended admitted
  obtain ⟨value, ended, -⟩ := Work.map_eq_ok.mp ended
  exact added before value after ended admitted

/-- A result that does not depend on the arena adds nothing. -/
theorem Admits.lift (checked : Checked α) :
    Admits admits (liftM checked : Construction α) := by
  intro before result after ended admitted
  obtain ⟨-, rfl⟩ := Work.lift_eq_ok.mp ended
  exact admitted

/-- A value alone adds nothing. -/
theorem Admits.pure (value : α) : Admits admits (pure value : Construction α) := by
  intro before result after ended admitted
  obtain ⟨-, rfl⟩ := Work.pure_eq_ok.mp ended
  exact admitted

/-- A question adds nothing. -/
theorem Admits.ask (question : Arena → Checked α) : Admits admits (ask question) := by
  intro before result after ended admitted
  obtain ⟨-, rfl⟩ := ask_eq_ok.mp ended
  exact admitted

/-- Questions about several nodes add nothing. -/
theorem Admits.requireKinds (test : NodeKind → Bool) (ids : List NodeId) :
    Admits admits (ids.forM (requireKind test)) := by
  intro before result after ended admitted
  obtain ⟨-, rfl⟩ := requireKinds_eq_ok.mp ended
  exact admitted

/-- A list adds no node. -/
theorem Admits.list (ids : List NodeId) : Admits admits (list ids) := by
  intro before result after ended admitted
  rwa [list_nodes ended]

/-- A label adds no node. -/
theorem Admits.freshLabel : Admits admits freshLabel := by
  intro before result after ended admitted
  obtain ⟨rfl, rfl⟩ := Prod.mk.inj (Work.modifyGet_eq_ok.mp ended)
  exact admitted

/-- A pushed node is the only one that is added. -/
theorem Admits.push {kind : NodeKind} {type : TypeId} (admitted : admits ⟨kind, type⟩) :
    Admits admits (push kind type) := by
  intro before result after ended others node isListed
  obtain ⟨rfl, rfl⟩ := push_eq_ok.mp ended
  cases Array.mem_push.mp isListed with
  | inl isOld => exact others node isOld
  | inr isNew => exact isNew ▸ admitted

end Admits

section Conversions

variable {type : TypeId} {registry : Registry}

/-- A node is no conversion, except to a type. -/
def ConvertsTo (type : TypeId) (node : Node) : Prop :=
  ∀ operand, node.kind = .convert operand → node.type = type

/-- An assignment converts nothing. -/
theorem assign_convertsTo (target value : NodeId) :
    Admits (ConvertsTo type) (assign target value) :=
  .bind (.bind (.ask _) fun _ => .lift _) fun _ => .bind (.ask _) fun _ => .push nofun

/-- An addition to a binding converts nothing. -/
theorem addAssign_convertsTo (target value : NodeId) :
    Admits (ConvertsTo type) (addAssign target value) :=
  .bind (.bind (.ask _) fun _ => .lift _) fun _ => .bind (.ask _) fun _ => .push nofun

/-- A call converts nothing. -/
theorem call_convertsTo (receiver : NodeId) (method : MemberId) (arguments : List NodeId) :
    Admits (ConvertsTo type) (call registry receiver method arguments) :=
  .bind (.lift _) fun _ => .bind (.lift _) fun _ => .bind (.lift _) fun _ =>
    .bind (.list _) fun _ => .push nofun

/-- A read property converts nothing. -/
theorem property_convertsTo (receiver : NodeId) (member : MemberId) :
    Admits (ConvertsTo type) (property registry receiver member) :=
  .bind (.lift _) fun _ => .bind (.lift _) fun _ => .push nofun

/-- A block converts nothing. -/
theorem block_convertsTo (locals statements : List NodeId) :
    Admits (ConvertsTo type) (block locals statements) := by
  have last : Admits (ConvertsTo type) (lastType statements) := by
    unfold lastType
    cases statements.getLast? with
    | none => exact .pure _
    | some node => exact .ask _
  exact .bind (.requireKinds _ _) fun _ => .bind last fun _ => .bind (.list _) fun _ =>
    .bind (.list _) fun _ => .push nofun

/-- A function converts nothing. -/
theorem lambda_convertsTo (parameters : List NodeId) (body : NodeId) :
    Admits (ConvertsTo type) (lambda parameters body) :=
  .bind (.requireKinds _ _) fun _ => .bind (.ask _) fun _ => .bind (.list _) fun _ => .push nofun

/-- A loop converts nothing. -/
theorem whileLoop_convertsTo (condition body : NodeId) :
    Admits (ConvertsTo type) (whileLoop condition body) :=
  .bind (.ask _) fun _ => .bind (.lift _) fun _ => .bind .freshLabel fun _ =>
    .bind (.push nofun) fun _ => .bind (.push nofun) fun _ => .push nofun

/-- A statement with a cleanup converts nothing. -/
theorem tryFinally_convertsTo (body cleanup : NodeId) :
    Admits (ConvertsTo type) (tryFinally body cleanup) :=
  .bind (.ask _) fun _ => .push nofun

end Conversions

end Construction

end Foreach
