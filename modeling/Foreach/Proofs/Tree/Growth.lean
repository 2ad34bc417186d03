import Foreach.Proofs.Tree.Constructors

/-!
# Trees stay as they were built

Building a tree only ever adds to an arena. `Arena.Extends` says that one arena is another with
additions, and every constructor of a node is described by what it adds: the arena grows, and the
new node is of the expected kind. A stored list is read back from every later arena (`HoldsList`),
so the description of a node stays true however the arena grows.
-/
namespace Foreach

namespace Arena

/-- An arena is another one with additions. -/
structure Extends (later earlier : Arena) : Prop where
  /-- The nodes before keep their handles. -/
  nodes : ∃ added, later.nodes = earlier.nodes ++ added
  /-- The lists before keep their places. -/
  lists : ∃ added, later.lists = earlier.lists ++ added
  /-- Labels are only ever made. -/
  labels : earlier.labels ≤ later.labels

/-- An arena is itself with no additions. -/
theorem Extends.refl (arena : Arena) : arena.Extends arena :=
  ⟨⟨#[], by simp⟩, ⟨#[], by simp⟩, Nat.le_refl _⟩

/-- Additions to additions are additions. -/
theorem Extends.trans {first second third : Arena} (later : third.Extends second)
    (earlier : second.Extends first) : third.Extends first := by
  obtain ⟨⟨laterNodes, nodes⟩, ⟨laterLists, lists⟩, labels⟩ := later
  obtain ⟨⟨earlierNodes, nodesBefore⟩, ⟨earlierLists, listsBefore⟩, labelsBefore⟩ := earlier
  refine ⟨⟨earlierNodes ++ laterNodes, ?_⟩, ⟨earlierLists ++ laterLists, ?_⟩,
    Nat.le_trans labelsBefore labels⟩
  · rw [nodes, nodesBefore, Array.append_assoc]
  · rw [lists, listsBefore, Array.append_assoc]

/-- A new label adds no node. -/
theorem freshLabel_extends (arena : Arena) : arena.freshLabel.1.Extends arena :=
  ⟨⟨#[], by simp [freshLabel]⟩, ⟨#[], by simp [freshLabel]⟩, Nat.le_succ _⟩

/-- What a node is, read off its entry. -/
theorem kind_eq_ok {arena : Arena} {id : NodeId} {kind : NodeKind} :
    arena.kind id = .ok kind ↔ ∃ node, arena.node? id = some node ∧ node.kind = kind := by
  cases found : arena.node? id <;>
    simp [Arena.kind, node, found, bind, Except.bind, pure, Except.pure]

/-- A node stays what it is. -/
theorem Extends.kind {later earlier : Arena} (grown : later.Extends earlier) {id : NodeId}
    {kind : NodeKind} (known : earlier.kind id = .ok kind) : later.kind id = .ok kind := by
  obtain ⟨node, found, same⟩ := kind_eq_ok.mp known
  obtain ⟨added, nodes⟩ := grown.nodes
  refine kind_eq_ok.mpr ⟨node, ?_, same⟩
  obtain ⟨inside, -⟩ := Array.getElem?_eq_some_iff.mp found
  rw [node?, nodes, Array.getElem?_append_left inside]
  exact found

/-- A stretch of the lists holds some ids, in an arena and in all that extend it. -/
def HoldsList (arena : Arena) (range : ListRange) (ids : List NodeId) : Prop :=
  ∀ later : Arena, later.Extends arena → later.list range = ids

/-- A list that is held is read back. -/
theorem HoldsList.list {arena : Arena} {range : ListRange} {ids : List NodeId}
    (held : arena.HoldsList range ids) : arena.list range = ids := held arena (.refl arena)

/-- A list that is held stays held. -/
theorem HoldsList.extend {later earlier : Arena} {range : ListRange} {ids : List NodeId}
    (held : earlier.HoldsList range ids) (grown : later.Extends earlier) :
    later.HoldsList range ids := fun _ further => held _ (further.trans grown)

/-- A stretch inside the lists is the same stretch after additions. -/
theorem Extends.list {later earlier : Arena} (grown : later.Extends earlier) {range : ListRange}
    (inside : range.start + range.length ≤ earlier.lists.size) :
    later.list range = earlier.list range := by
  obtain ⟨added, lists⟩ := grown.lists
  have past : range.start + range.length - earlier.lists.size = 0 := by omega
  rw [Arena.list, Arena.list, lists, Array.extract_append, past]
  simp

/-- A stored list lies inside the table of lists. -/
theorem inside_of_pushList {arena after : Arena} {ids : List NodeId} {range : ListRange}
    (stored : arena.pushList ids = .ok (after, range)) :
    range.start + range.length ≤ after.lists.size := by
  obtain ⟨-, rfl, rfl⟩ := pushList_eq_ok.mp stored
  by_cases isNone : ids.isEmpty = true
  · rw [if_pos isNone]
    exact Nat.zero_le _
  · have appended : arena.lists ++ ids = arena.lists ++ ids.toArray := Array.ext' (by simp)
    rw [if_neg isNone, appended, Array.size_append]
    exact Nat.le_refl _

/-- A stored list is held from then on. -/
theorem holdsList_of_pushList {arena after : Arena} {ids : List NodeId} {range : ListRange}
    (stored : arena.pushList ids = .ok (after, range)) :
    after.Extends arena ∧ after.HoldsList range ids := by
  constructor
  · obtain ⟨-, rfl, -⟩ := pushList_eq_ok.mp stored
    exact ⟨⟨#[], by simp⟩, ⟨ids.toArray, Array.ext' (by simp)⟩, Nat.le_refl _⟩
  · exact fun later grown =>
      (grown.list (inside_of_pushList stored)).trans (list_of_pushList stored)

/-- A node is a call of a method with some arguments. -/
def IsCall (arena : Arena) (id receiver : NodeId) (method : MemberId)
    (arguments : List NodeId) : Prop :=
  ∃ range, arena.kind id = .ok (.call receiver method range) ∧ arena.HoldsList range arguments

/-- A node is a block of some statements with some variables. -/
def IsBlock (arena : Arena) (id : NodeId) (locals statements : List NodeId) : Prop :=
  ∃ bindings body, arena.kind id = .ok (.block bindings body) ∧
    arena.HoldsList bindings locals ∧ arena.HoldsList body statements

/-- A node is a function of some parameters. -/
def IsLambda (arena : Arena) (id : NodeId) (parameters : List NodeId) (body : NodeId) : Prop :=
  ∃ range, arena.kind id = .ok (.lambda range body) ∧ arena.HoldsList range parameters

/-- A call stays a call. -/
theorem IsCall.extend {later earlier : Arena} {id receiver : NodeId} {method : MemberId}
    {arguments : List NodeId} (isCall : earlier.IsCall id receiver method arguments)
    (grown : later.Extends earlier) : later.IsCall id receiver method arguments := by
  obtain ⟨range, known, held⟩ := isCall
  exact ⟨range, grown.kind known, held.extend grown⟩

/-- A block stays a block. -/
theorem IsBlock.extend {later earlier : Arena} {id : NodeId} {locals statements : List NodeId}
    (isBlock : earlier.IsBlock id locals statements) (grown : later.Extends earlier) :
    later.IsBlock id locals statements := by
  obtain ⟨bindings, body, known, heldLocals, heldStatements⟩ := isBlock
  exact ⟨bindings, body, grown.kind known, heldLocals.extend grown, heldStatements.extend grown⟩

end Arena

namespace Construction

variable {before after : Arena} {id : NodeId}

/-- Work that only adds to the arena it works on. -/
def OnlyAdds {α : Type} (work : Construction α) : Prop :=
  ∀ before result after, work before = .ok (result, after) → after.Extends before

/-- A pushed node is there, and the arena has grown. -/
theorem push_adds {kind : NodeKind} {type : TypeId}
    (pushed : push kind type before = .ok (id, after)) :
    after.Extends before ∧ after.kind id = .ok kind := by
  obtain ⟨rfl, rfl⟩ := push_eq_ok.mp pushed
  exact ⟨⟨⟨#[⟨kind, type⟩], by simp [Arena.push]⟩, ⟨#[], by simp [Arena.push]⟩, Nat.le_refl _⟩,
    Arena.kind_eq_ok.mpr ⟨_, Arena.node?_push_self _ _, rfl⟩⟩

/-- A stored list adds no node. -/
theorem list_nodes {ids : List NodeId} {range : ListRange}
    (stored : list ids before = .ok (range, after)) : after.nodes = before.nodes := by
  obtain ⟨-, rfl, -⟩ := Arena.pushList_eq_ok.mp (list_eq_ok.mp stored)
  rfl

/-- A stored list is held, and the arena has grown. -/
theorem list_adds {ids : List NodeId} {range : ListRange}
    (stored : list ids before = .ok (range, after)) :
    after.Extends before ∧ after.HoldsList range ids :=
  Arena.holdsList_of_pushList (list_eq_ok.mp stored)

/-- An assignment is added. -/
theorem assign_adds {target value : NodeId} (built : assign target value before = .ok (id, after)) :
    after.Extends before ∧ after.kind id = .ok (.assign target value) := by
  obtain ⟨-, _, -, pushed⟩ := assignment_eq_ok.mp built
  exact push_adds pushed

/-- An addition to a binding is added. -/
theorem addAssign_adds {target value : NodeId}
    (built : addAssign target value before = .ok (id, after)) :
    after.Extends before ∧ after.kind id = .ok (.addAssign target value) := by
  obtain ⟨-, _, -, pushed⟩ := assignment_eq_ok.mp built
  exact push_adds pushed

/-- A call is added. -/
theorem call_adds {registry : Registry} {receiver : NodeId} {method : MemberId}
    {arguments : List NodeId}
    (built : call registry receiver method arguments before = .ok (id, after)) :
    after.Extends before ∧ after.IsCall id receiver method arguments := by
  obtain ⟨_, range, _, -, -, -, stored, pushed⟩ := call_eq_ok.mp built
  obtain ⟨listGrown, held⟩ := list_adds stored
  obtain ⟨grown, known⟩ := push_adds pushed
  exact ⟨grown.trans listGrown, range, known, held.extend grown⟩

/-- A property access is added. -/
theorem property_adds {registry : Registry} {receiver : NodeId} {member : MemberId}
    (built : property registry receiver member before = .ok (id, after)) :
    after.Extends before ∧ after.kind id = .ok (.property receiver member) := by
  obtain ⟨_, -, -, pushed⟩ := property_eq_ok.mp built
  exact push_adds pushed

/-- A statement with a cleanup is added. -/
theorem tryFinally_adds {body cleanup : NodeId}
    (built : tryFinally body cleanup before = .ok (id, after)) :
    after.Extends before ∧ after.kind id = .ok (.tryFinally body cleanup) := by
  obtain ⟨_, -, pushed⟩ := tryFinally_eq_ok.mp built
  exact push_adds pushed

/-- A block is added. -/
theorem block_adds {locals statements : List NodeId}
    (built : block locals statements before = .ok (id, after)) :
    after.Extends before ∧ after.IsBlock id locals statements := by
  obtain ⟨-, _, bindings, body, _, _, -, storedLocals, storedStatements, pushed⟩ :=
    block_eq_ok.mp built
  obtain ⟨localsGrown, heldLocals⟩ := list_adds storedLocals
  obtain ⟨statementsGrown, heldStatements⟩ := list_adds storedStatements
  obtain ⟨grown, known⟩ := push_adds pushed
  exact ⟨grown.trans (statementsGrown.trans localsGrown), bindings, body, known,
    heldLocals.extend (grown.trans statementsGrown), heldStatements.extend grown⟩

/-- A function is added. -/
theorem lambda_adds {parameters : List NodeId} {body : NodeId}
    (built : lambda parameters body before = .ok (id, after)) :
    after.Extends before ∧ after.IsLambda id parameters body := by
  obtain ⟨-, _, range, _, -, stored, pushed⟩ := lambda_eq_ok.mp built
  obtain ⟨listGrown, held⟩ := list_adds stored
  obtain ⟨grown, known⟩ := push_adds pushed
  exact ⟨grown.trans listGrown, range, known, held.extend grown⟩

/-- A loop that runs as long as a condition holds is a loop whose step runs its body or its own
break. The break is to the next label of the arena. -/
theorem whileLoop_adds {condition body : NodeId}
    (built : whileLoop condition body before = .ok (id, after)) :
    after.Extends before ∧ ∃ step exit,
      after.kind id = .ok (.loop step ⟨before.labels⟩) ∧
      after.kind step = .ok (.ifThenElse condition body exit) ∧
      after.kind exit = .ok (.breakTo ⟨before.labels⟩) := by
  obtain ⟨-, exit, step, _, _, pushedExit, pushedStep, pushedLoop⟩ := whileLoop_eq_ok.mp built
  obtain ⟨exitGrown, exitKnown⟩ := push_adds pushedExit
  obtain ⟨stepGrown, stepKnown⟩ := push_adds pushedStep
  obtain ⟨loopGrown, loopKnown⟩ := push_adds pushedLoop
  have exited := exitGrown.trans before.freshLabel_extends
  exact ⟨loopGrown.trans (stepGrown.trans exited), step, exit, loopKnown,
    loopGrown.kind stepKnown, (loopGrown.trans stepGrown).kind exitKnown⟩

end Construction

end Foreach
