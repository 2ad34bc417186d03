import Foreach.Proofs.Tree.Reach
import Foreach.Proofs.Tree.Typed
import Foreach.Proofs.Types.Built

/-!
# Arenas that constructors fill

An arena is assembled if it was filled by the constructors of nodes alone, each used on nodes that
are in the arena and on types of one registry (`Arena.Assembled`). Such an arena is formed: the
parts of a node are older than the node, its lists stay what they are, its type and its member are
registered, and a statement that gives a value has the type of the part that gives it
(`Arena.Assembled.formed`).
-/
namespace Foreach

namespace NodeKind

/-- The stored lists that a node refers to. -/
def ranges : NodeKind → List ListRange
  | call _ _ arguments => [arguments]
  | block locals statements => [locals, statements]
  | lambda parameters _ => [parameters]
  | _ => []

/-- The member that a node uses. -/
def member? : NodeKind → Option MemberId
  | call _ member _ | property _ member => some member
  | _ => none

/-- Whether a node is a statement, which gives the value of one of its parts or none. -/
def isStatement : NodeKind → Bool
  | block _ _ | ifThen _ _ | ifThenElse _ _ _ | loop _ _ | breakTo _ | tryFinally _ _ => true
  | _ => false

end NodeKind

namespace Arena

/-- A node is in an arena. -/
def Has (arena : Arena) (id : NodeId) : Prop := id.index < arena.size

/-- Whether a node is in an arena can be decided. -/
instance (arena : Arena) (id : NodeId) : Decidable (arena.Has id) :=
  inferInstanceAs (Decidable (_ < _))

/-- The part of a statement that gives its value, if it has one. -/
def valuePart? (arena : Arena) : NodeKind → Option NodeId
  | .block _ statements => (arena.list statements).getLast?
  | .tryFinally body _ => some body
  | _ => none

/-- A node makes sense at a handle, in an arena that has its parts. -/
structure Suits (registry : Registry) (arena : Arena) (id : NodeId) (node : Node) : Prop where
  /-- The lists are stored. -/
  stored : ∀ range ∈ node.kind.ranges, ∃ ids, arena.HoldsList range ids
  /-- The parts are older than the node. -/
  older : ∀ child ∈ arena.children node.kind, child.index < id.index
  /-- The type is registered. -/
  typed : registry.Has node.type
  /-- The member is registered. -/
  member : ∀ member ∈ node.kind.member?, registry.HasMember member
  /-- The variables of a block are variables. -/
  locals : ∀ locals statements, node.kind = .block locals statements →
    ∀ binding ∈ arena.list locals, ∃ name, arena.kind binding = .ok (.var name)
  /-- A statement has the type of the part that gives its value. -/
  value : ∀ part, arena.valuePart? node.kind = some part → arena.typeOf part = .ok node.type
  /-- A statement without such a part has no value. -/
  void : node.kind.isStatement = true → arena.valuePart? node.kind = none → node.type = .void

/-- Every node of an arena makes sense. -/
def Formed (registry : Registry) (arena : Arena) : Prop :=
  ∀ id node, arena.node? id = some node → Suits registry arena id node

section Growth

variable {registry : Registry} {arena later : Arena} {id : NodeId} {node : Node}

/-- A node that is there is in the arena. -/
theorem has_iff : arena.Has id ↔ ∃ node, arena.node? id = some node := by
  rw [Has, node?]
  constructor
  · exact fun inside => ⟨_, Array.getElem?_eq_getElem inside⟩
  · rintro ⟨node, found⟩
    exact (Array.getElem?_eq_some_iff.mp found).1

/-- A node that is of some kind is in the arena. -/
theorem has_of_kind {kind : NodeKind} (known : arena.kind id = .ok kind) : arena.Has id := by
  obtain ⟨node, found, -⟩ := kind_eq_ok.mp known
  exact has_iff.mpr ⟨node, found⟩

/-- A node that has a type is in the arena. -/
theorem has_of_typeOf {type : TypeId} (typed : arena.typeOf id = .ok type) : arena.Has id := by
  obtain ⟨node, found, -⟩ := typeOf_eq_ok.mp typed
  exact has_iff.mpr ⟨node, found⟩

variable (grown : later.Extends arena)
include grown

/-- A node stays in an arena that grows. -/
theorem Extends.has (has : arena.Has id) : later.Has id := by
  obtain ⟨added, nodes⟩ := grown.nodes
  rw [Has, size, nodes, Array.size_append]
  exact Nat.lt_add_right _ has

/-- The lists of a node stay what they are. -/
theorem Extends.list_eq {range : ListRange} (stored : ∃ ids, arena.HoldsList range ids) :
    later.list range = arena.list range := by
  obtain ⟨ids, held⟩ := stored
  rw [held later grown, held.list]

/-- The parts of a node stay the same. -/
theorem Extends.children_eq {kind : NodeKind}
    (stored : ∀ range ∈ kind.ranges, ∃ ids, arena.HoldsList range ids) :
    later.children kind = arena.children kind := by
  cases kind with
  | call receiver method arguments =>
    rw [children, children, grown.list_eq (stored _ (by simp [NodeKind.ranges]))]
  | block locals statements =>
    rw [children, children, grown.list_eq (stored locals (by simp [NodeKind.ranges])),
      grown.list_eq (stored statements (by simp [NodeKind.ranges]))]
  | lambda parameters body =>
    rw [children, children, grown.list_eq (stored _ (by simp [NodeKind.ranges]))]
  | _ => rfl

/-- The part that gives the value stays the same. -/
theorem Extends.valuePart?_eq {kind : NodeKind}
    (stored : ∀ range ∈ kind.ranges, ∃ ids, arena.HoldsList range ids) :
    later.valuePart? kind = arena.valuePart? kind := by
  cases kind with
  | block locals statements =>
    rw [valuePart?, valuePart?, grown.list_eq (stored statements (by simp [NodeKind.ranges]))]
  | _ => rfl

/-- What makes sense goes on making sense. -/
theorem Suits.extend (suits : Suits registry arena id node) : Suits registry later id node where
  stored range isRange := by
    obtain ⟨ids, held⟩ := suits.stored range isRange
    exact ⟨ids, held.extend grown⟩
  older := by
    rw [grown.children_eq suits.stored]
    exact suits.older
  typed := suits.typed
  member := suits.member
  locals locals statements isBlock binding isLocal := by
    have isRange : locals ∈ node.kind.ranges := by simp [isBlock, NodeKind.ranges]
    rw [grown.list_eq (suits.stored locals isRange)] at isLocal
    obtain ⟨name, known⟩ := suits.locals locals statements isBlock binding isLocal
    exact ⟨name, grown.kind known⟩
  value part isPart := by
    rw [grown.valuePart?_eq suits.stored] at isPart
    exact grown.typeOf (suits.value part isPart)
  void isStatement noPart := by
    rw [grown.valuePart?_eq suits.stored] at noPart
    exact suits.void isStatement noPart

end Growth

/-- An arena in which nothing was added but lists is formed if it was before. -/
theorem Formed.extend {registry : Registry} {arena later : Arena} (formed : arena.Formed registry)
    (grown : later.Extends arena) (same : later.nodes = arena.nodes) : later.Formed registry := by
  intro id node found
  refine (formed id node ?_).extend grown
  rwa [node?, same] at found

/-- A formed arena stays formed when a node is pushed that makes sense. -/
theorem Formed.push {registry : Registry} {arena : Arena} {node : Node}
    (formed : arena.Formed registry) (suits : Suits registry arena ⟨arena.size⟩ node) :
    (arena.push node).1.Formed registry := by
  have grown : (arena.push node).1.Extends arena :=
    ⟨⟨#[node], by simp [Arena.push]⟩, ⟨#[], by simp [Arena.push]⟩, Nat.le_refl _⟩
  intro id other found
  rw [node?, Arena.push, Array.getElem?_push] at found
  by_cases isNew : id.index = arena.nodes.size
  · rw [if_pos isNew] at found
    obtain rfl := Option.some.inj found
    obtain rfl : id = ⟨arena.size⟩ := congrArg NodeId.mk isNew
    exact suits.extend grown
  · rw [if_neg isNew] at found
    exact (formed id other found).extend grown

end Arena

namespace Construction

/-- A constructor of one node, used on what an arena and a registry have. -/
inductive Step (registry : Registry) (arena : Arena) : Construction NodeId → Prop where
  /-- A parameter. -/
  | parameter (name : String) {type : TypeId} (has : registry.Has type) :
    Step registry arena (parameter name type)
  /-- A variable. -/
  | var (name : String) {type : TypeId} (has : registry.Has type) :
    Step registry arena (var name type)
  /-- An integer. -/
  | int (value : Int64) : Step registry arena (int value)
  /-- A truth value. -/
  | bool (value : Bool) : Step registry arena (bool value)
  /-- The null reference. -/
  | null {type : TypeId} (has : registry.Has type) : Step registry arena (null type)
  /-- An assignment. -/
  | assign {target value : NodeId} (valueHas : arena.Has value) :
    Step registry arena (assign target value)
  /-- An addition to a binding. -/
  | addAssign {target value : NodeId} (valueHas : arena.Has value) :
    Step registry arena (addAssign target value)
  /-- A call. -/
  | call {receiver : NodeId} {method : MemberId} {arguments : List NodeId}
    (receiverHas : arena.Has receiver)
    (argumentsHave : ∀ argument ∈ arguments, arena.Has argument) :
    Step registry arena (call registry receiver method arguments)
  /-- A read property. -/
  | property {receiver : NodeId} {member : MemberId} (receiverHas : arena.Has receiver) :
    Step registry arena (property registry receiver member)
  /-- A conversion. -/
  | convert {operand : NodeId} {type : TypeId} (operandHas : arena.Has operand)
    (has : registry.Has type) : Step registry arena (convert operand type)
  /-- A comparison. -/
  | notEqual {left right : NodeId} (leftHas : arena.Has left) (rightHas : arena.Has right) :
    Step registry arena (notEqual left right)
  /-- A block. -/
  | block {locals statements : List NodeId}
    (statementsHave : ∀ statement ∈ statements, arena.Has statement) :
    Step registry arena (block locals statements)
  /-- A statement under a condition. -/
  | ifThen {condition consequence : NodeId} (conditionHas : arena.Has condition)
    (consequenceHas : arena.Has consequence) : Step registry arena (ifThen condition consequence)
  /-- One of two statements. -/
  | ifThenElse {condition consequence alternative : NodeId} (conditionHas : arena.Has condition)
    (consequenceHas : arena.Has consequence) (alternativeHas : arena.Has alternative) :
    Step registry arena (ifThenElse condition consequence alternative)
  /-- A loop. -/
  | loop {body : NodeId} (exit : Label) (bodyHas : arena.Has body) :
    Step registry arena (loop body exit)
  /-- The end of a loop. -/
  | breakTo (label : Label) : Step registry arena (breakTo label)
  /-- A statement with a cleanup. -/
  | tryFinally {body cleanup : NodeId} (cleanupHas : arena.Has cleanup) :
    Step registry arena (tryFinally body cleanup)
  /-- A function. -/
  | lambda {parameters : List NodeId} {body : NodeId} :
    Step registry arena (lambda parameters body)

end Construction

/-- An arena that such constructors fill. -/
inductive Arena.Assembled (registry : Registry) : Arena → Prop where
  /-- There is nothing at first. -/
  | empty : Assembled registry .empty
  /-- One more node is made of what is there. -/
  | node {before after : Arena} {work : Construction NodeId} {id : NodeId}
    (assembled : Assembled registry before) (step : Construction.Step registry before work)
    (ran : work before = .ok (id, after)) : Assembled registry after
  /-- One more label is made. -/
  | label {before : Arena} (assembled : Assembled registry before) :
    Assembled registry before.freshLabel.1

namespace Construction

open Arena

variable {registry : Registry} {before after : Arena} {id : NodeId}

/-- What is no statement has no part that gives its value. -/
theorem valuePart?_eq_none {kind : NodeKind} (noStatement : kind.isStatement = false) :
    before.valuePart? kind = none := by
  cases kind with
  | block locals statements => cases noStatement
  | tryFinally body cleanup => cases noStatement
  | _ => rfl

/-- A node that is no statement makes sense if its parts, its type and its member do. -/
theorem suits_of_expression {kind : NodeKind} {type : TypeId}
    (noStatement : kind.isStatement = false)
    (stored : ∀ range ∈ kind.ranges, ∃ ids, before.HoldsList range ids)
    (older : ∀ child ∈ before.children kind, child.index < id.index) (typed : registry.Has type)
    (member : ∀ member ∈ kind.member?, registry.HasMember member) :
    Suits registry before id ⟨kind, type⟩ where
  stored := stored
  older := older
  typed := typed
  member := member
  locals := by
    rintro locals statements rfl
    cases noStatement
  value part isPart := by
    cases (valuePart?_eq_none noStatement).symm.trans isPart
  void isStatement := by
    cases noStatement.symm.trans isStatement

section Formed

variable (complete : registry.Complete) (formed : before.Formed registry)
include complete formed

omit complete in
/-- A pushed node that is no statement, and has no lists and no member, keeps an arena formed. -/
theorem push_formed {kind : NodeKind} {type : TypeId} (noStatement : kind.isStatement = false)
    (noRanges : kind.ranges = []) (older : ∀ child ∈ before.children kind, before.Has child)
    (typed : registry.Has type) (noMember : kind.member? = none)
    (ran : push kind type before = .ok (id, after)) : after.Formed registry := by
  obtain ⟨rfl, rfl⟩ := push_eq_ok.mp ran
  refine formed.push (suits_of_expression noStatement ?_ older typed ?_)
  · rw [noRanges]
    exact nofun
  · rw [noMember]
    exact nofun

/-- A pushed statement without a value keeps an arena formed. -/
theorem push_formed_void {kind : NodeKind} (noRanges : kind.ranges = [])
    (older : ∀ child ∈ before.children kind, before.Has child) (noMember : kind.member? = none)
    (noValue : before.valuePart? kind = none) (noBlock : ∀ locals statements,
      kind ≠ .block locals statements)
    (ran : push kind .void before = .ok (id, after)) : after.Formed registry := by
  obtain ⟨rfl, rfl⟩ := push_eq_ok.mp ran
  have typed : registry.Has .void := complete.keeps.has (by decide)
  refine formed.push ⟨?_, older, typed, ?_, fun locals statements isBlock => ?_, ?_, ?_⟩
  · rw [noRanges]
    exact nofun
  · rw [noMember]
    exact nofun
  · exact absurd isBlock (noBlock locals statements)
  · rw [noValue]
    exact nofun
  · exact fun _ _ => rfl

omit complete in
/-- A type that is read in a formed arena is registered. -/
theorem Formed.typeOf_has {node : NodeId} {type : TypeId}
    (typed : before.typeOf node = .ok type) : registry.Has type := by
  obtain ⟨entry, found, rfl⟩ := typeOf_eq_ok.mp typed
  exact (formed node entry found).typed

/-- A called method keeps an arena formed. -/
theorem call_formed {receiver : NodeId} {method : MemberId} {arguments : List NodeId}
    (receiverHas : before.Has receiver)
    (argumentsHave : ∀ argument ∈ arguments, before.Has argument)
    (ran : call registry receiver method arguments before = .ok (id, after)) :
    after.Formed registry := by
  obtain ⟨entry, range, middle, known, -, -, stored, pushed⟩ := call_eq_ok.mp ran
  obtain ⟨grown, held⟩ := list_adds stored
  obtain ⟨rfl, rfl⟩ := push_eq_ok.mp pushed
  refine (formed.extend grown (list_nodes stored)).push (suits_of_expression rfl ?_ ?_ ?_ ?_)
  · intro range' isRange
    obtain rfl := List.mem_singleton.mp isRange
    exact ⟨arguments, held⟩
  · intro child isChild
    rw [children, held.list] at isChild
    obtain rfl | isArgument := List.mem_cons.mp isChild
    · exact grown.has receiverHas
    · exact grown.has (argumentsHave child isArgument)
  · exact complete.valueType_has known
  · rintro member ⟨⟩
    exact Registry.index_lt_of_member? known

/-- A read property keeps an arena formed. -/
theorem property_formed {receiver : NodeId} {member : MemberId} (receiverHas : before.Has receiver)
    (ran : property registry receiver member before = .ok (id, after)) : after.Formed registry := by
  obtain ⟨entry, known, -, pushed⟩ := property_eq_ok.mp ran
  obtain ⟨rfl, rfl⟩ := push_eq_ok.mp pushed
  refine formed.push (suits_of_expression rfl nofun ?_ (complete.valueType_has known) ?_)
  · intro child isChild
    obtain rfl := List.mem_singleton.mp isChild
    exact receiverHas
  · rintro member ⟨⟩
    exact Registry.index_lt_of_member? known

/-- A block keeps an arena formed. -/
theorem block_formed {locals statements : List NodeId}
    (statementsHave : ∀ statement ∈ statements, before.Has statement)
    (ran : block locals statements before = .ok (id, after)) : after.Formed registry := by
  obtain ⟨areVariables, type, bindings, body, middle, last, typed, storedLocals,
    storedStatements, pushed⟩ := block_eq_ok.mp ran
  obtain ⟨localsGrown, heldLocals⟩ := list_adds storedLocals
  obtain ⟨statementsGrown, heldStatements⟩ := list_adds storedStatements
  have grown := statementsGrown.trans localsGrown
  have isLocals := (heldLocals.extend statementsGrown).list
  have isStatements := heldStatements.list
  obtain ⟨rfl, rfl⟩ := push_eq_ok.mp pushed
  have same := (list_nodes storedStatements).trans (list_nodes storedLocals)
  refine (formed.extend grown same).push ⟨?_, ?_, ?_, by simp [NodeKind.member?], ?_, ?_, ?_⟩
  · intro range isRange
    obtain rfl | isOther := List.mem_cons.mp isRange
    · exact ⟨locals, heldLocals.extend statementsGrown⟩
    · obtain rfl := List.mem_singleton.mp isOther
      exact ⟨statements, heldStatements⟩
  · intro child isChild
    rw [children, isLocals, isStatements] at isChild
    obtain isLocal | isStatement := List.mem_append.mp isChild
    · obtain ⟨kind, known, -⟩ := areVariables child isLocal
      exact grown.has (has_of_kind known)
    · exact grown.has (statementsHave child isStatement)
  · cases ends : statements.getLast? with
    | none =>
      have nothing : registry.Has .void := complete.keeps.has (by decide)
      exact typed.void ends ▸ nothing
    | some part => exact Formed.typeOf_has formed (typed.last part ends)
  · rintro _ _ ⟨⟩ binding isLocal
    rw [isLocals] at isLocal
    obtain ⟨kind, known, isVariable⟩ := areVariables binding isLocal
    cases kind with
    | var name => exact ⟨name, grown.kind known⟩
    | _ => cases isVariable
  · intro part isPart
    rw [valuePart?, isStatements] at isPart
    exact grown.typeOf (typed.last part isPart)
  · intro _ noPart
    rw [valuePart?, isStatements] at noPart
    exact typed.void noPart

omit complete in
/-- A statement with a cleanup keeps an arena formed. -/
theorem tryFinally_formed {body cleanup : NodeId} (cleanupHas : before.Has cleanup)
    (ran : tryFinally body cleanup before = .ok (id, after)) : after.Formed registry := by
  obtain ⟨type, typed, pushed⟩ := tryFinally_eq_ok.mp ran
  obtain ⟨rfl, rfl⟩ := push_eq_ok.mp pushed
  refine formed.push ⟨nofun, ?_, Formed.typeOf_has formed typed, nofun, nofun, ?_, nofun⟩
  · intro child isChild
    obtain rfl | isOther := List.mem_cons.mp isChild
    · exact has_of_typeOf typed
    · obtain rfl := List.mem_singleton.mp isOther
      exact cleanupHas
  · rintro part ⟨⟩
    exact typed

omit complete in
/-- A function keeps an arena formed. -/
theorem lambda_formed {parameters : List NodeId} {body : NodeId}
    (ran : lambda parameters body before = .ok (id, after)) : after.Formed registry := by
  obtain ⟨areParameters, type, range, middle, typed, stored, pushed⟩ := lambda_eq_ok.mp ran
  obtain ⟨grown, held⟩ := list_adds stored
  obtain ⟨rfl, rfl⟩ := push_eq_ok.mp pushed
  refine (formed.extend grown (list_nodes stored)).push
    (suits_of_expression rfl ?_ ?_ (Formed.typeOf_has formed typed) nofun)
  · intro range' isRange
    obtain rfl := List.mem_singleton.mp isRange
    exact ⟨parameters, held⟩
  · intro child isChild
    rw [children, held.list] at isChild
    obtain isParameter | isBody := List.mem_append.mp isChild
    · obtain ⟨kind, known, -⟩ := areParameters child isParameter
      exact grown.has (has_of_kind known)
    · obtain rfl := List.mem_singleton.mp isBody
      exact grown.has (has_of_typeOf typed)

omit complete in
/-- An assignment keeps an arena formed, and so does an addition to a binding. -/
theorem assignment_formed {kind : NodeKind} {target value : NodeId}
    (noStatement : kind.isStatement = false) (noRanges : kind.ranges = [])
    (parts : ∀ child ∈ before.children kind, child = target ∨ child = value)
    (noMember : kind.member? = none) (valueHas : before.Has value)
    (ran : (do
      requireKind NodeKind.isBinding target
      push kind (← typeOf target) : Construction NodeId) before = .ok (id, after)) :
    after.Formed registry := by
  obtain ⟨-, type, typed, pushed⟩ := assignment_eq_ok.mp ran
  refine push_formed formed noStatement noRanges (fun child isChild => ?_)
    (Formed.typeOf_has formed typed) noMember pushed
  obtain rfl | rfl := parts child isChild
  · exact has_of_typeOf typed
  · exact valueHas

/-- A constructor keeps an arena formed. -/
theorem Step.formed_after {work : Construction NodeId} (step : Step registry before work)
    (ran : work before = .ok (id, after)) : after.Formed registry := by
  have truth : registry.Has .bool := complete.keeps.has (by decide)
  have number : registry.Has .int := complete.keeps.has (by decide)
  cases step with
  | parameter name has => exact push_formed formed rfl rfl (by simp [children]) has rfl ran
  | var name has => exact push_formed formed rfl rfl (by simp [children]) has rfl ran
  | int value => exact push_formed formed rfl rfl (by simp [children]) number rfl ran
  | bool value => exact push_formed formed rfl rfl (by simp [children]) truth rfl ran
  | null has => exact push_formed formed rfl rfl (by simp [children]) has rfl ran
  | assign valueHas =>
    exact assignment_formed formed rfl rfl (by simp [children]) rfl valueHas ran
  | addAssign valueHas =>
    exact assignment_formed formed rfl rfl (by simp [children]) rfl valueHas ran
  | call receiverHas argumentsHave =>
    exact call_formed complete formed receiverHas argumentsHave ran
  | property receiverHas => exact property_formed complete formed receiverHas ran
  | convert operandHas has =>
    exact push_formed formed rfl rfl (by simpa [children] using operandHas) has rfl ran
  | notEqual leftHas rightHas =>
    exact push_formed formed rfl rfl (by simp [children, leftHas, rightHas]) truth rfl ran
  | block statementsHave => exact block_formed complete formed statementsHave ran
  | ifThen conditionHas consequenceHas =>
    exact push_formed_void complete formed rfl (by simp [children, conditionHas, consequenceHas])
      rfl rfl (by simp) ran
  | ifThenElse conditionHas consequenceHas alternativeHas =>
    exact push_formed_void complete formed rfl
      (by simp [children, conditionHas, consequenceHas, alternativeHas]) rfl rfl (by simp) ran
  | loop exit bodyHas =>
    exact push_formed_void complete formed rfl (by simp [children, bodyHas]) rfl rfl (by simp) ran
  | breakTo label =>
    exact push_formed_void complete formed rfl (by simp [children]) rfl rfl (by simp) ran
  | tryFinally cleanupHas => exact tryFinally_formed formed cleanupHas ran
  | lambda => exact lambda_formed formed ran

end Formed

end Construction

/-- In an arena that constructors fill every node makes sense. -/
theorem Arena.Assembled.formed {registry : Registry} {arena : Arena} (complete : registry.Complete)
    (assembled : arena.Assembled registry) : arena.Formed registry := by
  induction assembled with
  | empty => exact fun id node found => nomatch found
  | node _ step ran ih => exact step.formed_after complete ih ran
  | label _ ih => exact ih.extend (freshLabel_extends _) rfl

end Foreach
