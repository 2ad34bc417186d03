import Foreach.Proofs.Evaluation.Discipline

/-!
# Evaluation keeps to its discipline

The induction on the bound of an evaluation: a tree that obeys a discipline is evaluated within it,
and in the same way within every larger bound. From it follow, with disciplines of their own,

* that a bound that suffices may be exceeded (`evaluate_mono`);
* that a tree that never assigns a binding leaves its value (`lookup_of_evaluate`), and that one
  that never breaks to a label is never left with it (`evaluate_spares`).
-/
namespace Foreach

namespace Program

variable {program : Program} {discipline : Discipline}

open Discipline

/-- A node that obeys a discipline follows itself if the nodes that it is made of do. -/
theorem evaluateNode_follows {work spec : NodeId → Evaluation Value} {id : NodeId} {kind : NodeKind}
    (allowed : discipline.Allows program.arena id) (known : program.arena.kind id = .ok kind)
    (nodes : ∀ node, discipline.Allows program.arena node →
      discipline.Follows (work node) (spec node)) :
    discipline.Follows (program.evaluateNode work id kind) (program.evaluateNode spec id kind) := by
  have child : ∀ node ∈ program.arena.children kind, discipline.Follows (work node) (spec node) :=
    fun node listed => nodes node (allowed.child known listed)
  have mayWrite : ∀ target, kind.target? = some target → discipline.writable target :=
    (allowed id kind (.refl id) known).1
  have mayLeave : ∀ label, kind = .breakTo label → discipline.leavable label :=
    (allowed id kind (.refl id) known).2
  cases kind with
  | parameter | var => exact follows_read program id
  | int | bool | null => exact follows_pure _
  | assign target value =>
    refine follows_bind (child value (by simp [Arena.children])) fun given => ?_
    refine follows_bind (follows_write program (mayWrite target rfl) given) fun _ => ?_
    exact follows_pure given
  | addAssign target value =>
    refine follows_bind (child value (by simp [Arena.children])) fun given => ?_
    refine follows_bind (follows_given _) fun increment => ?_
    refine follows_bind (follows_read program target) fun held => ?_
    refine follows_bind (follows_given _) fun before => ?_
    refine follows_bind (follows_write program (mayWrite target rfl) _) fun _ => ?_
    exact follows_pure _
  | call receiver method arguments =>
    refine follows_bind (child receiver (by simp [Arena.children])) fun value => ?_
    refine follows_bind (follows_mapM fun argument listed => ?_) fun values => ?_
    · exact child argument (by simp [Arena.children, listed])
    · exact follows_callMember program value method values
  | property receiver member =>
    refine follows_bind (child receiver (by simp [Arena.children])) fun value => ?_
    exact follows_callMember program value member []
  | convert operand => exact child operand (by simp [Arena.children])
  | notEqual left right =>
    refine follows_bind (child left (by simp [Arena.children])) fun first => ?_
    refine follows_bind (child right (by simp [Arena.children])) fun second => ?_
    exact follows_pure _
  | block locals statements =>
    refine follows_inScope _ (follows_runAll (fun statement listed => ?_) _)
    exact child statement (by simp [Arena.children, listed])
  | ifThen condition consequence =>
    refine follows_bind (child condition (by simp [Arena.children])) fun value => ?_
    refine follows_bind (follows_given _) fun holds => ?_
    cases holds with
    | true =>
      exact follows_bind (child consequence (by simp [Arena.children])) fun _ => follows_pure _
    | false => exact follows_pure _
  | ifThenElse condition consequence alternative =>
    refine follows_bind (child condition (by simp [Arena.children])) fun value => ?_
    refine follows_bind (follows_given _) fun holds => ?_
    cases holds with
    | true =>
      exact follows_bind (child consequence (by simp [Arena.children])) fun _ => follows_pure _
    | false =>
      exact follows_bind (child alternative (by simp [Arena.children])) fun _ => follows_pure _
  | loop body exit =>
    refine follows_attempt (child body (by simp [Arena.children])) fun outcome leavable => ?_
    cases outcome with
    | ok value => exact nodes id allowed
    | error interrupt =>
      by_cases left : interrupt = .leaving exit
      · simp only [left, if_true]
        exact follows_pure _
      · simp only [left, if_false]
        exact follows_throw fun label same => leavable label (by rw [same])
  | breakTo label =>
    refine follows_throw fun other same => ?_
    obtain rfl := Interrupt.leaving.inj same
    exact mayLeave label rfl
  | tryFinally body cleanup =>
    refine follows_attempt (child body (by simp [Arena.children])) fun outcome leavable => ?_
    refine follows_bind (child cleanup (by simp [Arena.children])) fun _ => ?_
    cases outcome with
    | ok value => exact follows_pure value
    | error interrupt => exact follows_throw fun label same => leavable label (by rw [same])
  | lambda => exact follows_throw fun label same => by cases same

/-- A node that is there is evaluated as what it is. -/
theorem evaluate_of_kind {id : NodeId} {kind : NodeKind} (known : program.arena.kind id = .ok kind)
    (bound : Nat) :
    program.evaluate (bound + 1) id = program.evaluateNode (program.evaluate bound) id kind := by
  rw [evaluate, known]
  rfl

/-- A function is called in a scope of its own if there are as many arguments as parameters. -/
theorem invoke_of_kind {function body : NodeId} {parameters : ListRange}
    (known : program.arena.kind function = .ok (.lambda parameters body)) (arguments : List Value)
    (bound : Nat) :
    program.invoke bound function arguments =
      if (program.arena.list parameters).length ≠ arguments.length then
        throw (.argumentCount (program.arena.list parameters).length arguments.length)
      else Evaluation.finish (Evaluation.inScope do
        bindParameters (program.arena.list parameters) arguments
        program.evaluate bound body) := by
  rw [invoke, known]
  rfl

/-- A function with as many parameters as there are arguments is called in a scope of its own. -/
theorem invoke_of_lambda {function body : NodeId} {parameters : List NodeId}
    {arguments : List Value} (isLambda : program.arena.IsLambda function parameters body)
    (counted : parameters.length = arguments.length) (bound : Nat) :
    program.invoke bound function arguments = Evaluation.finish (Evaluation.inScope do
      bindParameters parameters arguments
      program.evaluate bound body) := by
  obtain ⟨range, known, held⟩ := isLambda
  rw [invoke_of_kind known, held.list, if_neg (by simpa using counted)]

/-- A node that is evaluated is there. -/
theorem kind_of_evaluate {bound : Nat} {id : NodeId} {before after : Machine}
    {result : Except Interrupt Value}
    (ended : program.evaluate (bound + 1) id before = .ok (result, after)) :
    ∃ kind, program.arena.kind id = .ok kind := by
  cases known : program.arena.kind id with
  | ok kind => exact ⟨kind, rfl⟩
  | error stop =>
    rw [evaluate, known] at ended
    cases ended

/-- A tree that obeys a discipline is evaluated within it, and in the same way within every larger
bound. -/
theorem evaluate_follows {root : NodeId} {small large : Nat} (within : small ≤ large)
    (allowed : discipline.Allows program.arena root) :
    discipline.Follows (program.evaluate small root) (program.evaluate large root) := by
  induction small generalizing large root with
  | zero =>
    intro before result after ended
    cases ended
  | succ small ih =>
    obtain ⟨more, rfl⟩ : ∃ more, large = more + 1 := ⟨large - 1, by omega⟩
    have inside : small ≤ more := by omega
    intro before result after ended
    obtain ⟨kind, known⟩ := kind_of_evaluate ended
    rw [evaluate_of_kind known] at ended ⊢
    exact evaluateNode_follows allowed known (fun node => ih inside) _ _ _ ended

/-- A bound that suffices may be exceeded. -/
theorem evaluate_mono {root : NodeId} {small large : Nat} (within : small ≤ large)
    {before after : Machine} {result : Except Interrupt Value}
    (ended : program.evaluate small root before = .ok (result, after)) :
    program.evaluate large root before = .ok (result, after) :=
  (evaluate_follows within (allows_free program.arena root) _ _ _ ended).1

end Program

/-- Whether a binding has a value. -/
def Environment.HasValue (environment : Environment) (binding : NodeId) : Prop :=
  ∃ value, environment.lookup binding = .ok value

/-- A binding has a value if it has one in the innermost scope that declares it. -/
theorem Environment.hasValue_iff {environment : Environment} {binding : NodeId} :
    environment.HasValue binding ↔
      (environment.scopes.findSome? fun scope => scope.find? binding).join.isSome := by
  unfold HasValue lookup
  cases environment.scopes.findSome? fun scope => scope.find? binding with
  | none => simp
  | some known => cases known <;> simp

namespace Discipline

/-- The discipline that leaves a binding as it is and only leaves loops of some labels. -/
def sparing (binding : NodeId) (leavable : Label → Prop) : Discipline where
  keeps before after := after.find? binding = before.find? binding
  refl _ := rfl
  trans earlier later := later.trans earlier
  writable target := target ≠ binding
  put scope _ value different _ :=
    Scope.find?_put_of_ne scope (some value) (Ne.symm different)
  leavable := leavable

/-- A tree that never assigns a binding and never breaks to other labels spares both. -/
theorem allows_sparing {arena : Arena} {root binding : NodeId} {leavable : Label → Prop}
    (unassigned : arena.NeverAssigns root binding)
    (unbroken : ∀ label, ¬ leavable label → arena.NeverBreaks root label) :
    (sparing binding leavable).Allows arena root := by
  intro id kind reached known
  constructor
  · rintro target assigned rfl
    exact unassigned id kind reached known assigned
  · rintro label rfl
    by_contra kept
    exact unbroken label kept id reached known

/-- Scopes that all know the same of a binding give it the same value. -/
theorem lookup_of_keeps_sparing {binding : NodeId} {leavable : Label → Prop}
    {before after : Environment} (kept : (sparing binding leavable).Keeps before after) :
    after.lookup binding = before.lookup binding := by
  have same : after.scopes.findSome? (fun scope => scope.find? binding) =
      before.scopes.findSome? fun scope => scope.find? binding := by
    unfold Keeps at kept
    generalize before.scopes = initial at kept ⊢
    generalize after.scopes = final at kept ⊢
    induction kept with
    | nil => rfl
    | cons step _ ih => rw [List.findSome?_cons, List.findSome?_cons, step, ih]
  rw [Environment.lookup, Environment.lookup, same]

/-- The discipline that allows everything, and under which declared bindings stay declared and
bindings that have a value keep having one. -/
def lasting : Discipline where
  keeps before after := ∀ binding, after.declares binding = before.declares binding ∧
    ((before.find? binding).join.isSome → (after.find? binding).join.isSome)
  refl _ _ := ⟨rfl, id⟩
  trans earlier later binding :=
    ⟨(later binding).1.trans (earlier binding).1, (later binding).2 ∘ (earlier binding).2⟩
  writable _ := True
  put scope target value _ declared binding := by
    by_cases same : binding = target
    · subst same
      rw [declared, Scope.declares, Scope.find?_put_self]
      exact ⟨rfl, fun _ => rfl⟩
    · rw [Scope.declares, Scope.declares, Scope.find?_put_of_ne _ _ same]
      exact ⟨rfl, id⟩
  leavable _ := True

/-- Every tree obeys the discipline that allows everything. -/
theorem allows_lasting (arena : Arena) (root : NodeId) : lasting.Allows arena root :=
  fun _ _ _ _ => ⟨fun _ _ => trivial, fun _ _ => trivial⟩

/-- A binding that has a value keeps having one. -/
theorem hasValue_of_keeps_lasting {binding : NodeId} {before after : Environment}
    (kept : lasting.Keeps before after) (assigned : before.HasValue binding) :
    after.HasValue binding := by
  unfold Keeps at kept
  rw [Environment.hasValue_iff] at assigned ⊢
  generalize before.scopes = initial at kept assigned
  generalize after.scopes = final at kept ⊢
  induction kept with
  | nil => cases assigned
  | @cons scope changed _ _ step _ ih =>
    obtain ⟨declared, lasts⟩ := step binding
    rw [List.findSome?_cons] at assigned ⊢
    cases known : scope.find? binding with
    | none =>
      have unknown : changed.find? binding = none := by
        simpa [Scope.declares, known] using declared
      rw [known] at assigned
      rw [unknown]
      exact ih assigned
    | some value =>
      rw [known] at assigned
      have kept := lasts (by rw [known]; exact assigned)
      cases found : changed.find? binding with
      | none =>
        rw [found] at kept
        cases kept
      | some other =>
        rw [found] at kept
        exact kept

end Discipline

namespace Program

variable {program : Program}

/-- Evaluation of a tree that never assigns a binding leaves its value. -/
theorem lookup_of_evaluate {root binding : NodeId} {bound : Nat}
    (unassigned : program.arena.NeverAssigns root binding) {before after : Machine}
    {result : Except Interrupt Value}
    (ended : program.evaluate bound root before = .ok (result, after)) :
    after.environment.lookup binding = before.environment.lookup binding := by
  have spared : (Discipline.sparing binding fun _ => True).Allows program.arena root :=
    Discipline.allows_sparing unassigned fun _ impossible => absurd trivial impossible
  obtain ⟨-, kept, -⟩ := evaluate_follows (Nat.le_refl bound) spared _ _ _ ended
  exact Discipline.lookup_of_keeps_sparing kept

/-- Evaluation of a tree that never assigns a binding and never breaks to a label spares both. -/
theorem evaluate_spares {root binding : NodeId} {label : Label}
    (unassigned : program.arena.NeverAssigns root binding)
    (unbroken : program.arena.NeverBreaks root label) {small large : Nat} (within : small ≤ large) :
    (Discipline.sparing binding (· ≠ label)).Follows (program.evaluate small root)
      (program.evaluate large root) := by
  refine evaluate_follows within (Discipline.allows_sparing unassigned ?_)
  rintro other same
  rw [not_not.mp same]
  exact unbroken

end Program

end Foreach
