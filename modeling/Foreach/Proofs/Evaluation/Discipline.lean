import Mathlib.Data.List.Forall2
import Foreach.Proofs.Evaluation.Actions
import Foreach.Proofs.Tree.Reach

/-!
# What evaluation leaves alone

A discipline says what a tree may do to the outside: which bindings it may assign, which loops it
may leave, and what an assignment does to a scope. Two things are shown of a tree that obeys a
discipline (`Discipline.Allows`), together, because they go by the same induction on the bound of
the evaluation:

* evaluation keeps to the discipline, whatever the native bodies do and however it ends;
* evaluation within a larger bound ends in the same way.

Scopes are compared one by one from the inside outwards, so that the scopes of a block, which come
and go during its evaluation, do not matter to what is outside.
-/
namespace Foreach

/-- What a tree may do to the outside. -/
structure Discipline where
  /-- What may become of a scope. -/
  keeps : Scope → Scope → Prop
  /-- A scope may stay. -/
  refl : ∀ scope, keeps scope scope
  /-- What may become of what a scope may become, may become of the scope. -/
  trans : ∀ {first second third}, keeps first second → keeps second third → keeps first third
  /-- The bindings that may be assigned. -/
  writable : NodeId → Prop
  /-- An assignment is something that may become of a scope. -/
  put : ∀ (scope : Scope) (binding : NodeId) (value : Value), writable binding →
    scope.declares binding = true → keeps scope (scope.put binding (some value))
  /-- The labels whose loops may be left. -/
  leavable : Label → Prop

namespace Discipline

variable {α β : Type}

/-- The discipline that allows everything. -/
def free : Discipline where
  keeps _ _ := True
  refl _ := trivial
  trans _ _ := trivial
  writable _ := True
  put _ _ _ _ _ := trivial
  leavable _ := True

/-- Every scope has become what it may become. -/
def Keeps (discipline : Discipline) (before after : Environment) : Prop :=
  List.Forall₂ discipline.keeps before.scopes after.scopes

/-- No node of a tree assigns or leaves what it may not. -/
def Allows (discipline : Discipline) (arena : Arena) (root : NodeId) : Prop :=
  ∀ id kind, arena.Reaches root id → arena.kind id = .ok kind →
    (∀ target, kind.target? = some target → discipline.writable target) ∧
      ∀ label, kind = .breakTo label → discipline.leavable label

/-- How one evaluation ends, another ends as well, and it keeps to the discipline. -/
def Follows (discipline : Discipline) (work spec : Evaluation α) : Prop :=
  ∀ before result after, work before = .ok (result, after) →
    spec before = .ok (result, after) ∧ discipline.Keeps before.environment after.environment ∧
      ∀ label, result = .error (.leaving label) → discipline.leavable label

variable {discipline : Discipline}

/-- The children of a tree are allowed what the tree is allowed. -/
theorem Allows.child {arena : Arena} {parent child : NodeId} {kind : NodeKind}
    (allowed : discipline.Allows arena parent) (known : arena.kind parent = .ok kind)
    (listed : child ∈ arena.children kind) : discipline.Allows arena child :=
  fun id found reached => allowed id found (.child known listed reached)

/-- The free discipline allows every tree. -/
theorem allows_free (arena : Arena) (root : NodeId) : free.Allows arena root :=
  fun _ _ _ _ => ⟨fun _ _ => trivial, fun _ _ => trivial⟩

/-- Scopes may stay. -/
theorem keeps_refl (environment : Environment) : discipline.Keeps environment environment :=
  List.forall₂_same.mpr fun scope _ => discipline.refl scope

/-- What becomes of scopes in two steps may become of them. -/
theorem keeps_trans {first second third : Environment} (earlier : discipline.Keeps first second)
    (later : discipline.Keeps second third) : discipline.Keeps first third := by
  unfold Keeps at *
  generalize first.scopes = initial at *
  generalize second.scopes = middle at *
  generalize third.scopes = final at *
  induction earlier generalizing final with
  | nil => exact later
  | cons step _ ih =>
    cases later with
    | cons next rest => exact .cons (discipline.trans step next) (ih _ rest)

/-- An assignment somewhere in a list of scopes keeps to the discipline. -/
theorem keeps_assignIn {binding : NodeId} (allowed : discipline.writable binding) {value : Value}
    {scopes written : List Scope}
    (assigned : Environment.assignIn binding value scopes = some written) :
    List.Forall₂ discipline.keeps scopes written := by
  induction scopes generalizing written with
  | nil => cases assigned
  | cons scope rest ih =>
    unfold Environment.assignIn at assigned
    split at assigned
    case isTrue declared =>
      cases assigned
      exact .cons (discipline.put _ _ _ allowed declared)
        (List.forall₂_same.mpr fun other _ => discipline.refl other)
    case isFalse =>
      obtain ⟨others, found, rfl⟩ := Option.map_eq_some_iff.mp assigned
      exact .cons (discipline.refl _) (ih found)

/-- An assignment to a binding that may be assigned keeps to the discipline. -/
theorem keeps_assign {binding : NodeId} (allowed : discipline.writable binding) {value : Value}
    {before after : Environment} (assigned : before.assign binding value = .ok after) :
    discipline.Keeps before after := by
  unfold Environment.assign at assigned
  split at assigned
  case isTrue declared =>
    cases assigned
    exact .cons (discipline.put _ _ _ allowed declared)
      (List.forall₂_same.mpr fun other _ => discipline.refl other)
  case isFalse =>
    split at assigned
    case h_1 enclosing found =>
      cases assigned
      exact .cons (discipline.refl _) (keeps_assignIn allowed found)
    case h_2 => cases assigned

/-- What becomes of the outer scopes while an inner one is there is what becomes of them after the
inner one is left. -/
theorem keeps_pop {inner : Scope} {outer after : Environment}
    (kept : discipline.Keeps ⟨inner, outer.scopes⟩ after) : discipline.Keeps outer after.pop := by
  obtain ⟨current, enclosing⟩ := after
  obtain ⟨-, rest⟩ := List.forall₂_cons.mp kept
  cases enclosing with
  | nil => cases rest
  | cons next others => exact rest

/-- An evaluation that touches no scope and leaves no loop keeps to every discipline. -/
theorem follows_steady {work : Evaluation α}
    (steady : ∀ before result after, work before = .ok (result, after) →
      after.environment = before.environment ∧ ∀ label, result ≠ .error (.leaving label)) :
    discipline.Follows work work := by
  intro before result after ended
  obtain ⟨same, stays⟩ := steady before result after ended
  refine ⟨ended, ?_, fun label left => absurd left (stays label)⟩
  rw [same]
  exact keeps_refl _

/-- Evaluations in sequence follow one another part by part. -/
theorem follows_bind {work spec : Evaluation α} {next specNext : α → Evaluation β}
    (first : discipline.Follows work spec)
    (rest : ∀ value, discipline.Follows (next value) (specNext value)) :
    discipline.Follows (work >>= next) (spec >>= specNext) := by
  intro before result after ended
  obtain ⟨value, middle, head, tail⟩ | ⟨interrupt, head, rfl⟩ := Work.failing_bind_eq_ok.mp ended
  · obtain ⟨specHead, keptHead, -⟩ := first _ _ _ head
    obtain ⟨specTail, keptTail, left⟩ := rest value _ _ _ tail
    exact ⟨Work.failing_bind_eq_ok.mpr (.inl ⟨value, middle, specHead, specTail⟩),
      keeps_trans keptHead keptTail, left⟩
  · obtain ⟨specHead, kept, left⟩ := first _ _ _ head
    refine ⟨Work.failing_bind_eq_ok.mpr (.inr ⟨interrupt, specHead, rfl⟩), kept, ?_⟩
    intro label same
    exact left label (by rw [Except.error.inj same])

/-- What comes after an attempt follows for every end of the attempt that may be. -/
theorem follows_attempt {work spec : Evaluation α}
    {next specNext : Except Interrupt α → Evaluation β} (first : discipline.Follows work spec)
    (rest : ∀ outcome, (∀ label, outcome = .error (.leaving label) → discipline.leavable label) →
      discipline.Follows (next outcome) (specNext outcome)) :
    discipline.Follows (Evaluation.attempt work >>= next)
      (Evaluation.attempt spec >>= specNext) := by
  intro before result after ended
  obtain ⟨outcome, middle, head, tail⟩ := Evaluation.attempt_bind_eq_ok.mp ended
  obtain ⟨specHead, keptHead, leavable⟩ := first _ _ _ head
  obtain ⟨specTail, keptTail, left⟩ := rest outcome leavable _ _ _ tail
  exact ⟨Evaluation.attempt_bind_eq_ok.mpr ⟨outcome, middle, specHead, specTail⟩,
    keeps_trans keptHead keptTail, left⟩

/-- A value alone follows itself. -/
theorem follows_pure (value : α) :
    discipline.Follows (pure value : Evaluation α) (pure value) := by
  refine follows_steady fun before result after ended => ?_
  cases ended
  exact ⟨rfl, by simp⟩

/-- An interrupt follows itself if it leaves no loop that may not be left. -/
theorem follows_throw {interrupt : Interrupt}
    (leavable : ∀ label, interrupt = .leaving label → discipline.leavable label) :
    discipline.Follows (throw interrupt : Evaluation α) (throw interrupt) := by
  intro before result after ended
  cases ended
  exact ⟨rfl, keeps_refl _, fun label same => leavable label (Except.error.inj same)⟩

/-- A given result follows itself. -/
theorem follows_given (given : Except EvaluationError α) :
    discipline.Follows (Evaluation.given given) (Evaluation.given given) := by
  refine follows_steady fun before result after ended => ?_
  obtain ⟨rfl, rfl⟩ := Evaluation.given_eq_ok.mp ended
  cases given <;> simp

/-- Reading a binding follows itself. -/
theorem follows_read (program : Program) (binding : NodeId) :
    discipline.Follows (program.read binding) (program.read binding) :=
  follows_steady fun _ _ _ ended =>
    have ⟨same, stays⟩ := Program.read_steady ended
    ⟨by rw [same], stays⟩

/-- A call of a member follows itself. -/
theorem follows_callMember (program : Program) (receiver : Value) (member : MemberId)
    (arguments : List Value) :
    discipline.Follows (program.callMember receiver member arguments)
      (program.callMember receiver member arguments) :=
  follows_steady fun _ _ _ => Program.callMember_steady

/-- An assignment to a binding that may be assigned follows itself. -/
theorem follows_write (program : Program) {binding : NodeId}
    (allowed : discipline.writable binding) (value : Value) :
    discipline.Follows (program.write binding value) (program.write binding value) := by
  intro before result after ended
  refine ⟨ended, ?_⟩
  obtain ⟨environment, assigned, rfl, rfl⟩ | ⟨_, _, -, -, rfl, rfl⟩ := Program.write_eq_ok.mp ended
  · exact ⟨keeps_assign allowed assigned, by simp⟩
  · exact ⟨keeps_refl _, by simp⟩

/-- Evaluations of a list of arguments follow one another if those of each argument do. -/
theorem follows_mapM {work spec : NodeId → Evaluation Value} {ids : List NodeId}
    (each : ∀ id ∈ ids, discipline.Follows (work id) (spec id)) :
    discipline.Follows (ids.mapM work) (ids.mapM spec) := by
  induction ids with
  | nil => exact follows_pure []
  | cons id rest ih =>
    rw [List.mapM_cons, List.mapM_cons]
    refine follows_bind (each id (by simp)) fun value => ?_
    refine follows_bind (ih fun other listed => each other (by simp [listed])) fun values => ?_
    exact follows_pure _

/-- Evaluations of a list of statements follow one another if those of each statement do. -/
theorem follows_runAll {work spec : NodeId → Evaluation Value} {ids : List NodeId}
    (each : ∀ id ∈ ids, discipline.Follows (work id) (spec id)) (last : Value) :
    discipline.Follows (Program.runAll work last ids) (Program.runAll spec last ids) := by
  induction ids generalizing last with
  | nil => exact follows_pure last
  | cons id rest ih =>
    refine follows_bind (each id (by simp)) fun value => ?_
    exact ih (fun other listed => each other (by simp [listed])) value

/-- What happens in a scope of its own with bindings of its own follows what happens there. -/
theorem follows_inScope {work spec : Evaluation α} (locals : List NodeId)
    (inner : discipline.Follows work spec) :
    discipline.Follows (Evaluation.inScope do Program.declareAll locals; work)
      (Evaluation.inScope do Program.declareAll locals; spec) := by
  intro before result after ended
  obtain ⟨last, inside, rfl⟩ := Evaluation.inScope_eq_ok.mp ended
  have declared : Program.declareAll locals before.enter = _ := Program.declareAll_apply locals
  rw [Work.failing_bind_of_ok declared] at inside
  obtain ⟨specInside, kept, left⟩ := inner _ _ _ inside
  obtain ⟨scope, opened⟩ := Machine.scopes_declareAll_enter before locals
  rw [opened] at kept
  refine ⟨Evaluation.inScope_eq_ok.mpr ⟨last, ?_, rfl⟩, keeps_pop kept, left⟩
  rw [Work.failing_bind_of_ok declared]
  exact specInside

end Discipline

end Foreach
