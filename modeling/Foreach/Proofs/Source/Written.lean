import Foreach.Proofs.Source.Clauses
import Foreach.Proofs.Source.Pieces

/-!
# How nodes are written

The text of a node is made of the texts of its parts, and so are the lines of a statement. `Reads`
and `Shows` say what a node is written as once nesting is allowed deep enough; there is one lemma
for each kind of node that says it of the node if it is known of its parts.
-/
namespace Foreach

namespace Source

/-- A node is written inside a line as a text, at every depth from some on. -/
def Reads (registry : Registry) (arena : Arena) (depth : Nat) (id : NodeId) (text : String) :
    Prop :=
  ∀ deep, depth ≤ deep → expression registry arena deep id = .ok text

/-- A statement is written as the same lines at each level, at every depth from some on, and
introduces no variable. -/
def Shows (registry : Registry) (arena : Arena) (depth : Nat) (id : NodeId)
    (lines : Nat → List Line) : Prop :=
  ∀ deep, depth ≤ deep → ∀ level pending,
    statement registry arena deep level id pending = .ok (lines level, pending)

variable {registry : Registry} {arena : Arena} {depth : Nat} {id : NodeId}

/-- A text at some depth is the text at all greater ones. -/
theorem Reads.deeper {more : Nat} {text : String} (reads : Reads registry arena depth id text)
    (greater : depth ≤ more) : Reads registry arena more id text :=
  fun deep enough => reads deep (Nat.le_trans greater enough)

/-- The lines at some depth are the lines at all greater ones. -/
theorem Shows.deeper {more : Nat} {lines : Nat → List Line}
    (shows : Shows registry arena depth id lines) (greater : depth ≤ more) :
    Shows registry arena more id lines :=
  fun deep enough => shows deep (Nat.le_trans greater enough)

section Expressions

variable {first second : NodeId} {left right : String}

/-- A node without parts is written as its word. -/
theorem Reads.word {kind : NodeKind} {text : String} (known : arena.kind id = .ok kind)
    (isWord : word? kind = some text) : Reads registry arena 1 id text := by
  rintro (_ | deep) enough
  · cases enough
  · exact (expression_of_word known isWord).mpr rfl

/-- A node with a sign is written with the sign between its parts. -/
theorem Reads.signed {kind : NodeKind} {sign : String} (known : arena.kind id = .ok kind)
    (isSigned : sign? kind = some (first, sign, second))
    (before : Reads registry arena depth first left)
    (after : Reads registry arena depth second right) :
    Reads registry arena (depth + 1) id (left ++ sign ++ right) := by
  rintro (_ | deep) enough
  · cases enough
  · have enough := Nat.le_of_succ_le_succ enough
    exact (expression_of_sign known isSigned).mpr
      ⟨left, right, before deep enough, after deep enough, rfl⟩

/-- A conversion is written with the name of its type in front. -/
theorem Reads.convert {type : TypeId} {name : String} {kind : NodeKind}
    (known : arena.kind id = .ok (.convert first)) (typed : arena.typeOf id = .ok type)
    (named : registry.displayName type = .ok name) (operand : arena.kind first = .ok kind)
    (reads : Reads registry arena depth first left) :
    Reads registry arena (depth + 1) id ("(" ++ name ++ ")" ++ operandText kind left) := by
  rintro (_ | deep) enough
  · cases enough
  · exact (expression_of_convert known typed).mpr
      ⟨name, left, kind, named, reads deep (Nat.le_of_succ_le_succ enough), operand, rfl⟩

/-- A property is written behind what it is read of. -/
theorem Reads.property {property : MemberId} {entry : MemberEntry} {kind : NodeKind}
    (known : arena.kind id = .ok (.property first property))
    (named : registry.member? property = some entry) (receiver : arena.kind first = .ok kind)
    (reads : Reads registry arena depth first left) :
    Reads registry arena (depth + 1) id (operandText kind left ++ "." ++ entry.name) := by
  rintro (_ | deep) enough
  · cases enough
  · exact (expression_of_property known).mpr
      ⟨left, kind, entry, reads deep (Nat.le_of_succ_le_succ enough), receiver, named, rfl⟩

/-- A call without arguments is written behind what it is made on. -/
theorem Reads.call {method : MemberId} {entry : MemberEntry} {kind : NodeKind}
    (known : arena.IsCall id first method [])
    (named : registry.member? method = some entry) (receiver : arena.kind first = .ok kind)
    (reads : Reads registry arena depth first left) :
    Reads registry arena (depth + 1) id
      (operandText kind left ++ "." ++ entry.name ++ "(" ++ "" ++ ")") := by
  obtain ⟨range, isCall, held⟩ := known
  rintro (_ | deep) enough
  · cases enough
  · exact (expression_of_call isCall).mpr ⟨[], left, kind, entry, by rw [held.list]; rfl,
      reads deep (Nat.le_of_succ_le_succ enough), receiver, named, rfl⟩

end Expressions

section Statements

variable {condition body other : NodeId} {text : String} {lines otherLines : Nat → List Line}

/-- A statement under a condition stands in braces one level deeper. -/
theorem Shows.ifThen (known : arena.kind id = .ok (.ifThen condition body))
    (reads : Reads registry arena depth condition text)
    (shows : Shows registry arena depth body lines) :
    Shows registry arena (depth + 1) id fun level =>
      ⟨level, "if (" ++ text ++ ")"⟩ :: braced level (lines (level + 1)) := by
  rintro (_ | deep) enough level pending
  · cases enough
  · have enough := Nat.le_of_succ_le_succ enough
    exact (statement_of_ifThen known).mpr
      ⟨text, _, reads deep enough, shows deep enough (level + 1) pending, rfl⟩

/-- Both branches of a condition stand in braces one level deeper. -/
theorem Shows.ifThenElse (known : arena.kind id = .ok (.ifThenElse condition body other))
    (reads : Reads registry arena depth condition text)
    (shows : Shows registry arena depth body lines)
    (otherShows : Shows registry arena depth other otherLines) :
    Shows registry arena (depth + 1) id fun level =>
      ⟨level, "if (" ++ text ++ ")"⟩ :: braced level (lines (level + 1)) ++
        ⟨level, "else"⟩ :: braced level (otherLines (level + 1)) := by
  rintro (_ | deep) enough level pending
  · cases enough
  · have enough := Nat.le_of_succ_le_succ enough
    exact (statement_of_ifThenElse known).mpr ⟨text, _, pending, _, reads deep enough,
      shows deep enough (level + 1) pending, otherShows deep enough (level + 1) pending, rfl⟩

/-- The body of a loop stands in braces one level deeper. -/
theorem Shows.loop {exit : Label} (known : arena.kind id = .ok (.loop body exit))
    (shows : Shows registry arena depth body lines) :
    Shows registry arena (depth + 1) id fun level =>
      ⟨level, "while (true)"⟩ :: braced level (lines (level + 1)) := by
  rintro (_ | deep) enough level pending
  · cases enough
  · exact (statement_of_loop known).mpr
      ⟨_, shows deep (Nat.le_of_succ_le_succ enough) (level + 1) pending, rfl⟩

/-- The end of a loop is a line. -/
theorem Shows.breakTo {exit : Label} (known : arena.kind id = .ok (.breakTo exit)) :
    Shows registry arena 1 id fun level => [⟨level, "break;"⟩] := by
  rintro (_ | deep) enough level pending
  · cases enough
  · exact (statement_of_breakTo known).mpr ⟨rfl, rfl⟩

/-- A statement and its cleanup stand in braces one level deeper. -/
theorem Shows.tryFinally (known : arena.kind id = .ok (.tryFinally body other))
    (shows : Shows registry arena depth body lines)
    (otherShows : Shows registry arena depth other otherLines) :
    Shows registry arena (depth + 1) id fun level =>
      ⟨level, "try"⟩ :: braced level (lines (level + 1)) ++
        ⟨level, "finally"⟩ :: braced level (otherLines (level + 1)) := by
  rintro (_ | deep) enough level pending
  · cases enough
  · have enough := Nat.le_of_succ_le_succ enough
    exact (statement_of_tryFinally known).mpr ⟨_, pending, _,
      shows deep enough (level + 1) pending, otherShows deep enough (level + 1) pending, rfl⟩

/-- An expression that introduces nothing is a line. -/
theorem Shows.expression {kind : NodeKind} (known : arena.kind id = .ok kind)
    (isWritten : isExpression kind = true) (plain : ∀ target value, kind ≠ .assign target value)
    (reads : Reads registry arena depth id text) :
    Shows registry arena (depth + 1) id fun level => [⟨level, text ++ ";"⟩] := by
  rintro (_ | deep) enough level pending
  · cases enough
  · exact (statement_of_expression known isWritten plain).mpr
      ⟨text, reads deep (Nat.le_of_succ_le_succ enough), rfl, rfl⟩

/-- The first assignment to a variable introduces it. -/
theorem statement_introduces {target value : NodeId} {deep level : Nat} {pending : List NodeId}
    (known : arena.kind id = .ok (.assign target value))
    (reads : Reads registry arena depth id text) (enough : depth + 1 ≤ deep)
    (isPending : target ∈ pending) :
    statement registry arena deep level id pending =
      .ok ([⟨level, "var " ++ text ++ ";"⟩], pending.filter (· ≠ target)) := by
  cases deep with
  | zero => cases enough
  | succ deep =>
    exact (statement_of_assign known).mpr
      ⟨text, reads deep (Nat.le_of_succ_le_succ enough), .inl ⟨isPending, rfl, rfl⟩⟩

end Statements

section Blocks

variable {writes : NodeId → Checked String} {level : Nat} {statements pending : List NodeId}

/-- A test of a node is a test of its kind. -/
theorem isKind_eq {node : Node} (test : NodeKind → Bool) (found : arena.node? id = some node) :
    isKind arena test id = test node.kind := by
  rw [isKind, found]

/-- One of some statements is found to assign to a variable, or none is. -/
theorem anyM_assignsTo (known : ∀ statement ∈ statements, ∃ kind, arena.kind statement = .ok kind)
    (binding : NodeId) (pending : List NodeId) :
    (statements.anyM fun statement => do
      return isAssignmentTo binding (← arena.kind statement) : Writing Bool) pending =
      .ok (assignsTo arena statements binding, pending) := by
  induction statements with
  | nil => rfl
  | cons next rest ih =>
    obtain ⟨kind, isNext⟩ := known next List.mem_cons_self
    obtain ⟨node, found, sort⟩ := Arena.kind_eq_ok.mp isNext
    have asked : (do return isAssignmentTo binding (← arena.kind next) : Writing Bool) pending =
        .ok (isAssignmentTo binding kind, pending) :=
      Work.bind_eq_ok.mpr ⟨_, _, Work.lift_eq_ok.mpr ⟨isNext, rfl⟩, rfl⟩
    rw [List.anyM, assignsTo, List.any_cons, isKind_eq (isAssignmentTo binding) found, sort]
    refine Work.bind_eq_ok.mpr ⟨_, _, asked, ?_⟩
    cases isAssignmentTo binding kind with
    | true => rfl
    | false => exact ih fun statement isListed => known statement (List.mem_cons_of_mem _ isListed)

/-- Variables that statements of the block assign to are all left to be introduced there. -/
theorem introductions_assigned {locals : List NodeId}
    (known : ∀ statement ∈ statements, ∃ kind, arena.kind statement = .ok kind)
    (assigned : ∀ binding ∈ locals, ∃ statement ∈ statements, ∃ value,
      arena.kind statement = .ok (.assign binding value)) :
    introductions registry arena writes level statements locals pending =
      .ok ([], locals.reverse ++ pending) := by
  induction locals generalizing pending with
  | nil => rfl
  | cons binding rest ih =>
    obtain ⟨statement, isListed, value, isAssigned⟩ := assigned binding List.mem_cons_self
    obtain ⟨node, found, sort⟩ := Arena.kind_eq_ok.mp isAssigned
    have isFound : assignsTo arena statements binding = true :=
      List.any_eq_true.mpr ⟨statement, isListed, by
        rw [isKind_eq _ found, sort]
        exact decide_eq_true rfl⟩
    refine Work.bind_eq_ok.mpr ⟨_, _, anyM_assignsTo known binding pending, ?_⟩
    rw [isFound]
    refine Work.bind_eq_ok.mpr ⟨(), _, Work.modify_eq_ok.mpr rfl, ?_⟩
    have later := @ih (binding :: pending)
      fun other isListed => assigned other (List.mem_cons_of_mem _ isListed)
    rw [List.reverse_cons, List.append_assoc]
    exact later

end Blocks

end Source

end Foreach
