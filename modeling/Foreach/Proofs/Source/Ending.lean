import Foreach.Proofs.Ending
import Foreach.Proofs.Tree.Reach
import Foreach.Source.Writing

/-!
# Writing ends

The text of a node is put together from the texts of its children. If children are always older than
the node, as in every arena that is built, writing goes from younger nodes to older ones, so it ends
within the bound on nesting, whatever the nodes are about: also if a type or a member is not
registered, and also for a handle that no node has.
-/
namespace Foreach.Source

open Work

variable {registry : Registry} {arena : Arena} {depth level : Nat} {id : NodeId} {node : Node}

/-- Writing of a node ends, inside a line and as a statement. -/
structure Ends (registry : Registry) (arena : Arena) (depth : Nat) (id : NodeId) : Prop where
  /-- Its text inside a line ends. -/
  plain : (expression registry arena depth id).Ends
  /-- Its lines end. -/
  stated : ∀ level, Work.Ends (statement registry arena depth level id)

/-- Putting an operand in parentheses ends. -/
theorem operand_ends (arena : Arena) (id : NodeId) (text : String) :
    (operand arena id text).Ends :=
  (arena.kind_ends id).bind fun _ _ => Checked.ends_ok _

/-- Laying out lines ends. -/
theorem lines_ends (written : IndentedText) (lines : List Line) : (written.lines lines).Ends :=
  Checked.ends_foldlM fun _ _ =>
    ((Checked.ends_require _).bind fun _ _ => Checked.ends_ok _).bind fun _ _ => Checked.ends_ok _

/-- Putting lines into one line ends. -/
theorem inlined_ends (lines : List Line) : (inlined lines).Ends :=
  (lines_ends _ _).bind fun _ _ => Checked.ends_ok _

/-- Writing a node ends if there is none. -/
theorem ends_of_missing (missing : arena.node? id = none) : Ends registry arena (depth + 1) id where
  plain := by
    have unknown : arena.node id = .error .violation := by rw [Arena.node, missing]; rfl
    rw [expression, unknown]
    exact Checked.ends_violation
  stated level := by
    have unknown : arena.kind id = .error .violation := by
      rw [Arena.kind, Arena.node, missing]
      rfl
    rw [statement, unknown]
    exact fun _ => Checked.ends_violation

/-- The text of an expression ends if the texts of its children do. -/
theorem expression_ends (closed : registry.Closed) (found : arena.node? id = some node)
    (isPlain : isExpression node.kind = true)
    (parts : ∀ child ∈ arena.children node.kind, (expression registry arena depth child).Ends) :
    (expression registry arena (depth + 1) id).Ends := by
  have isNode : arena.node id = .ok node := Checked.ofOption_eq_ok.mpr found
  refine Checked.Ends.bind (arena.node_ends id) fun _ same => ?_
  cases isNode.symm.trans same
  obtain ⟨kind, type⟩ := node
  have part (child : NodeId) (isChild : child ∈ arena.children kind) :
      (expression registry arena depth child).Ends := parts child isChild
  cases kind with
  | parameter | var | int | bool | null => exact Checked.ends_ok _
  | assign target value | addAssign target value =>
    refine (part target (by simp [Arena.children])).bind fun _ _ => ?_
    exact (part value (by simp [Arena.children])).bind fun _ _ => Checked.ends_ok _
  | call receiver method arguments =>
    refine (Checked.ends_mapM fun argument isListed =>
      part argument (by simp [Arena.children, isListed])).bind fun _ _ => ?_
    refine (part receiver (by simp [Arena.children])).bind fun _ _ => ?_
    refine (operand_ends arena receiver _).bind fun _ _ => ?_
    exact (registry.member_ends method).bind fun _ _ => Checked.ends_ok _
  | property receiver member =>
    refine (part receiver (by simp [Arena.children])).bind fun _ _ => ?_
    refine (operand_ends arena receiver _).bind fun _ _ => ?_
    exact (registry.member_ends member).bind fun _ _ => Checked.ends_ok _
  | convert value =>
    refine (closed.displayName_ends type).bind fun _ _ => ?_
    refine (part value (by simp [Arena.children])).bind fun _ _ => ?_
    exact (operand_ends arena value _).bind fun _ _ => Checked.ends_ok _
  | notEqual left right =>
    refine (part left (by simp [Arena.children])).bind fun _ _ => ?_
    exact (part right (by simp [Arena.children])).bind fun _ _ => Checked.ends_ok _
  | lambda parameters body =>
    refine (Checked.ends_mapM fun parameter isListed =>
      part parameter (by simp [Arena.children, isListed])).bind fun _ _ => ?_
    exact (part body (by simp [Arena.children])).bind fun _ _ => Checked.ends_ok _
  | _ => cases isPlain

/-- The lines that introduce variables end if the names of the variables do. -/
theorem introductions_ends (closed : registry.Closed) {name : NodeId → Checked String}
    (level : Nat) (statements : List NodeId) {locals : List NodeId}
    (names : ∀ binding ∈ locals, (name binding).Ends) :
    Work.Ends (introductions registry arena name level statements locals) := by
  induction locals with
  | nil => exact ends_pure []
  | cons binding rest ih =>
    obtain ⟨named, others⟩ := List.forall_mem_cons.mp names
    rw [introductions]
    refine (ends_anyM fun statement _ =>
      ends_lift_bind (arena.kind_ends statement) fun _ _ => ends_pure _).bind fun assigned => ?_
    cases assigned with
    | true => exact (ends_modify _).bind fun _ => ih others
    | false =>
      refine ends_lift_bind (arena.typeOf_ends binding) fun type _ => ?_
      refine ends_lift_bind (closed.displayName_ends type) fun _ _ => ?_
      refine ends_lift_bind named fun _ _ => ?_
      exact (ih others).bind fun _ => ends_pure _

/-- The lines of statements end if those of each do. -/
theorem statementLines_ends {text : NodeId → Checked String} {lines : NodeId → Writing (List Line)}
    (level : Nat) (yields : Bool) {statements : List NodeId}
    (each : ∀ statement ∈ statements, (text statement).Ends ∧ Work.Ends (lines statement)) :
    Work.Ends (sequence arena text lines level yields statements) := by
  induction statements with
  | nil => exact ends_pure []
  | cons next rest ih =>
    obtain ⟨⟨plain, stated⟩, others⟩ := List.forall_mem_cons.mp each
    cases rest with
    | nil =>
      rw [sequence]
      refine ends_lift_bind (arena.kind_ends next) fun kind _ => ?_
      split
      · exact ends_lift_bind plain fun _ _ => ends_pure _
      · exact stated
    | cons second more =>
      rw [sequence]
      · refine stated.bind fun _ => ?_
        refine ends_lift_bind (arena.kind_ends next) fun kind _ => ?_
        exact (ih others).bind fun _ => ends_pure _
      · exact nofun

/-- The lines of a block end if those of its children do. -/
theorem blockLines_ends (closed : registry.Closed) (level : Nat) (yields : Bool)
    {locals statements : List NodeId}
    (parts : ∀ child ∈ locals ++ statements, Ends registry arena depth child) :
    Work.Ends (blockLines registry arena (expression registry arena depth)
      (statement registry arena depth level) level yields locals statements) := by
  refine (introductions_ends closed level statements fun binding isLocal =>
    (parts binding (List.mem_append_left _ isLocal)).plain).bind fun _ => ?_
  refine (statementLines_ends level yields fun statement isListed =>
    have part := parts statement (List.mem_append_right _ isListed)
    ⟨part.plain, part.stated level⟩).bind fun _ => ends_pure _

/-- The lines of a statement end if its children do. -/
theorem statement_ends (closed : registry.Closed) (found : arena.node? id = some node)
    (notPlain : isExpression node.kind = false)
    (parts : ∀ child ∈ arena.children node.kind, Ends registry arena depth child) (level : Nat) :
    Work.Ends (statement registry arena (depth + 1) level id) := by
  have known : arena.kind id = .ok node.kind := Arena.kind_eq_ok.mpr ⟨node, found, rfl⟩
  refine ends_lift_bind (arena.kind_ends id) fun kind isKind => ?_
  cases known.symm.trans isKind
  have part (child : NodeId) (isChild : child ∈ arena.children node.kind) :
      Ends registry arena depth child := parts child isChild
  obtain ⟨kind, type⟩ := node
  cases kind with
  | block locals statements => exact blockLines_ends closed level false part
  | ifThen condition consequence =>
    refine ends_lift_bind (part condition (by simp [Arena.children])).plain fun _ _ => ?_
    exact ((part consequence (by simp [Arena.children])).stated _).bind fun _ => ends_pure _
  | ifThenElse condition consequence alternative =>
    refine ends_lift_bind (part condition (by simp [Arena.children])).plain fun _ _ => ?_
    refine ((part consequence (by simp [Arena.children])).stated _).bind fun _ => ?_
    exact ((part alternative (by simp [Arena.children])).stated _).bind fun _ => ends_pure _
  | loop body exit =>
    exact ((part body (by simp [Arena.children])).stated _).bind fun _ => ends_pure _
  | breakTo label => exact ends_pure _
  | tryFinally body cleanup =>
    refine ((part body (by simp [Arena.children])).stated _).bind fun _ => ?_
    exact ((part cleanup (by simp [Arena.children])).stated _).bind fun _ => ends_pure _
  | _ => cases notPlain

/-- The lines of an expression as a statement end if its text does. -/
theorem statement_ends_of_plain (found : arena.node? id = some node)
    (isPlain : isExpression node.kind = true) (plain : (expression registry arena depth id).Ends)
    (level : Nat) : Work.Ends (statement registry arena (depth + 1) level id) := by
  have known : arena.kind id = .ok node.kind := Arena.kind_eq_ok.mpr ⟨node, found, rfl⟩
  refine ends_lift_bind (arena.kind_ends id) fun kind isKind => ?_
  cases known.symm.trans isKind
  obtain ⟨kind, type⟩ := node
  cases kind with
  | assign target value =>
    refine ends_get.bind fun pending => ?_
    refine ends_lift_bind plain fun text _ => ?_
    split
    · exact (ends_set _).bind fun _ => ends_pure _
    · exact ends_pure _
  | block | ifThen | ifThenElse | loop | breakTo | tryFinally => cases isPlain
  | _ => exact ends_lift_bind plain fun _ _ => ends_pure _

/-- The text of a statement inside a line ends if its lines do. -/
theorem expression_ends_of_stated (found : arena.node? id = some node)
    (notPlain : isExpression node.kind = false)
    (stated : Work.Ends (statement registry arena depth 0 id)) :
    (expression registry arena (depth + 1) id).Ends := by
  have isNode : arena.node id = .ok node := Checked.ofOption_eq_ok.mpr found
  refine Checked.Ends.bind (arena.node_ends id) fun _ same => ?_
  cases isNode.symm.trans same
  obtain ⟨kind, type⟩ := node
  cases kind with
  | block | ifThen | ifThenElse | loop | breakTo | tryFinally =>
    exact Checked.Ends.bind (stated []) fun _ _ => inlined_ends _
  | _ => cases notPlain

/-- Writing of a node ends within twice as many steps as there are handles up to its own, if
children are older. -/
theorem ends_of_older (closed : registry.Closed) (older : arena.ChildrenOlder)
    (enough : 2 * id.index + 2 ≤ depth) : Ends registry arena depth id := by
  -- As a statement inside a line, or as an expression on a line of its own, a node takes two steps.
  induction size : id.index using Nat.strongRecOn generalizing id depth with
  | ind index ih =>
    obtain ⟨deep, rfl⟩ : ∃ deep, depth = deep + 2 := ⟨depth - 2, by omega⟩
    cases found : arena.node? id with
    | none => exact ends_of_missing found
    | some node =>
      have parts (deep : Nat) (enough : 2 * id.index ≤ deep) :
          ∀ child ∈ arena.children node.kind, Ends registry arena deep child := by
        intro child isChild
        have isOlder := older id node found child isChild
        exact ih child.index (size ▸ isOlder) (by omega) rfl
      cases isPlain : isExpression node.kind with
      | true =>
        have plain (deep : Nat) (enough : 2 * id.index ≤ deep) :
            (expression registry arena (deep + 1) id).Ends :=
          expression_ends closed found isPlain fun child isChild =>
            (parts deep enough child isChild).plain
        exact ⟨plain (deep + 1) (by omega),
          statement_ends_of_plain found isPlain (plain deep (by omega))⟩
      | false =>
        have stated (deep : Nat) (enough : 2 * id.index ≤ deep) (level : Nat) :
            Work.Ends (statement registry arena (deep + 1) level id) :=
          statement_ends closed found isPlain (parts deep enough) level
        exact ⟨expression_ends_of_stated found isPlain (stated deep (by omega) 0),
          stated (deep + 1) (by omega)⟩

section Texts

variable (closed : registry.Closed) (older : arena.ChildrenOlder)
include closed older

/-- Writing ends within the bound on nesting. -/
theorem ends_within_bound (id : NodeId) : Ends registry arena (depthBound arena) id := by
  by_cases has : id.index < arena.nodes.size
  · refine ends_of_older closed older ?_
    rw [depthBound, Arena.size]
    omega
  · exact ends_of_missing (Array.getElem?_eq_none (Nat.le_of_not_lt has))

/-- The text of a node inside a line ends. -/
theorem expressionText_terminates (id : NodeId) : (expressionText registry arena id).Ends :=
  (ends_within_bound closed older id).plain

/-- The lines of a function's body end. -/
theorem bodyLines_terminates (root : NodeId) : Work.Ends (bodyLines registry arena root) := by
  rw [bodyLines]
  refine ends_lift_bind (arena.kind_ends root) fun kind _ => ?_
  refine ends_lift_bind (arena.node_ends _) fun node _ => ?_
  have within (id : NodeId) : Ends registry arena (depthBound arena) id :=
    ends_within_bound closed older id
  have single (returns : Bool) (body : NodeId) : Work.Ends (if returns then do
      return [returnLine 0 (← expression registry arena (depthBound arena) body)]
      else statement registry arena (depthBound arena) 0 body : Writing (List Line)) := by
    cases returns with
    | true => exact ends_lift_bind (within body).plain fun _ _ => ends_pure _
    | false => exact (within body).stated 0
  cases node.kind with
  | block locals statements => exact blockLines_ends closed 0 _ fun child _ => within child
  | _ => exact single _ _

/-- The text of a function's body ends. -/
theorem bodyText_terminates (width : Nat) (root : NodeId) :
    (bodyText registry arena width root).Ends :=
  (bodyLines_terminates closed older root []).bind fun _ _ =>
    (lines_ends _ _).bind fun _ _ => Checked.ends_ok _

/-- The text of statements in order ends. -/
theorem statementsText_terminates (width : Nat) (ids : List NodeId) :
    (statementsText registry arena width ids).Ends := by
  have written : Work.Ends (ids.mapM (statement registry arena (depthBound arena) 0)) :=
    ends_mapM fun id _ => (ends_within_bound closed older id).stated 0
  exact (written []).bind fun _ _ => (lines_ends _ _).bind fun _ _ => Checked.ends_ok _

end Texts

end Foreach.Source
