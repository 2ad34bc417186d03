import Foreach.Proofs.Lowering.LoopTree
import Foreach.Proofs.Tree.Reach
import Foreach.Samples.Sum

/-!
# The tree of a sum

What `SumProgram.lower` builds: a function of one parameter, whose body is a lowered loop that adds
the current item to a variable. The nodes before the loop are always the same, so they are named by
their positions.
-/
namespace Foreach.SumProgram

/-- The parameter. -/
def enumerable : NodeId := ⟨0⟩

/-- The variable that the items are added to. -/
def total : NodeId := ⟨1⟩

/-- The statement that the variable is 0 at first. -/
def start : NodeId := ⟨3⟩

/-- What surrounds the loop. -/
def plan : LoopPlan := { locals := [total], preamble := [start], result := some total }

/-- What the loop does for each item. -/
def addItem (registry : Registry) (binding : LoopBinding) : Construction NodeId := do
  let item ← Construction.currentItem registry binding
  Construction.addAssign total item

/-- The arena before the loop. -/
def opening (type : TypeId) : Arena where
  nodes := #[⟨.parameter "enumerable", type⟩, ⟨.var "sum", .int⟩, ⟨.int 0, .int⟩,
    ⟨.assign total ⟨2⟩, .int⟩]
  lists := #[]
  labels := 0

/-- A sum is built from what comes before its loop. -/
theorem construct_eq (registry : Registry) (policy : Policy) (type : TypeId) :
    construct registry policy type .empty =
      (Construction.foreachLoop registry policy enumerable plan (addItem registry) >>=
        fun lowered => match lowered with
          | .error error => pure (.error error)
          | .ok body => .ok <$> Construction.lambda [enumerable] body) (opening type) := by
  rfl

/-- A sum is lowered if its loop is, and the function is built around the loop. -/
theorem lower_eq_ok {registry : Registry} {policy : Policy} {type : TypeId}
    {program : SumProgram} :
    lower registry policy type = .ok (.ok program) ↔
      ∃ block middle, Construction.foreachLoop registry policy enumerable plan (addItem registry)
          (opening type) = .ok (.ok block, middle) ∧
        Construction.lambda [enumerable] block middle = .ok (program.root, program.arena) := by
  constructor
  · intro lowered
    obtain ⟨⟨built, arena⟩, constructed, same⟩ := Work.checked_bind_eq_ok.mp lowered
    rw [StateT.run, construct_eq] at constructed
    obtain ⟨outcome, middle, looped, rest⟩ := Work.bind_eq_ok.mp constructed
    cases outcome with
    | error error =>
      obtain ⟨rfl, rfl⟩ := Work.pure_eq_ok.mp rest
      cases same
    | ok block =>
      obtain ⟨root, wrapped, rfl⟩ := Work.map_eq_ok.mp rest
      obtain rfl := Except.ok.inj (Except.ok.inj same)
      exact ⟨block, middle, looped, wrapped⟩
  · rintro ⟨block, middle, looped, wrapped⟩
    refine Work.checked_bind_eq_ok.mpr ⟨(.ok program.root, program.arena), ?_, rfl⟩
    rw [StateT.run, construct_eq]
    exact Work.bind_eq_ok.mpr
      ⟨.ok block, middle, looped, Work.map_eq_ok.mpr ⟨program.root, wrapped, rfl⟩⟩

/-- The nodes of a sum are what makes it one. -/
structure Form (program : SumProgram) (registry : Registry) (policy : Policy) (type : TypeId)
    (block : NodeId) (loop : ForeachLoop) (nodes : LoopNodes) : Prop where
  /-- The whole. -/
  root : program.arena.IsLambda program.root [enumerable] block
  /-- The nodes before the loop are there. -/
  opened : program.arena.Extends (opening type)
  /-- The loop. -/
  block : nodes.Form program.arena block loop
  /-- What the loop goes through. -/
  subject : loop.enumerable = enumerable
  /-- What surrounds the loop. -/
  plan : loop.plan = plan
  /-- What holds the enumerator. -/
  enumerator : loop.enumerator = ⟨4⟩
  /-- What the loop uses. -/
  members : registry.resolveLoop policy type = .ok (.ok loop.members)
  /-- How the enumerator is disposed of. -/
  classified : registry.classifyDisposal loop.members.enumeratorType = .ok (some loop.strategy)
  /-- The method that disposes of the enumerator. -/
  dispose : loop.strategy.method registry = .ok loop.dispose
  /-- What the loop does for each item. -/
  body : ∃ item, program.arena.kind loop.body = .ok (.addAssign total item) ∧
    program.arena.kind item = .ok (.property loop.enumerator loop.members.current)

/-- Adding the current item to the variable only adds nodes. -/
theorem addItem_adds {registry : Registry} {binding : LoopBinding} {before after : Arena}
    {id : NodeId} (built : addItem registry binding before = .ok (id, after)) :
    after.Extends before ∧ ∃ item, after.kind id = .ok (.addAssign total item) ∧
      after.kind item = .ok (.property binding.enumerator binding.current) := by
  obtain ⟨item, _, read, added⟩ := Work.bind_eq_ok.mp built
  obtain ⟨readGrown, itemKnown⟩ := Construction.property_adds read
  obtain ⟨grown, known⟩ := Construction.addAssign_adds added
  exact ⟨grown.trans readGrown, item, known, grown.kind itemKnown⟩

/-- A sum that is lowered has the tree of a sum. -/
theorem form_of_lower {registry : Registry} {policy : Policy} {type : TypeId}
    {program : SumProgram} (lowered : lower registry policy type = .ok (.ok program)) :
    ∃ block loop nodes, program.Form registry policy type block loop nodes := by
  obtain ⟨block, middle, looped, wrapped⟩ := lower_eq_ok.mp lowered
  have adds : ∀ binding, Construction.OnlyAdds (addItem registry binding) :=
    fun _ _ _ _ built => (addItem_adds built).1
  obtain ⟨loopGrown, loop, nodes, subject, planned, origin, formed⟩ :=
    Construction.foreachLoop_adds adds looped
  obtain ⟨grown, isLambda⟩ := Construction.lambda_adds wrapped
  obtain ⟨_, typed, resolved⟩ := origin.resolved
  rw [subject] at typed
  cases typed
  obtain ⟨opened, started, filled, startedFrom, holder, bodyBuilt, kept, -⟩ := origin.body
  obtain ⟨-, -, -, current, -⟩ := Construction.startLoop_adds startedFrom
  obtain ⟨-, item, added, read⟩ := addItem_adds bodyBuilt
  rw [holder, current] at read
  have later := grown.trans kept
  exact ⟨block, loop, nodes, {
    root := isLambda
    opened := grown.trans loopGrown
    block := formed.extend grown
    subject
    plan := planned
    enumerator := origin.enumerator
    members := resolved
    classified := origin.classified
    dispose := origin.disposes
    body := ⟨item, later.kind added, later.kind read⟩ }⟩

variable {program : SumProgram} {registry : Registry} {policy : Policy} {type : TypeId}
  {block : NodeId} {loop : ForeachLoop} {nodes : LoopNodes}

/-- The loop has a strategy for its enumerator. -/
theorem Form.disposal (form : program.Form registry policy type block loop nodes) :
    loop.members.disposal = some loop.strategy := by
  obtain ⟨strategy, disposal, classified⟩ := Registry.resolveLoop_classifies form.members
  cases form.classified.symm.trans classified
  exact disposal

/-- What the body of the loop consists of. -/
theorem Form.kind_of_reaches (form : program.Form registry policy type block loop nodes)
    {id : NodeId} {kind : NodeKind} (reached : program.arena.Reaches loop.body id)
    (known : program.arena.kind id = .ok kind) :
    (∃ item, kind = .addAssign total item) ∨ kind = .var "sum" ∨
      kind = .property loop.enumerator loop.members.current ∨ kind = .var "enumerator" := by
  obtain ⟨item, added, read⟩ := form.body
  have sum : program.arena.kind total = .ok (.var "sum") := form.opened.kind rfl
  have holder := form.block.enumerator
  cases reached with
  | refl =>
    cases added.symm.trans known
    exact .inl ⟨item, rfl⟩
  | child found listed reached =>
    cases added.symm.trans found
    obtain rfl | rfl : _ = total ∨ _ = item := by simpa [Arena.children] using listed
    · obtain rfl := reached.of_leaf sum rfl
      cases sum.symm.trans known
      exact .inr (.inl rfl)
    · cases reached with
      | refl =>
        cases read.symm.trans known
        exact .inr (.inr (.inl rfl))
      | child found listed reached =>
        cases read.symm.trans found
        obtain rfl : _ = loop.enumerator := by simpa [Arena.children] using listed
        obtain rfl := reached.of_leaf holder rfl
        cases holder.symm.trans known
        exact .inr (.inr (.inr rfl))

/-- The body of the loop never assigns the enumerator. -/
theorem Form.neverAssigns (form : program.Form registry policy type block loop nodes) :
    program.arena.NeverAssigns loop.body loop.enumerator := by
  intro id kind reached known
  rw [form.enumerator]
  obtain ⟨item, rfl⟩ | rfl | rfl | rfl := form.kind_of_reaches reached known <;>
    simp [NodeKind.target?, total]

/-- The body of the loop never breaks. -/
theorem Form.neverBreaks (form : program.Form registry policy type block loop nodes) :
    program.arena.NeverBreaks loop.body loop.exit := by
  intro id reached known
  obtain ⟨item, same⟩ | same | same | same := form.kind_of_reaches reached known <;> cases same

end Foreach.SumProgram
