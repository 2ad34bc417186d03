import Foreach.Proofs.Lowering.Assembling
import Foreach.Proofs.Lowering.Unhindered
import Foreach.Proofs.Pattern.Detection
import Foreach.Proofs.Samples.Registered
import Foreach.Proofs.Samples.SumTree
import Foreach.Proofs.Source.Written
import Foreach.Proofs.Text.Layout
import Foreach.Proofs.Tree.Typed

/-!
# The text of a sum

A sum is written as one text, whatever the registry and whatever the types are called: only the
width of a level and the way in which the enumerator is disposed of make a difference. That the
names in the text are the same for all types is what a search guarantees of the members it finds.
-/
namespace Foreach

namespace Construction

variable {registry : Registry} {before after : Arena}

/-- A disposal by a strategy only converts to the disposal contract. -/
theorem disposeBy_convertsTo (resource : NodeId) (strategy : DisposalStrategy) :
    Admits (ConvertsTo .disposable) (disposeBy registry resource strategy) := by
  have through : Admits (ConvertsTo .disposable) (disposeThroughContract registry resource) :=
    .bind (.lift _) fun _ => .bind (.push fun _ _ => rfl) fun _ => call_convertsTo _ _ _
  cases strategy with
  | valueType => exact through
  | referenceType =>
    exact .bind (.ask _) fun _ => .bind (.push nofun) fun _ => .bind (.push nofun) fun _ =>
      .bind through fun _ => .push nofun
  | byRefLike method => exact call_convertsTo _ _ _

/-- A disposal, if there is one, only converts to the disposal contract. -/
theorem dispose_convertsTo (resource : NodeId) (disposal : Option DisposalStrategy) :
    Admits (ConvertsTo .disposable) (dispose registry resource disposal) := by
  cases disposal with
  | none => exact .pure _
  | some strategy => exact .map (disposeBy_convertsTo resource strategy)

/-- A loop only converts to the disposal contract if its body does. -/
theorem foreachLoop_convertsTo {policy : Policy} {enumerable : NodeId} {plan : LoopPlan}
    {body : LoopBinding → Construction NodeId}
    (converts : ∀ binding, Admits (ConvertsTo .disposable) (body binding)) :
    Admits (ConvertsTo .disposable) (foreachLoop registry policy enumerable plan body) := by
  have starts : ∀ members,
      Admits (ConvertsTo .disposable) (startLoop registry enumerable members) := fun _ =>
    .bind (.push nofun) fun _ => .bind (call_convertsTo _ _ _) fun _ =>
      .bind (assign_convertsTo _ _) fun _ => .bind (.lift _) fun _ => .pure _
  have closes : ∀ opened step,
      Admits (ConvertsTo .disposable) (closeLoop registry opened plan step) := by
    intro opened step
    refine .bind (call_convertsTo _ _ _) fun _ => .bind (whileLoop_convertsTo _ _) fun _ =>
      .bind (dispose_convertsTo _ _) fun disposal => ?_
    cases disposal with
    | none => exact .bind (.lift _) fun _ => .pure _
    | some disposal =>
      exact .bind (tryFinally_convertsTo _ _) fun _ => .map (block_convertsTo _ _)
  refine .bind (.bind (.ask _) fun _ => .bind (.lift _) fun resolution => ?_) fun opened => ?_
  · cases resolution with
    | error error => exact .pure _
    | ok members => exact .map (starts members)
  · cases opened with
    | error error => exact .pure _
    | ok opened => exact .bind (converts _) fun step => closes opened step

end Construction

/-- The lines that dispose of the enumerator. -/
def DisposalStrategy.lines (level : Nat) : DisposalStrategy → List Line
  | valueType => [⟨level, "((IDisposable)enumerator).Dispose();"⟩]
  | referenceType => [
      ⟨level, "if (enumerator != null)"⟩,
      ⟨level, "\x7b"⟩,
      ⟨level + 1, "((IDisposable)enumerator).Dispose();"⟩,
      ⟨level, "\x7d"⟩]
  | byRefLike _ => [⟨level, "enumerator.Dispose();"⟩]

namespace SumProgram

/-- The lines of the loop of a sum with its disposal. -/
def guardedLines (strategy : DisposalStrategy) (level : Nat) : List Line := [
  ⟨level, "try"⟩,
  ⟨level, "\x7b"⟩,
  ⟨level + 1, "while (true)"⟩,
  ⟨level + 1, "\x7b"⟩,
  ⟨level + 2, "if (enumerator.MoveNext())"⟩,
  ⟨level + 2, "\x7b"⟩,
  ⟨level + 3, "sum += enumerator.Current;"⟩,
  ⟨level + 2, "\x7d"⟩,
  ⟨level + 2, "else"⟩,
  ⟨level + 2, "\x7b"⟩,
  ⟨level + 3, "break;"⟩,
  ⟨level + 2, "\x7d"⟩,
  ⟨level + 1, "\x7d"⟩,
  ⟨level, "\x7d"⟩,
  ⟨level, "finally"⟩,
  ⟨level, "\x7b"⟩] ++
  strategy.lines (level + 1) ++ [
  ⟨level, "\x7d"⟩]

/-- The lines of a sum. -/
def canonicalLines (strategy : DisposalStrategy) : List Line := [
  ⟨0, "var enumerator = enumerable.GetEnumerator();"⟩,
  ⟨0, "var sum = 0;"⟩] ++
  guardedLines strategy 0 ++ [
  ⟨0, ""⟩,
  ⟨0, "return sum;"⟩]

open Source

variable {program : SumProgram} {registry : Registry} {policy : Policy} {type : TypeId}
  {block : NodeId} {loop : ForeachLoop} {nodes : LoopNodes}

/-- A sum that is lowered has the type of the items' total, and only converts to the disposal
contract. -/
theorem typed_of_lower (form : program.Form registry policy type block loop nodes)
    (lowered : lower registry policy type = .ok (.ok program)) :
    program.arena.typeOf block = .ok .int ∧
      ∀ node ∈ program.arena.nodes, Construction.ConvertsTo .disposable node := by
  obtain ⟨body, middle, looped, wrapped⟩ := lower_eq_ok.mp lowered
  have adds : ∀ binding, Construction.OnlyAdds (addItem registry binding) :=
    fun _ _ _ _ built => (addItem_adds built).1
  have converts : ∀ binding, Construction.Admits (Construction.ConvertsTo .disposable)
      (addItem registry binding) := fun _ =>
    .bind (Construction.property_convertsTo _ _) fun _ => Construction.addAssign_convertsTo _ _
  have start : ∀ node ∈ (opening type).nodes,
      Construction.ConvertsTo .disposable node := by
    intro node isListed operand isConversion
    simp only [opening, List.mem_toArray, List.mem_cons, List.not_mem_nil, or_false] at isListed
    obtain rfl | rfl | rfl | rfl := isListed <;> cases isConversion
  have typed := Construction.foreachLoop_valueTypeOf (fun _ _ _ _ _ fills => adds _ _ _ _ fills)
    rfl looped
  obtain ⟨grown, isLambda⟩ := Construction.lambda_adds wrapped
  constructor
  · obtain ⟨_, isRoot, _⟩ := isLambda
    obtain ⟨_, isRoot', _⟩ := form.root
    cases isRoot.symm.trans isRoot'
    exact grown.typeOf typed
  · exact Construction.lambda_convertsTo _ _ _ _ _ wrapped
      (Construction.foreachLoop_convertsTo converts _ _ _ looped start)

/-- The members that a loop uses have the names that are looked for. -/
structure Named (registry : Registry) (members : LoopMembers) (dispose : MemberId) : Prop where
  /-- What gives the enumerator. -/
  getEnumerator : ∃ source, registry.member? members.getEnumerator = some source ∧
    source.name = "GetEnumerator"
  /-- What reads the current item. -/
  current : ∃ source, registry.member? members.current = some source ∧ source.name = "Current"
  /-- What goes on to the next item. -/
  moveNext : ∃ source, registry.member? members.moveNext = some source ∧ source.name = "MoveNext"
  /-- What disposes of the enumerator. -/
  dispose : ∃ source, registry.member? dispose = some source ∧ source.name = "Dispose"
  /-- The disposal contract. -/
  disposable : registry.displayName .disposable = .ok "IDisposable"

/-- The disposal of a sum's enumerator is written as the lines of the strategy. -/
theorem Form.disposal_shows (form : program.Form registry policy type block loop nodes)
    (converts : ∀ node ∈ program.arena.nodes, Construction.ConvertsTo .disposable node)
    (named : Named registry loop.members loop.dispose) :
    Shows registry program.arena 5 nodes.disposal loop.strategy.lines := by
  have holder := form.block.enumerator
  have enumerator : Reads registry program.arena 1 loop.enumerator "enumerator" :=
    .word holder rfl
  obtain ⟨dispose, disposeKnown, disposeNamed⟩ := named.dispose
  have converted {receiver : NodeId}
      (known : program.arena.kind receiver = .ok (.convert loop.enumerator)) :
      Reads registry program.arena 2 receiver "(IDisposable)enumerator" := by
    obtain ⟨⟨_, type⟩, found, rfl⟩ := Arena.kind_eq_ok.mp known
    have toContract := converts _ (Array.mem_of_getElem? found) _ rfl
    have typed : program.arena.typeOf receiver = .ok .disposable :=
      Arena.typeOf_eq_ok.mpr ⟨_, found, toContract⟩
    exact .convert known typed named.disposable holder enumerator
  have throughContract {call receiver : NodeId}
      (known : program.arena.kind receiver = .ok (.convert loop.enumerator))
      (isCall : program.arena.IsCall call receiver loop.dispose []) :
      Shows registry program.arena 4 call
        fun level => [⟨level, "((IDisposable)enumerator).Dispose();"⟩] := by
    have reads := Reads.call isCall disposeKnown known (converted known)
    rw [disposeNamed] at reads
    obtain ⟨range, isCall, -⟩ := isCall
    exact .expression isCall rfl nofun reads
  have disposal := form.block.disposal
  revert disposal
  cases loop.strategy with
  | valueType =>
    rintro ⟨receiver, known, isCall⟩
    exact (throughContract known isCall).deeper (by decide)
  | referenceType =>
    rintro ⟨present, missing, call, receiver, guarded, compared, null, known, isCall⟩
    have test : Reads registry program.arena 2 present "enumerator != null" :=
      .signed compared rfl enumerator (.word null rfl)
    exact .ifThen guarded (test.deeper (by decide)) (throughContract known isCall)
  | byRefLike method =>
    intro isCall
    have reads := Reads.call isCall disposeKnown holder enumerator
    rw [disposeNamed] at reads
    obtain ⟨range, isCall, -⟩ := isCall
    exact (Shows.expression isCall rfl nofun reads).deeper (by decide)

/-- The loop of a sum is written with its disposal. -/
theorem Form.guarded_shows (form : program.Form registry policy type block loop nodes)
    (converts : ∀ node ∈ program.arena.nodes, Construction.ConvertsTo .disposable node)
    (named : Named registry loop.members loop.dispose) :
    Shows registry program.arena 7 nodes.guarded (guardedLines loop.strategy) := by
  have holder := form.block.enumerator
  have enumerator : Reads registry program.arena 1 loop.enumerator "enumerator" :=
    .word holder rfl
  have sum : Reads registry program.arena 1 total "sum" := .word (form.opened.kind rfl) rfl
  obtain ⟨current, currentKnown, currentNamed⟩ := named.current
  obtain ⟨moveNext, moveNextKnown, moveNextNamed⟩ := named.moveNext
  obtain ⟨item, added, read⟩ := form.body
  have isItem := Reads.property read currentKnown holder enumerator
  rw [currentNamed] at isItem
  have body : Shows registry program.arena 4 loop.body
      fun level => [⟨level, "sum += enumerator.Current;"⟩] :=
    .expression added rfl nofun (.signed added rfl (sum.deeper (by decide)) isItem)
  have test := Reads.call form.block.hasNext moveNextKnown holder enumerator
  rw [moveNextNamed] at test
  have leave : Shows registry program.arena 4 nodes.leave fun level => [⟨level, "break;"⟩] :=
    (Shows.breakTo form.block.leave).deeper (by decide)
  have step := Shows.ifThenElse form.block.step (test.deeper (by decide)) body leave
  have looped := Shows.loop form.block.looped step
  exact .tryFinally form.block.guarded looped
    ((form.disposal_shows converts named).deeper (by decide))

/-- The enumerator of a sum is got from its argument. -/
theorem Form.start_reads (form : program.Form registry policy type block loop nodes)
    (named : Named registry loop.members loop.dispose) :
    Reads registry program.arena 3 nodes.start "enumerator = enumerable.GetEnumerator()" := by
  obtain ⟨getEnumerator, known, name⟩ := named.getEnumerator
  have isParameter : program.arena.kind enumerable = .ok (.parameter "enumerable") :=
    form.opened.kind rfl
  have acquired := form.block.acquired
  rw [form.subject] at acquired
  have reads := Reads.call acquired known isParameter (.word isParameter rfl)
  rw [name] at reads
  exact .signed form.block.start rfl ((Reads.word form.block.enumerator rfl).deeper (by decide))
    reads

/-- Nesting is deep enough for all nodes of a sum. -/
theorem Form.seven_le_depthBound (form : program.Form registry policy type block loop nodes) :
    7 ≤ depthBound program.arena := by
  obtain ⟨added, same⟩ := form.opened.nodes
  rw [depthBound, Arena.size, same, Array.size_append]
  show 7 ≤ 2 * (4 + added.size) + 2
  omega

/-- The body of a sum is written as its lines. -/
theorem Form.bodyLines_eq (form : program.Form registry policy type block loop nodes)
    (typed : program.arena.typeOf block = .ok .int)
    (converts : ∀ node ∈ program.arena.nodes, Construction.ConvertsTo .disposable node)
    (named : Named registry loop.members loop.dispose) :
    bodyLines registry program.arena program.root [] =
      .ok (canonicalLines loop.strategy, []) := by
  obtain ⟨bindings, statements, isBlock, heldLocals, heldStatements⟩ := form.block.block
  obtain ⟨parameters, isLambda, -⟩ := form.root
  obtain ⟨_, isNode, same⟩ := Arena.node_of_kind isBlock
  cases typed.symm.trans same
  have isStart := form.block.start
  have isGuarded := form.block.guarded
  have isTotal : program.arena.kind total = .ok (.var "sum") := form.opened.kind rfl
  have isInit : program.arena.kind start = .ok (.assign total ⟨2⟩) := form.opened.kind rfl
  have isZero : program.arena.kind ⟨2⟩ = .ok (.int 0) := form.opened.kind rfl
  have inits : Reads registry program.arena 2 start "sum = 0" :=
    .signed isInit rfl (.word isTotal rfl) (.word isZero rfl)
  have enough := form.seven_le_depthBound
  have introduced : introductions registry program.arena
      (expression registry program.arena (depthBound program.arena)) 0
      [nodes.start, start, nodes.guarded, total] [loop.enumerator, total] [] =
      .ok ([], [total, loop.enumerator]) := by
    refine introductions_assigned ?_ ?_
    · simp [isStart, isInit, isGuarded, isTotal]
    · simp [isStart, isInit]
  have first : statement registry program.arena (depthBound program.arena) 0 nodes.start
      [total, loop.enumerator] =
      .ok ([⟨0, "var enumerator = enumerable.GetEnumerator();"⟩], [total]) := by
    have remaining : [total, loop.enumerator].filter (· ≠ loop.enumerator) = [total] := by
      rw [form.enumerator]
      decide
    rw [statement_introduces isStart (form.start_reads named) (Nat.le_trans (by decide) enough)
      (by simp), remaining]
    rfl
  have second : statement registry program.arena (depthBound program.arena) 0 start [total] =
      .ok ([⟨0, "var sum = 0;"⟩], []) := by
    rw [statement_introduces isInit inits (Nat.le_trans (by decide) enough) (by simp)]
    rfl
  have third := form.guarded_shows converts named (depthBound program.arena) enough 0 []
  have last := (Reads.word isTotal rfl : Reads registry program.arena 1 total "sum")
    (depthBound program.arena) (Nat.le_trans (by decide) enough)
  rw [bodyLines]
  refine Work.bind_eq_ok.mpr ⟨_, _, Work.lift_eq_ok.mpr ⟨isLambda, rfl⟩, ?_⟩
  refine Work.bind_eq_ok.mpr ⟨_, _, Work.lift_eq_ok.mpr ⟨isNode, rfl⟩, ?_⟩
  show blockLines registry program.arena _ _ 0 true _ _ _ = _
  rw [heldLocals.list, heldStatements.list, form.plan]
  refine blockLines_eq_ok.mpr ⟨[], _, _, introduced, sequence_cons_eq_ok.mpr
    ⟨_, _, _, _, first, isStart, sequence_cons_eq_ok.mpr ⟨_, _, _, _, second, isInit,
      sequence_cons_eq_ok.mpr ⟨_, _, _, _, third, isGuarded,
        (sequence_last_eq_ok isTotal).mpr (.inl ⟨rfl, _, last, rfl, rfl⟩), rfl⟩, rfl⟩, rfl⟩, ?_⟩
  rw [canonicalLines]
  simp [isMultiLine, Line.blank, returnLine]

end SumProgram

namespace Registry

variable {registry : Registry} {policy : Policy} {type : TypeId}

/-- A type in which an enumerator is looked for is registered. -/
theorem has_of_enumerableShape {shape : EnumerableShape}
    (found : registry.enumerableShape policy type = .ok shape) : registry.Has type := by
  obtain ⟨_, found, -⟩ := Work.checked_bind_eq_ok.mp found
  obtain ⟨_, found, -⟩ := Work.checked_bind_eq_ok.mp found
  obtain ⟨_, found, -⟩ := Work.checked_bind_eq_ok.mp found
  obtain ⟨_, found, -⟩ := Work.checked_bind_eq_ok.mp found
  obtain ⟨_, found, -⟩ := Work.checked_bind_eq_ok.mp found
  obtain ⟨entry, found, -⟩ := Work.checked_bind_eq_ok.mp found
  exact has_iff.mpr ⟨entry, Checked.ofOption_eq_ok.mp found⟩

variable {mayEdit : TypeEntry → Prop} (built : Built mayEdit registry)
include built

/-- The disposal contract keeps its name. -/
theorem Built.displayName_disposable : registry.displayName .disposable = .ok "IDisposable" := by
  obtain ⟨entry, known, continued⟩ :=
    built.complete.keeps.entries (show Registry.initial.type? .disposable = some _ from rfl)
  have isEntry : registry.entry .disposable = .ok entry := Checked.ofOption_eq_ok.mpr known
  rw [displayName, displayNameWithin]
  refine Work.checked_bind_eq_ok.mpr ⟨entry, isEntry, ?_⟩
  rw [continued.outer, continued.flags, continued.arguments, continued.name]
  rfl

/-- Whatever disposes of an enumerator has its name. -/
theorem Built.dispose_named (has : registry.Has type) {strategy : DisposalStrategy}
    {method : MemberId} (classified : registry.classifyDisposal type = .ok (some strategy))
    (disposes : strategy.method registry = .ok method) :
    ∃ source, registry.member? method = some source ∧ source.name = "Dispose" := by
  obtain ⟨method', source, disposes', known, isMethod⟩ :=
    built.complete.disposes_of_classified has classified
  cases disposes.symm.trans disposes'
  exact ⟨source, known, isMethod.name⟩

/-- The members that a loop uses are called as the text of a loop calls them. -/
theorem Built.named {members : LoopMembers} {strategy : DisposalStrategy}
    {dispose : MemberId} (resolved : registry.resolveLoop policy type = .ok (.ok members))
    (classified : registry.classifyDisposal members.enumeratorType = .ok (some strategy))
    (disposes : strategy.method registry = .ok dispose) :
    SumProgram.Named registry members dispose := by
  obtain ⟨shape, _, found, getEnumerator, enumerator, current, moveNext, -, -⟩ :=
    resolveLoop_eq_ok resolved
  obtain ⟨shape', found', describes⟩ :=
    built.complete.describes (has_of_enumerableShape found) policy
  cases found.symm.trans (enumerableShape_of_isEnumerable found')
  obtain ⟨source, known, isMethod, -, isEnumerator⟩ := describes.getEnumerator _ getEnumerator
  have enumeratorHas : registry.Has members.enumeratorType := by
    rw [Option.some.inj (enumerator.symm.trans isEnumerator)]
    exact built.complete.valueType_has known
  obtain ⟨item, itemKnown, isProperty, -⟩ := describes.current _ current
  obtain ⟨next, nextKnown, isNext, -⟩ := describes.moveNext _ moveNext
  exact {
    getEnumerator := ⟨source, known, isMethod.name⟩
    current := ⟨item, itemKnown, isProperty.name⟩
    moveNext := ⟨next, nextKnown, isNext.name⟩
    dispose := built.dispose_named enumeratorHas classified disposes
    disposable := built.displayName_disposable }

end Registry

namespace SumProgram

/-- Adding the current item to the variable keeps an arena assembled. -/
theorem addItem_assembled {registry : Registry} {binding : LoopBinding} {before after : Arena}
    {id : NodeId} (assembled : before.Assembled registry)
    (enumeratorHas : before.Has binding.enumerator)
    (built : addItem registry binding before = .ok (id, after)) :
    after.Assembled registry ∧ after.Has id := by
  obtain ⟨item, middle, read, added⟩ := Work.bind_eq_ok.mp built
  obtain ⟨-, itemKnown⟩ := Construction.property_adds read
  obtain ⟨-, known⟩ := Construction.addAssign_adds added
  have itemHas := Arena.has_of_kind itemKnown
  have isRead : middle.Assembled registry := .node assembled (.property enumeratorHas) read
  exact ⟨.node isRead (.addAssign itemHas) added, Arena.has_of_kind known⟩

/-- A sum is assembled by constructors. -/
theorem lower_assembled {registry : Registry} (complete : registry.Complete) {policy : Policy}
    {type : TypeId} {program : SumProgram}
    (lowered : lower registry policy type = .ok (.ok program)) :
    program.arena.Assembled registry ∧ program.arena.Has program.root := by
  obtain ⟨block, middle, looped, wrapped⟩ := lower_eq_ok.mp lowered
  obtain ⟨-, _, isLambda, -⟩ := Construction.lambda_adds wrapped
  have typeHas : registry.Has type := by
    obtain ⟨_, _, _, form⟩ := form_of_lower lowered
    obtain ⟨_, _, found, -⟩ := Registry.resolveLoop_eq_ok form.members
    exact Registry.has_of_enumerableShape found
  have integers : registry.Has .int := complete.keeps.has (by decide)
  have argument := Arena.Assembled.node .empty
    (.parameter "enumerable" typeHas : Construction.Step registry .empty _) rfl
  have sum := Arena.Assembled.node argument
    (.var "sum" integers : Construction.Step registry _ _) rfl
  have zero := Arena.Assembled.node sum (.int 0 : Construction.Step registry _ _) rfl
  have opened : (opening type).Assembled registry := .node zero
    (.assign (by show 2 < 3; decide) : Construction.Step registry _
      (Construction.assign total ⟨2⟩)) rfl
  refine ⟨.node (Construction.foreachLoop_assembled complete opened (by show 0 < 4; decide) ?_ ?_
    looped) .lambda wrapped, Arena.has_of_kind isLambda⟩
  · show ∀ node ∈ [total] ++ [start] ++ [total], (opening type).Has node
    simp [Arena.Has, total, start, opening, Arena.size]
  · intro binding started step filled assembled enumeratorHas built
    obtain ⟨filledAssembled, stepHas⟩ := addItem_assembled assembled enumeratorHas built
    exact ⟨filledAssembled, (addItem_adds built).1, stepHas⟩

/-- The spaces of the lines of a sum can be counted exactly if those of the deepest one can. -/
theorem canonicalLines_fit (strategy : DisposalStrategy) (width : Nat) :
    (∀ line ∈ canonicalLines strategy, line.level * width < UInt64.size) ↔
      3 * width < UInt64.size := by
  have least : ∀ line ∈ canonicalLines strategy, line.level ≤ 3 := by
    cases strategy <;> simp [canonicalLines, guardedLines, DisposalStrategy.lines]
  constructor
  · intro fit
    exact fit ⟨3, "break;"⟩ (by simp [canonicalLines, guardedLines])
  · intro fits line isListed
    exact Nat.lt_of_le_of_lt (Nat.mul_le_mul_right width (least line isListed)) fits

/-- Sums have one text. In every registry that is built, whatever may be edited, and under every
policy, a sum that is lowered is written as the lines of the strategy that disposes of the
enumerator, with line ends between them, unless the spaces of the deepest line cannot be counted in
64 bits. -/
theorem render_of_lower {mayEdit : TypeEntry → Prop} {registry : Registry}
    (built : Registry.Built mayEdit registry) {policy : Policy} {type : TypeId}
    {program : SumProgram} (lowered : lower registry policy type = .ok (.ok program)) :
    ∃ shape enumerator strategy, registry.enumerableShape policy type = .ok shape ∧
      shape.enumerator.type = some enumerator ∧
      registry.classifyDisposal enumerator = .ok (some strategy) ∧
      ∀ width, program.render registry width =
        if 3 * width < UInt64.size then .ok (layout width (canonicalLines strategy))
        else .error .violation := by
  obtain ⟨block, loop, nodes, form⟩ := form_of_lower lowered
  obtain ⟨typed, converts⟩ := typed_of_lower form lowered
  obtain ⟨shape, _, found, -, enumerator, -⟩ := Registry.resolveLoop_eq_ok form.members
  refine ⟨shape, _, _, found, enumerator, form.classified, fun width => ?_⟩
  have lines := form.bodyLines_eq typed converts
    (built.named form.members form.classified form.dispose)
  rw [render, Source.bodyText, lines]
  have written := @IndentedText.lines_trimmed width (canonicalLines loop.strategy)
    ⟨0, "return sum;"⟩ ';' (by rw [canonicalLines, List.getLast?_append]; rfl) rfl (by decide)
  simp only [canonicalLines_fit] at written
  exact written

/-- The sum over the generic enumerable contract disposes of its enumerator unless that is null. -/
theorem genericEnumerable_render : ∃ program,
    lower .initial {} .genericEnumerable = .ok (.ok program) ∧
      program.render .initial 4 = .ok (layout 4 (canonicalLines .referenceType)) := by
  have isLowered : (lower .initial {} .genericEnumerable).map
      (fun outcome => outcome.map fun _ => ()) = .ok (.ok ()) := by
    decide +kernel
  obtain ⟨program, isProgram⟩ := Samples.lowered_of_map isLowered
  have initially : Registry.Built TypeEntry.IsOriginal .initial := .initial
  obtain ⟨shape, enumerator, strategy, found, typed, classified, rendered⟩ :=
    render_of_lower initially isProgram
  have isShape : (Registry.initial.enumerableShape {} .genericEnumerable).map
      (·.enumerator.type) = .ok (some ⟨13⟩) := by
    decide +kernel
  rw [found] at isShape
  cases typed.symm.trans (Except.ok.inj isShape)
  have isReference : Registry.initial.classifyDisposal ⟨13⟩ = .ok (some .referenceType) := by
    decide +kernel
  cases classified.symm.trans isReference
  exact ⟨program, isProgram, rendered 4⟩

end SumProgram

end Foreach
