import Foreach.Proofs.Source.Output
import Foreach.Proofs.Tree.Reach

/-!
# How deep the lines of a function stand

A statement may be made of statements: those of a block stand level with it, and those that control
flow runs stand one level deeper (`Arena.innerStatements`). A statement inside an expression does
not count, since it is written inside a line. The lines of a statement stand exactly as deep as the
statements that it consists of (`Standing`), which is less deep than there are nodes
(`Indents.levels_le`).
-/
namespace Foreach

/-- Whether a node is a block. -/
def NodeKind.isBlock : NodeKind → Bool
  | block _ _ => true
  | _ => false

namespace Arena

/-- The statements that a statement is made of, each with the levels that it stands deeper. -/
def innerStatements (arena : Arena) : NodeKind → List (NodeId × Nat)
  | .block _ statements => (arena.list statements).map (·, 0)
  | .ifThen _ consequence => [(consequence, 1)]
  | .ifThenElse _ consequence alternative => [(consequence, 1), (alternative, 1)]
  | .loop body _ => [(body, 1)]
  | .tryFinally body cleanup => [(body, 1), (cleanup, 1)]
  | _ => []

/-- A statement that another one consists of stands some levels deeper. -/
inductive Indents (arena : Arena) : NodeId → NodeId → Nat → Prop where
  /-- A statement stands at its own level. -/
  | refl (id : NodeId) : Indents arena id id 0
  /-- What stands deeper in a part stands deeper in the whole. -/
  | inner {whole part id : NodeId} {kind : NodeKind} {deeper levels : Nat}
    (known : arena.kind whole = .ok kind) (isPart : (part, deeper) ∈ arena.innerStatements kind)
    (stands : Indents arena part id levels) : Indents arena whole id (deeper + levels)

/-- A level is the one of the deepest statement: a statement stands there, and none stands deeper
but for blocks, which have no lines but those of their statements and variables. -/
structure Deepest (arena : Arena) (root : NodeId) (deepest : Nat) : Prop where
  /-- A statement stands there. -/
  stands : ∃ id, arena.Indents root id deepest
  /-- Nothing but a block stands deeper. -/
  least : ∀ id kind levels, arena.Indents root id levels → arena.kind id = .ok kind →
    kind.isBlock = false → levels ≤ deepest

variable {arena : Arena}

/-- The statements that a statement is made of are children, at most one level deeper. -/
theorem mem_children_of_innerStatements {kind : NodeKind} {part : NodeId} {deeper : Nat}
    (isPart : (part, deeper) ∈ arena.innerStatements kind) :
    part ∈ arena.children kind ∧ deeper ≤ 1 := by
  cases kind with
  | block locals statements =>
    obtain ⟨_, isStatement, same⟩ := List.mem_map.mp isPart
    cases same
    exact ⟨List.mem_append_right _ isStatement, Nat.zero_le 1⟩
  | ifThen | loop =>
    cases List.mem_singleton.mp isPart
    exact ⟨by simp [children], Nat.le_refl 1⟩
  | ifThenElse | tryFinally =>
    obtain ⟨rfl, rfl⟩ | ⟨rfl, rfl⟩ : _ ∨ _ := by simpa [innerStatements] using isPart
    · exact ⟨by simp [children], Nat.le_refl 1⟩
    · exact ⟨by simp [children], Nat.le_refl 1⟩
  | _ => cases isPart

/-- Where children are older, a statement stands at most as many levels deep as there are nodes
between it and the whole. -/
theorem Indents.levels_le (older : arena.ChildrenOlder) {root id : NodeId} {levels : Nat}
    (stands : arena.Indents root id levels) : levels + id.index ≤ root.index := by
  induction stands with
  | refl id => exact Nat.le_of_eq (Nat.zero_add id.index)
  | inner known isPart _ ih =>
    obtain ⟨node, found, rfl⟩ := kind_eq_ok.mp known
    obtain ⟨isChild, deeper⟩ := mem_children_of_innerStatements isPart
    have smaller := older _ node found _ isChild
    omega

/-- Where children are older, the deepest statement stands less deep than there are nodes. -/
theorem Deepest.lt_size (older : arena.ChildrenOlder) {root : NodeId} {deepest : Nat}
    (isDeepest : arena.Deepest root deepest) (has : arena.Has root) : deepest < arena.size := by
  obtain ⟨id, stands⟩ := isDeepest.stands
  have within := stands.levels_le older
  have inside : root.index < arena.size := has
  omega

end Arena

namespace Source

variable {registry : Registry} {arena : Arena}

/-- The lines of a statement stand where the statements stand that it consists of. -/
structure Standing (arena : Arena) (id : NodeId) (level : Nat) (lines : List Line) : Prop where
  /-- Every line that is not blank stands as deep as some statement. -/
  within : ∀ line ∈ lines,
    line = .blank ∨ ∃ inner levels, arena.Indents id inner levels ∧ line.level = level + levels
  /-- A line stands as deep as any statement that is no block. -/
  reached : ∀ inner kind levels, arena.Indents id inner levels → arena.kind inner = .ok kind →
    kind.isBlock = false → ∃ line ∈ lines, line.level = level + levels

section Parts

variable (registry arena)

/-- The lines of a statement are those that are written for it, or the one that returns its
value. -/
def Shown (depth level : Nat) (id : NodeId) (lines : List Line) : Prop :=
  (∃ pending after, statement registry arena depth level id pending = .ok (lines, after)) ∨
    ∃ kind value, arena.kind id = .ok kind ∧ isExpression kind = true ∧
      lines = [returnLine level value]

/-- The lines of a node are some at its own level and those of the statements that it is made
of. -/
structure Spread (depth level : Nat) (kind : NodeKind) (lines : List Line) : Prop where
  /-- Every line that is not blank is one or the other. -/
  within : ∀ line ∈ lines, line = .blank ∨ line.level = level ∨
    ∃ part deeper own, (part, deeper) ∈ arena.innerStatements kind ∧
      Shown registry arena depth (level + deeper) part own ∧ line ∈ own
  /-- What is no block has a line at its level. -/
  own : kind.isBlock = false → ∃ line ∈ lines, line.level = level
  /-- The lines of all parts are there. -/
  parts : ∀ part deeper, (part, deeper) ∈ arena.innerStatements kind →
    ∃ own, Shown registry arena depth (level + deeper) part own ∧ own ⊆ lines

end Parts

section Levels

variable {depth level : Nat} {id : NodeId} {kind : NodeKind} {lines : List Line}
  {pending after : List NodeId}

/-- If the lines of the parts stand as deep as their statements, so do those of the whole. -/
theorem Spread.standing (spread : Spread registry arena depth level kind lines)
    (known : arena.kind id = .ok kind)
    (parts : ∀ part deeper own, (part, deeper) ∈ arena.innerStatements kind →
      Shown registry arena depth (level + deeper) part own →
      Standing arena part (level + deeper) own) : Standing arena id level lines where
  within line isListed := by
    obtain isBlank | same | ⟨part, deeper, own, isPart, shown, isOwn⟩ := spread.within line isListed
    · exact .inl isBlank
    · exact .inr ⟨id, 0, .refl id, same⟩
    · obtain isBlank | ⟨inner, levels, stands, same⟩ := (parts _ _ _ isPart shown).within line isOwn
      · exact .inl isBlank
      · exact .inr ⟨inner, deeper + levels, .inner known isPart stands, by omega⟩
  reached inner innerKind levels stands innerKnown notBlock := by
    cases stands with
    | refl =>
      cases known.symm.trans innerKnown
      exact spread.own notBlock
    | inner found isPart stands =>
      cases known.symm.trans found
      obtain ⟨own, shown, isListed⟩ := spread.parts _ _ isPart
      obtain ⟨line, isOwn, same⟩ :=
        (parts _ _ _ isPart shown).reached inner innerKind _ stands innerKnown notBlock
      exact ⟨line, isListed isOwn, by omega⟩

/-- What is made of no statements has a single line. -/
theorem Spread.single {line : Line} (same : line.level = level)
    (noParts : arena.innerStatements kind = []) :
    Spread registry arena depth level kind [line] where
  within other isListed := by
    cases List.mem_singleton.mp isListed
    exact .inr (.inl same)
  own _ := ⟨line, List.mem_singleton_self line, same⟩
  parts part deeper isPart := by
    rw [noParts] at isPart
    cases isPart

/-- An expression is made of no statements. -/
theorem innerStatements_of_isExpression (isPlain : isExpression kind = true) :
    arena.innerStatements kind = [] := by
  cases kind <;> first | rfl | cases isPlain

/-- Variables are declared at the level of their block. -/
theorem introductions_level {expression : NodeId → Checked String} {statements locals : List NodeId}
    (written : introductions registry arena expression level statements locals pending =
      .ok (lines, after)) : ∀ line ∈ lines, line.level = level := by
  induction locals generalizing pending lines after with
  | nil =>
    cases written
    exact nofun
  | cons binding rest ih =>
    obtain ⟨assigned, _, -, written⟩ := Work.bind_eq_ok.mp written
    cases assigned with
    | true =>
      obtain ⟨_, _, -, written⟩ := Work.bind_eq_ok.mp written
      exact ih written
    | false =>
      obtain ⟨_, _, -, written⟩ := Work.bind_eq_ok.mp written
      obtain ⟨_, _, -, written⟩ := Work.bind_eq_ok.mp written
      obtain ⟨_, _, -, written⟩ := Work.bind_eq_ok.mp written
      obtain ⟨more, _, later, written⟩ := Work.bind_eq_ok.mp written
      obtain ⟨rfl, rfl⟩ := Work.pure_eq_ok.mp written
      exact List.forall_mem_cons.mpr ⟨rfl, ih later⟩

/-- Statements in order are written as the lines of each, with blank lines between them. -/
theorem sequence_shown {yields : Bool} {statements : List NodeId}
    (written : sequence arena (expression registry arena depth)
      (statement registry arena depth level) level yields statements pending =
        .ok (lines, after)) :
    (∀ line ∈ lines, line = .blank ∨
      ∃ part ∈ statements, ∃ own, Shown registry arena depth level part own ∧ line ∈ own) ∧
    ∀ part ∈ statements, ∃ own, Shown registry arena depth level part own ∧ own ⊆ lines := by
  induction statements generalizing pending lines after with
  | nil =>
    cases written
    exact ⟨nofun, nofun⟩
  | cons next rest ih =>
    cases rest with
    | nil =>
      have shown : Shown registry arena depth level next lines := by
        obtain ⟨kind, _, asked, -⟩ := Work.bind_eq_ok.mp written
        obtain ⟨known, -⟩ := Work.lift_eq_ok.mp asked
        rcases (sequence_last_eq_ok known).mp written with ⟨yields, value, -, rfl, -⟩ | ⟨-, shown⟩
        · exact .inr ⟨kind, value, known, (Bool.and_eq_true_iff.mp yields).2, rfl⟩
        · exact .inl ⟨_, _, shown⟩
      refine ⟨fun line isListed =>
        .inr ⟨next, List.mem_singleton_self next, lines, shown, isListed⟩, fun part isListed => ?_⟩
      cases List.mem_singleton.mp isListed
      exact ⟨lines, shown, List.Subset.refl lines⟩
    | cons second more =>
      obtain ⟨first, middle, kind, later, isFirst, -, isLater, rfl⟩ :=
        sequence_cons_eq_ok.mp written
      obtain ⟨within, parts⟩ := ih isLater
      have shown : Shown registry arena depth level next first := .inl ⟨_, _, isFirst⟩
      constructor
      · intro line isListed
        obtain (inFirst | inGap) | inLater := by simpa only [List.mem_append] using isListed
        · exact .inr ⟨next, List.mem_cons_self, first, shown, inFirst⟩
        · split at inGap
          · exact .inl (List.mem_singleton.mp inGap)
          · cases inGap
        · obtain isBlank | ⟨part, isPart, own⟩ := within line inLater
          · exact .inl isBlank
          · exact .inr ⟨part, List.mem_cons_of_mem next isPart, own⟩
      · rintro part (_ | ⟨_, isLaterPart⟩)
        · exact ⟨first, shown, fun line inFirst => by simp [inFirst]⟩
        · obtain ⟨own, shownToo, isListed⟩ := parts part isLaterPart
          exact ⟨own, shownToo, fun line isOwn => by simp [isListed isOwn]⟩

/-- The lines of a block are those of its variables and its statements. -/
theorem blockLines_spread {yields : Bool} {locals statements : ListRange}
    (written : blockLines registry arena (expression registry arena depth)
      (statement registry arena depth level) level yields (arena.list locals)
      (arena.list statements) pending = .ok (lines, after)) :
    Spread registry arena depth level (.block locals statements) lines := by
  obtain ⟨declared, _, shown, introduced, listed, rfl⟩ := blockLines_eq_ok.mp written
  obtain ⟨within, parts⟩ := sequence_shown listed
  refine ⟨fun line isListed => ?_, Bool.noConfusion, fun part deeper isPart => ?_⟩
  · obtain isDeclared | isShown := List.mem_append.mp isListed
    · exact .inr (.inl (introductions_level introduced line isDeclared))
    · obtain isBlank | ⟨part, isPart, own⟩ := within line isShown
      · exact .inl isBlank
      · obtain ⟨lines, isOwn⟩ := own
        exact .inr (.inr ⟨part, 0, lines, List.mem_map.mpr ⟨part, isPart, rfl⟩, isOwn⟩)
  · obtain ⟨_, isStatement, same⟩ := List.mem_map.mp isPart
    cases same
    obtain ⟨own, ownShown, isListed⟩ := parts part isStatement
    exact ⟨own, ownShown, fun line isOwn => List.mem_append_right _ (isListed isOwn)⟩

/-- The lines of a body in braces are the two braces and those of the body. -/
theorem mem_braced {line : Line} {body : List Line} : line ∈ braced level body ↔
    line = ⟨level, openBrace⟩ ∨ line ∈ body ∨ line = ⟨level, closeBrace⟩ := by
  simp [braced]

/-- A body under a header is written one level deeper. -/
theorem Spread.braced {header : Line} {body : NodeId} {own : List Line}
    (isHeader : header.level = level) (isPart : arena.innerStatements kind = [(body, 1)])
    (shown : Shown registry arena depth (level + 1) body own) :
    Spread registry arena depth level kind (header :: braced level own) where
  within line isListed := by
    obtain rfl | isInside := List.mem_cons.mp isListed
    · exact .inr (.inl isHeader)
    · obtain rfl | isOwn | rfl := mem_braced.mp isInside
      · exact .inr (.inl rfl)
      · exact .inr (.inr ⟨body, 1, own, by simp [isPart], shown, isOwn⟩)
      · exact .inr (.inl rfl)
  own _ := ⟨header, List.mem_cons_self, isHeader⟩
  parts part deeper isListed := by
    rw [isPart] at isListed
    cases List.mem_singleton.mp isListed
    exact ⟨own, shown, fun line isOwn =>
      List.mem_cons_of_mem header (mem_braced.mpr (.inr (.inl isOwn)))⟩

/-- Two bodies under headers are written one level deeper. -/
theorem Spread.bracedPair {header between : Line} {first second : NodeId}
    {own other : List Line} (isHeader : header.level = level) (isBetween : between.level = level)
    (areParts : arena.innerStatements kind = [(first, 1), (second, 1)])
    (shown : Shown registry arena depth (level + 1) first own)
    (shownToo : Shown registry arena depth (level + 1) second other) :
    Spread registry arena depth level kind
      (header :: Source.braced level own ++ between :: Source.braced level other) where
  within line isListed := by
    simp only [List.mem_append, List.mem_cons, mem_braced] at isListed
    obtain (rfl | rfl | isOwn | rfl) | (rfl | rfl | isOther | rfl) := isListed
    · exact .inr (.inl isHeader)
    · exact .inr (.inl rfl)
    · exact .inr (.inr ⟨first, 1, own, by simp [areParts], shown, isOwn⟩)
    · exact .inr (.inl rfl)
    · exact .inr (.inl isBetween)
    · exact .inr (.inl rfl)
    · exact .inr (.inr ⟨second, 1, other, by simp [areParts], shownToo, isOther⟩)
    · exact .inr (.inl rfl)
  own _ := ⟨header, by simp, isHeader⟩
  parts part deeper isListed := by
    rw [areParts] at isListed
    obtain ⟨rfl, rfl⟩ | ⟨rfl, rfl⟩ := by simpa using isListed
    · exact ⟨own, shown, fun line isOwn => by simp [mem_braced, isOwn]⟩
    · exact ⟨other, shownToo, fun line isOther => by simp [mem_braced, isOther]⟩

/-- The lines of a statement are some at its own level and those of the statements that it is made
of. -/
theorem statement_spread (known : arena.kind id = .ok kind)
    (written : statement registry arena (depth + 1) level id pending = .ok (lines, after)) :
    Spread registry arena depth level kind lines := by
  cases kind with
  | block locals statements => exact blockLines_spread ((statement_of_block known).mp written)
  | ifThen test consequence =>
    obtain ⟨text, body, -, isBody, rfl⟩ := (statement_of_ifThen known).mp written
    exact .braced rfl rfl (.inl ⟨_, _, isBody⟩)
  | ifThenElse test consequence alternative =>
    obtain ⟨text, body, _, other, -, isBody, isOther, rfl⟩ :=
      (statement_of_ifThenElse known).mp written
    exact .bracedPair rfl rfl rfl (.inl ⟨_, _, isBody⟩) (.inl ⟨_, _, isOther⟩)
  | loop body exit =>
    obtain ⟨own, isBody, rfl⟩ := (statement_of_loop known).mp written
    exact .braced rfl rfl (.inl ⟨_, _, isBody⟩)
  | tryFinally body cleanup =>
    obtain ⟨own, _, other, isBody, isCleanup, rfl⟩ := (statement_of_tryFinally known).mp written
    exact .bracedPair rfl rfl rfl (.inl ⟨_, _, isBody⟩) (.inl ⟨_, _, isCleanup⟩)
  | breakTo label =>
    obtain ⟨rfl, -⟩ := (statement_of_breakTo known).mp written
    exact .single rfl rfl
  | assign target value =>
    obtain ⟨text, -, ⟨-, rfl, -⟩ | ⟨-, rfl, -⟩⟩ := (statement_of_assign known).mp written <;>
      exact .single rfl rfl
  | parameter | var | int | bool | null | addAssign | call | property | convert | notEqual
  | lambda =>
    obtain ⟨text, -, rfl, -⟩ :=
      (statement_of_expression known rfl fun _ _ same => by cases same).mp written
    exact .single rfl rfl

/-- The line that returns a value stands where the value does. -/
theorem returnLine_standing (known : arena.kind id = .ok kind) (isPlain : isExpression kind = true)
    (value : String) : Standing arena id level [returnLine level value] where
  within line isListed := by
    cases List.mem_singleton.mp isListed
    exact .inr ⟨id, 0, .refl id, rfl⟩
  reached inner innerKind levels stands _ _ := by
    cases stands with
    | refl => exact ⟨_, List.mem_singleton_self _, rfl⟩
    | inner found isPart _ =>
      cases known.symm.trans found
      rw [innerStatements_of_isExpression isPlain] at isPart
      cases isPart

/-- At every bound on nesting, the lines of a statement stand as deep as its statements. -/
theorem standing_of_shown (shown : Shown registry arena depth level id lines) :
    Standing arena id level lines := by
  induction depth generalizing level id lines with
  | zero =>
    obtain ⟨_, _, written⟩ | ⟨kind, value, known, isPlain, rfl⟩ := shown
    · cases written
    · exact returnLine_standing known isPlain value
  | succ depth ih =>
    obtain ⟨_, _, written⟩ | ⟨kind, value, known, isPlain, rfl⟩ := shown
    · obtain ⟨kind, _, asked, -⟩ := Work.bind_eq_ok.mp written
      obtain ⟨known, -⟩ := Work.lift_eq_ok.mp asked
      exact (statement_spread known written).standing known fun _ _ _ _ => ih
    · exact returnLine_standing known isPlain value

/-- The lines of a function's body stand as deep as its statements. -/
theorem bodyLines_standing {root : NodeId} {rootNode node : Node}
    (known : arena.node? root = some rootNode)
    (found : arena.node? (bodyOf arena root) = some node)
    (written : bodyLines registry arena root [] = .ok (lines, after)) :
    Standing arena (bodyOf arena root) 0 lines := by
  rw [bodyLines_eq known found] at written
  have isKind : arena.kind (bodyOf arena root) = .ok node.kind :=
    Arena.kind_eq_ok.mpr ⟨node, found, rfl⟩
  generalize bodyOf arena root = body at isKind written
  have plain (shown : (if node.type ≠ .void && isExpression node.kind then do
        return [returnLine 0 (← expression registry arena (depthBound arena) body)]
      else statement registry arena (depthBound arena) 0 body : Writing (List Line)) [] =
        .ok (lines, after)) : Standing arena body 0 lines := by
    split at shown
    next returns =>
      obtain ⟨value, _, -, shown⟩ := Work.bind_eq_ok.mp shown
      obtain ⟨rfl, rfl⟩ := Work.pure_eq_ok.mp shown
      exact returnLine_standing isKind (Bool.and_eq_true_iff.mp returns).2 value
    next => exact standing_of_shown (.inl ⟨_, _, shown⟩)
  cases sort : node.kind with
  | block locals statements =>
    rw [linesOfBody, sort] at written
    exact (blockLines_spread written).standing (sort ▸ isKind) fun _ _ _ _ => standing_of_shown
  | _ =>
    rw [linesOfBody, sort] at written
    rw [sort] at plain
    exact plain written

/-- There is a deepest line, unless there is none; then nothing is deeper than 0. -/
theorem exists_greatest (lines : List Line) : ∃ greatest,
    (greatest = 0 ∨ ∃ line ∈ lines, line.level = greatest) ∧
      ∀ line ∈ lines, line.level ≤ greatest := by
  cases largest : (lines.map Line.level).max? with
  | none =>
    obtain rfl := List.map_eq_nil_iff.mp (List.max?_eq_none_iff.mp largest)
    exact ⟨0, .inl rfl, nofun⟩
  | some greatest =>
    obtain ⟨isLevel, least⟩ := List.max?_eq_some_iff.mp largest
    exact ⟨greatest, .inr (List.mem_map.mp isLevel),
      fun line isListed => least _ (List.mem_map_of_mem isListed)⟩

/-- The spaces of all lines can be counted exactly if those of the deepest statement can. -/
theorem Standing.exists_deepest (standing : Standing arena id 0 lines) :
    ∃ deepest, arena.Deepest id deepest ∧ ∀ width,
      (∀ line ∈ lines, line.level * width < UInt64.size) ↔ deepest * width < UInt64.size := by
  obtain ⟨deepest, isSome, least⟩ := exists_greatest lines
  refine ⟨deepest, ⟨?_, fun inner kind levels stands known notBlock => ?_⟩, fun width => ?_⟩
  · obtain rfl | ⟨line, isListed, rfl⟩ := isSome
    · exact ⟨id, .refl id⟩
    · obtain rfl | ⟨inner, levels, stands, same⟩ := standing.within line isListed
      · exact ⟨id, .refl id⟩
      · exact ⟨inner, by rwa [same, Nat.zero_add]⟩
  · obtain ⟨line, isListed, same⟩ := standing.reached inner kind levels stands known notBlock
    have within := least line isListed
    omega
  · constructor
    · intro fit
      obtain rfl | ⟨line, isListed, rfl⟩ := isSome
      · rw [Nat.zero_mul]
        decide
      · exact fit line isListed
    · exact fun fits line isListed =>
        Nat.lt_of_le_of_lt (Nat.mul_le_mul_right width (least line isListed)) fits

end Levels

end Source

end Foreach
