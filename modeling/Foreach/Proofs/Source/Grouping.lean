import Foreach.Proofs.Source.Output
import Foreach.Proofs.Source.Phrases
import Foreach.Proofs.Tree.Reach

/-!
# What the text of an expression tells

An expression of words, signs, accesses to members and conversions is a phrase (`Arena.phrase`), and
its text consists of the tokens of that phrase, with names for what is named in them. Parentheses
stand around receivers and operands of conversions only, so the text does not tell how the operands
of signs are grouped: two expressions have the same text exactly if they are the same once all signs
of a row are grouped to the right (`Arena.Assembled.expressionText_eq_iff`). Two members of one name
are not told apart either.
-/
namespace Foreach

open Source Text

section Phrases

/-- The phrase of a node, with the bindings, members and types themselves, nested at most so deep.
Statements and functions are no phrases. -/
def Arena.phraseWithin (arena : Arena) : Nat → NodeId → Checked (Phrase NodeId MemberId TypeId)
  | 0, _ => .error .exhausted
  | depth + 1, id => do
    let node ← arena.node id
    match node.kind with
    | .parameter _ | .var _ => return .word (.binding id)
    | .int value => return .word (.int value)
    | .bool value => return .word (.bool value)
    | .null => return .word .null
    | .assign target value =>
      return .signed .assign (← arena.phraseWithin depth target) (← arena.phraseWithin depth value)
    | .addAssign target value =>
      return .signed .addAssign (← arena.phraseWithin depth target)
        (← arena.phraseWithin depth value)
    | .notEqual left right =>
      return .signed .notEqual (← arena.phraseWithin depth left) (← arena.phraseWithin depth right)
    | .call receiver method arguments =>
      let arguments ← (arena.list arguments).mapM (arena.phraseWithin depth)
      return .call (← arena.phraseWithin depth receiver) method arguments
    | .property receiver property => return .property (← arena.phraseWithin depth receiver) property
    | .convert operand => return .convert node.type (← arena.phraseWithin depth operand)
    | .lambda _ _ | .block _ _ | .ifThen _ _ | .ifThenElse _ _ _ | .loop _ _ | .breakTo _
    | .tryFinally _ _ => .error .violation

/-- The phrase of a node. -/
def Arena.phrase (arena : Arena) (id : NodeId) : Checked (Phrase NodeId MemberId TypeId) :=
  arena.phraseWithin (depthBound arena) id

/-- The name of a binding. -/
def Arena.bindingName (arena : Arena) (id : NodeId) : String :=
  ((arena.node? id).bind (·.kind.bindingName?)).getD ""

/-- The name of a member. -/
def Registry.memberName (registry : Registry) (member : MemberId) : String :=
  ((registry.member? member).map (·.name)).getD ""

/-- The name of a type, as the target of a conversion. -/
def Registry.targetName (registry : Registry) (type : TypeId) : String :=
  (registry.displayName type).toOption.getD ""

section Naming

variable {registry : Registry} {arena : Arena}

/-- A binding is named as its node says. -/
theorem Arena.bindingName_eq {id : NodeId} {node : Node} {name : String}
    (found : arena.node? id = some node) (isName : node.kind.bindingName? = some name) :
    arena.bindingName id = name := by
  rw [Arena.bindingName, found, Option.bind_some, isName, Option.getD_some]

/-- A member is named as its entry says. -/
theorem Registry.memberName_eq {member : MemberId} {entry : MemberEntry}
    (known : registry.member? member = some entry) : registry.memberName member = entry.name := by
  rw [Registry.memberName, known]
  rfl

/-- A type is named as in source text. -/
theorem Registry.targetName_eq {type : TypeId} {name : String}
    (named : registry.displayName type = .ok name) : registry.targetName type = name := by
  rw [Registry.targetName, named]
  rfl

end Naming

/-- A token with the names of what is named in it. -/
def Source.Token.spelled (registry : Registry) (arena : Arena) :
    Token NodeId MemberId TypeId → Token String String String :=
  Token.map arena.bindingName registry.memberName registry.targetName

/-- A phrase with the names of what is named in it. -/
def Source.Phrase.spelled (registry : Registry) (arena : Arena) :
    Phrase NodeId MemberId TypeId → Phrase String String String :=
  Phrase.map arena.bindingName registry.memberName registry.targetName

/-- Whether a node is a phrase: it is written inside a line, and it is no function. -/
def NodeKind.isPhrase : NodeKind → Bool
  | .lambda _ _ => false
  | kind => isExpression kind

/-- Whether a node is a conversion. -/
def NodeKind.isConversion : NodeKind → Bool
  | .convert _ => true
  | _ => false

/-- What a node is written with is read as what it is. -/
structure Node.Legible (registry : Registry) (node : Node) : Prop where
  /-- It is a phrase. -/
  phrase : node.kind.isPhrase = true
  /-- The name of a binding is an identifier that means nothing else. -/
  binding : ∀ name ∈ node.kind.bindingName?, isIdentifier name = true ∧ name ∉ reserved
  /-- An integer has no sign. -/
  number : ∀ value, node.kind = .int value → 0 ≤ value
  /-- The name of a member is an identifier. -/
  member : ∀ member ∈ node.kind.member?, ∀ entry ∈ registry.member? member,
    isIdentifier entry.name = true
  /-- The name of the type of a conversion is made of identifiers. -/
  target : node.kind.isConversion = true → registry.Spelt node.type

/-- What a tree is written with is read as what it is. -/
def Arena.Legible (registry : Registry) (arena : Arena) (root : NodeId) : Prop :=
  ∀ id node, arena.Reaches root id → arena.node? id = some node → node.Legible registry

/-- Whether a token comes from a node. -/
def Source.Token.ComesFrom (id : NodeId) (node : Node) : Token NodeId MemberId TypeId → Prop
  | .word (.binding binding) => binding = id ∧ node.kind.isBinding = true
  | .word (.int value) => node.kind = .int value
  | .member own => node.kind.member? = some own
  | .cast type => node.kind.isConversion = true ∧ node.type = type
  | .word (.bool _) | .word .null | .sign _ | .opening | .closing | .comma => True

/-- A token comes from a node of a tree. -/
def Arena.Mentions (arena : Arena) (root : NodeId) (token : Token NodeId MemberId TypeId) : Prop :=
  ∃ id node, arena.Reaches root id ∧ arena.node? id = some node ∧ token.ComesFrom id node

end Phrases

namespace Source

variable {registry : Registry} {arena : Arena} {root : NodeId}

/-- A text consists of tokens of a tree. -/
structure Consists (registry : Registry) (arena : Arena) (root : NodeId)
    (tokens : List (Token NodeId MemberId TypeId)) (text : String) : Prop where
  /-- The characters of the tokens are those of the text. -/
  characters : text.toList = charactersOf (tokens.map (Token.spelled registry arena))
  /-- The tokens come from nodes of the tree. -/
  mentions : ∀ token ∈ tokens, arena.Mentions root token

section Composition

variable {tokens more : List (Token NodeId MemberId TypeId)} {text later : String}

/-- Nothing consists of no tokens. -/
theorem consists_nil : Consists registry arena root [] "" := ⟨rfl, nofun⟩

/-- Texts in order consist of their tokens in order. -/
theorem Consists.append (consists : Consists registry arena root tokens text)
    (consistsToo : Consists registry arena root more later) :
    Consists registry arena root (tokens ++ more) (text ++ later) where
  characters := by
    rw [String.toList_append, consists.characters, consistsToo.characters, List.map_append,
      charactersOf, charactersOf, charactersOf, List.flatMap_append]
  mentions := List.forall_mem_append.mpr ⟨consists.mentions, consistsToo.mentions⟩

/-- A token that comes from a node is a text of its own. -/
theorem consists_token {token : Token NodeId MemberId TypeId} {node : Node}
    (found : arena.node? root = some node) (comes : token.ComesFrom root node)
    (characters : text.toList = (token.spelled registry arena).characters) :
    Consists registry arena root [token] text where
  characters := by rw [characters, List.map_singleton, charactersOf, List.flatMap_singleton]
  mentions := List.forall_mem_singleton.mpr ⟨root, node, .refl root, found, comes⟩

/-- What comes from a part of a tree comes from the tree. -/
theorem Consists.of_part {part : NodeId} (reached : arena.Reaches root part)
    (consists : Consists registry arena part tokens text) :
    Consists registry arena root tokens text where
  characters := consists.characters
  mentions token isListed := by
    obtain ⟨id, node, further, found, comes⟩ := consists.mentions token isListed
    exact ⟨id, node, reached.trans further, found, comes⟩

end Composition

section Writing

variable {depth : Nat} {id : NodeId} {node : Node} {text : String}

/-- A node is written as a phrase. -/
structure WritesPhrase (registry : Registry) (arena : Arena) (depth : Nat) (id : NodeId)
    (phrase : Phrase NodeId MemberId TypeId) (text : String) : Prop where
  /-- It is its phrase. -/
  isPhrase : arena.phraseWithin depth id = .ok phrase
  /-- The phrase needs parentheses if the node does. -/
  isAtomic : ∀ kind, arena.kind id = .ok kind → phrase.isAtomic = isAtomic kind
  /-- The text consists of the tokens of the phrase. -/
  consists : Consists registry arena id phrase.tokens text

/-- A receiver or operand is written as its phrase, in parentheses if it needs them. -/
theorem WritesPhrase.operand {phrase : Phrase NodeId MemberId TypeId} {kind : NodeKind}
    (writes : WritesPhrase registry arena depth id phrase text)
    (found : arena.node? root = some node) (isPart : id ∈ arena.children node.kind)
    (known : arena.kind id = .ok kind) :
    Consists registry arena root (Phrase.enclosed phrase.isAtomic phrase.tokens)
      (operandText kind text) := by
  have reached : arena.Reaches root id :=
    .child (Arena.kind_eq_ok.mpr ⟨_, found, rfl⟩) isPart (.refl id)
  have inside := writes.consists.of_part reached
  have opening : Consists registry arena root [.opening] "(" := consists_token found trivial rfl
  have closing : Consists registry arena root [.closing] ")" := consists_token found trivial rfl
  rw [writes.isAtomic kind known, Phrase.enclosed, operandText]
  split
  · exact inside
  · exact (opening.append inside).append closing

/-- The arguments of a call are written as their phrases, with commas between them. -/
theorem consists_arguments {arguments : List NodeId} {texts : List String}
    (found : arena.node? root = some node)
    (isPart : ∀ id ∈ arguments, id ∈ arena.children node.kind)
    (written : List.Forall₂
      (fun id text => ∃ phrase, WritesPhrase registry arena depth id phrase text) arguments texts) :
    ∃ phrases, List.Forall₂ (fun id phrase => arena.phraseWithin depth id = .ok phrase)
        arguments phrases ∧
      Consists registry arena root ([Token.comma].intercalate (phrases.map Phrase.tokens))
        (", ".intercalate texts) := by
  induction written with
  | nil => exact ⟨[], .nil, consists_nil⟩
  | @cons id text rest others first later ih =>
    obtain ⟨isChild, areChildren⟩ := List.forall_mem_cons.mp isPart
    obtain ⟨phrase, writes⟩ := first
    obtain ⟨phrases, arePhrases, consists⟩ := ih areChildren
    have reached : arena.Reaches root id :=
      .child (Arena.kind_eq_ok.mpr ⟨_, found, rfl⟩) isChild (.refl id)
    have own := writes.consists.of_part reached
    refine ⟨phrase :: phrases, .cons writes.isPhrase arePhrases, ?_⟩
    cases arePhrases with
    | nil =>
      cases later
      rw [List.map_singleton, List.intercalate_singleton, String.intercalate_singleton]
      exact own
    | cons =>
      cases later
      have comma : Consists registry arena root [.comma] ", " := consists_token found trivial rfl
      rw [List.map_cons, List.map_cons, List.intercalate_cons_cons, String.intercalate_cons_cons]
      exact (own.append comma).append consists

/-- An access to a member is written as its name, behind a point. -/
theorem consists_member {member : MemberId} {entry : MemberEntry}
    (found : arena.node? root = some node) (isMember : node.kind.member? = some member)
    (known : registry.member? member = some entry) :
    Consists registry arena root [.member member] ("." ++ entry.name) := by
  refine consists_token found isMember ?_
  rw [← Registry.memberName_eq known, String.toList_append]
  rfl

/-- A node that is found is written as a phrase that it is. -/
theorem writesPhrase_of_found {phrase : Phrase NodeId MemberId TypeId}
    (found : arena.node? id = some node) (isAtomic : phrase.isAtomic = isAtomic node.kind)
    (isPhrase : arena.phraseWithin depth id = .ok phrase)
    (consists : Consists registry arena id phrase.tokens text) :
    WritesPhrase registry arena depth id phrase text where
  isPhrase := isPhrase
  isAtomic kind known := by
    cases known.symm.trans (Arena.kind_eq_ok.mpr ⟨node, found, rfl⟩)
    exact isAtomic
  consists := consists

section Parts

variable {type : TypeId} {part : NodeId} {member : MemberId} {entry : MemberEntry}
  {phrase : Phrase NodeId MemberId TypeId} {kind : NodeKind}

/-- A reading of a property is written as its phrase, if the receiver is. -/
theorem WritesPhrase.property (writes : WritesPhrase registry arena depth part phrase text)
    (found : arena.node? id = some ⟨.property part member, type⟩)
    (known : arena.kind part = .ok kind) (isMember : registry.member? member = some entry) :
    WritesPhrase registry arena (depth + 1) id (.property phrase member)
      (operandText kind text ++ "." ++ entry.name) := by
  have opened := writes.operand found (by simp [Arena.children]) known
  refine writesPhrase_of_found found rfl (Work.checked_bind_eq_ok.mpr ⟨_,
    Checked.ofOption_eq_ok.mpr found, Work.checked_bind_eq_ok.mpr ⟨_, writes.isPhrase, rfl⟩⟩) ?_
  rw [Phrase.tokens, String.append_assoc]
  exact opened.append (consists_member found rfl isMember)

/-- A call is written as its phrase, if the receiver and the arguments are. -/
theorem WritesPhrase.call {arguments : ListRange} {texts : List String}
    (writes : WritesPhrase registry arena depth part phrase text)
    (found : arena.node? id = some ⟨.call part member arguments, type⟩)
    (known : arena.kind part = .ok kind) (isMember : registry.member? member = some entry)
    (written : List.Forall₂
      (fun id text => ∃ phrase, WritesPhrase registry arena depth id phrase text)
      (arena.list arguments) texts) :
    ∃ phrases, WritesPhrase registry arena (depth + 1) id (.call phrase member phrases)
      (operandText kind text ++ "." ++ entry.name ++ "(" ++ ", ".intercalate texts ++ ")") := by
  obtain ⟨phrases, arePhrases, between⟩ := consists_arguments found
    (fun argument isListed => List.mem_cons_of_mem part isListed) written
  have opened := writes.operand found (by simp [Arena.children]) known
  have opening : Consists registry arena id [.opening] "(" := consists_token found trivial rfl
  have closing : Consists registry arena id [.closing] ")" := consists_token found trivial rfl
  have whole := (((opened.append (consists_member found rfl isMember)).append opening).append
    between).append closing
  refine ⟨phrases, writesPhrase_of_found found rfl (Work.checked_bind_eq_ok.mpr ⟨_,
    Checked.ofOption_eq_ok.mpr found, Work.checked_bind_eq_ok.mpr ⟨_,
      Work.mapM_eq_ok.mpr arePhrases,
      Work.checked_bind_eq_ok.mpr ⟨_, writes.isPhrase, rfl⟩⟩⟩) ?_⟩
  rw [Phrase.tokens, Phrase.tokensOfEach_eq_map]
  simpa [String.append_assoc] using whole

/-- A conversion is written as its phrase, if the operand is. -/
theorem WritesPhrase.convert {name : String}
    (writes : WritesPhrase registry arena depth part phrase text)
    (found : arena.node? id = some ⟨.convert part, type⟩)
    (known : arena.kind part = .ok kind) (named : registry.displayName type = .ok name) :
    WritesPhrase registry arena (depth + 1) id (.convert type phrase)
      ("(" ++ name ++ ")" ++ operandText kind text) := by
  have behind := writes.operand found (by simp [Arena.children]) known
  have cast : Consists registry arena id [.cast type] ("(" ++ name ++ ")") := by
    refine consists_token found ⟨rfl, rfl⟩ ?_
    rw [← Registry.targetName_eq named, String.toList_append, String.toList_append]
    rfl
  exact writesPhrase_of_found found rfl (Work.checked_bind_eq_ok.mpr ⟨_,
    Checked.ofOption_eq_ok.mpr found, Work.checked_bind_eq_ok.mpr ⟨_, writes.isPhrase, rfl⟩⟩)
    (cast.append behind)

end Parts

/-- A node that is legible is written as its phrase. -/
theorem exists_writesPhrase (legible : arena.Legible registry id)
    (written : expression registry arena depth id = .ok text) :
    ∃ phrase, WritesPhrase registry arena depth id phrase text := by
  induction depth generalizing id text with
  | zero => cases written
  | succ depth ih =>
    obtain ⟨⟨kind, type⟩, isNode, -⟩ := Work.checked_bind_eq_ok.mp written
    have found : arena.node? id = some ⟨kind, type⟩ := Checked.ofOption_eq_ok.mp isNode
    have own := legible id _ (.refl id) found
    have known : arena.kind id = .ok kind := Arena.kind_eq_ok.mpr ⟨_, found, rfl⟩
    have part {child : NodeId} {text : String} (isChild : child ∈ arena.children kind)
        (written : expression registry arena depth child = .ok text) :
        ∃ phrase, WritesPhrase registry arena depth child phrase text ∧
          Consists registry arena id phrase.tokens text := by
      obtain ⟨phrase, writes⟩ :=
        ih (fun other node reached => legible other node (.child known isChild reached)) written
      exact ⟨phrase, writes, writes.consists.of_part (.child known isChild (.refl child))⟩
    cases kind with
    | parameter name | var name =>
      obtain rfl := (expression_of_word known rfl).mp written
      exact ⟨.word (.binding id), writesPhrase_of_found found rfl
        (Work.checked_bind_eq_ok.mpr ⟨_, isNode, rfl⟩) (consists_token found ⟨rfl, rfl⟩
          (congrArg String.toList (Arena.bindingName_eq found rfl).symm))⟩
    | int value =>
      obtain rfl := (expression_of_word known rfl).mp written
      exact ⟨.word (.int value), writesPhrase_of_found found rfl
        (Work.checked_bind_eq_ok.mpr ⟨_, isNode, rfl⟩) (consists_token found rfl rfl)⟩
    | bool | null =>
      obtain rfl := (expression_of_word known rfl).mp written
      exact ⟨.word _, writesPhrase_of_found found rfl
        (Work.checked_bind_eq_ok.mpr ⟨_, isNode, rfl⟩) (consists_token found trivial rfl)⟩
    | assign left right | addAssign left right | notEqual left right =>
      obtain ⟨first, second, isFirst, isSecond, rfl⟩ := (expression_of_sign known rfl).mp written
      obtain ⟨before, writesLeft, inFront⟩ := part (by simp [Arena.children]) isFirst
      obtain ⟨after, writesRight, behind⟩ := part (by simp [Arena.children]) isSecond
      refine ⟨.signed _ before after, writesPhrase_of_found found rfl
        (Work.checked_bind_eq_ok.mpr ⟨_, isNode, Work.checked_bind_eq_ok.mpr ⟨_,
          writesLeft.isPhrase, Work.checked_bind_eq_ok.mpr ⟨_, writesRight.isPhrase, rfl⟩⟩⟩) ?_⟩
      rw [Phrase.tokens, List.append_cons]
      refine (inFront.append ?_).append behind
      exact consists_token found trivial rfl
    | call receiver method arguments =>
      obtain ⟨texts, receiverText, _, entry, listed, isReceiver, receiverKnown, isMember, rfl⟩ :=
        (expression_of_call known).mp written
      obtain ⟨front, writesReceiver, -⟩ := part (by simp [Arena.children]) isReceiver
      have areChildren : ∀ argument ∈ arena.list arguments, argument ∈
          arena.children (.call receiver method arguments) :=
        fun argument isListed => List.mem_cons_of_mem receiver isListed
      have each := (List.forall₂_and_left ..).mpr ⟨areChildren, Work.mapM_eq_ok.mp listed⟩
      obtain ⟨phrases, writes⟩ := writesReceiver.call found receiverKnown isMember
        (each.imp fun argument text own => (part own.1 own.2).imp fun _ => And.left)
      exact ⟨_, writes⟩
    | property receiver member =>
      obtain ⟨receiverText, _, entry, isReceiver, receiverKnown, isMember, rfl⟩ :=
        (expression_of_property known).mp written
      obtain ⟨front, writesReceiver, -⟩ := part (by simp [Arena.children]) isReceiver
      exact ⟨_, writesReceiver.property found receiverKnown isMember⟩
    | convert value =>
      have typed : arena.typeOf id = .ok type := Arena.typeOf_eq_ok.mpr ⟨_, found, rfl⟩
      obtain ⟨typeName, valueText, _, isTypeName, isValue, valueKnown, rfl⟩ :=
        (expression_of_convert known typed).mp written
      obtain ⟨operand, writesOperand, -⟩ := part (by simp [Arena.children]) isValue
      exact ⟨_, writesOperand.convert found valueKnown isTypeName⟩
    | lambda | block | ifThen | ifThenElse | loop | breakTo | tryFinally => cases own.phrase

/-- The tokens of a legible tree are legible once they are spelled. -/
theorem legible_spelled (closed : registry.Closed) (formed : arena.Formed registry)
    (legible : arena.Legible registry root) {token : Token NodeId MemberId TypeId}
    (mentioned : arena.Mentions root token) : (token.spelled registry arena).Legible := by
  obtain ⟨id, node, reached, found, comes⟩ := mentioned
  have own := legible id node reached found
  have suits := formed id node found
  cases token with
  | word word =>
    cases word with
    | binding binding =>
      obtain ⟨rfl, isBinding⟩ := comes
      obtain ⟨name, isName⟩ := Option.isSome_iff_exists.mp isBinding
      have legible := own.binding name isName
      rw [← Arena.bindingName_eq found isName] at legible
      exact legible
    | int value => exact own.number value comes
    | bool | null => trivial
  | member member =>
    obtain ⟨entry, known⟩ := Registry.hasMember_iff.mp (suits.member member comes)
    have legible := own.member member comes entry known
    rw [← Registry.memberName_eq known] at legible
    exact legible
  | cast type =>
    obtain ⟨isConversion, rfl⟩ := comes
    obtain ⟨name, named⟩ := closed.displayName_ok suits.typed
    have legible := (own.target isConversion).isTypeName named
    rw [← Registry.targetName_eq named] at legible
    exact legible
  | sign | opening | closing | comma => trivial

/-- A legible tree of a formed arena has a phrase and a text, and the text has the characters of the
phrase. -/
theorem exists_phrase (closed : registry.Closed) (formed : arena.Formed registry)
    (has : arena.Has id) (legible : arena.Legible registry id) :
    ∃ phrase text, arena.phrase id = .ok phrase ∧ expressionText registry arena id = .ok text ∧
      text.toList = charactersOf (phrase.spelled registry arena).tokens ∧
      (∀ token ∈ (phrase.spelled registry arena).tokens, token.Legible) ∧
      ∀ token ∈ phrase.tokens, arena.Mentions id token := by
  obtain ⟨text, written, -⟩ := (Formed.within_bound closed formed has).plain
  obtain ⟨phrase, isPhrase, -, characters, mentions⟩ := exists_writesPhrase legible written
  have spelled : (phrase.spelled registry arena).tokens =
      phrase.tokens.map (Token.spelled registry arena) := Phrase.tokens_map ..
  refine ⟨phrase, text, isPhrase, written, by rw [characters, spelled], ?_, mentions⟩
  rw [spelled]
  exact List.forall_mem_map.mpr fun token isListed =>
    legible_spelled closed formed legible (mentions token isListed)

end Writing

end Source

/-- A token comes from a node of one of two trees. -/
def Arena.Mentioned (arena : Arena) (first second : NodeId)
    (token : Token NodeId MemberId TypeId) : Prop :=
  arena.Mentions first token ∨ arena.Mentions second token

/-- What is named in two trees has names of its own. -/
structure Arena.Distinct (registry : Registry) (arena : Arena) (first second : NodeId) : Prop where
  /-- Two bindings have two names. -/
  bindings : ∀ id other, arena.Mentioned first second (.word (.binding id)) →
    arena.Mentioned first second (.word (.binding other)) →
    arena.bindingName id = arena.bindingName other → id = other
  /-- Two members have two names. -/
  members : ∀ member other, arena.Mentioned first second (.member member) →
    arena.Mentioned first second (.member other) →
    registry.memberName member = registry.memberName other → member = other
  /-- Two types of conversions have two names. -/
  targets : ∀ type other, arena.Mentioned first second (.cast type) →
    arena.Mentioned first second (.cast other) →
    registry.targetName type = registry.targetName other → type = other

/-- Tokens of two trees are known from how they are spelled, if what is named in them has names of
its own. -/
theorem Arena.Distinct.eq_of_spelled {registry : Registry} {arena : Arena} {first second : NodeId}
    (distinct : arena.Distinct registry first second) {token other : Token NodeId MemberId TypeId}
    (mentioned : arena.Mentioned first second token)
    (mentionedToo : arena.Mentioned first second other)
    (same : token.spelled registry arena = other.spelled registry arena) : token = other := by
  cases token with
  | word word =>
    cases other with
    | word otherWord =>
      cases word with
      | binding id =>
        cases otherWord with
        | binding other =>
          have names : arena.bindingName id = arena.bindingName other := by
            simpa [Token.spelled, Token.map, Word.map] using same
          rw [distinct.bindings id other mentioned mentionedToo names]
        | _ => cases same
      | int | bool | null =>
        cases otherWord <;> cases same
        rfl
    | _ => cases same
  | member member =>
    cases other with
    | member other =>
      have names : registry.memberName member = registry.memberName other := by
        simpa [Token.spelled, Token.map] using same
      rw [distinct.members member other mentioned mentionedToo names]
    | _ => cases same
  | cast type =>
    cases other with
    | cast other =>
      have names : registry.targetName type = registry.targetName other := by
        simpa [Token.spelled, Token.map] using same
      rw [distinct.targets type other mentioned mentionedToo names]
    | _ => cases same
  | sign | opening | closing | comma =>
    cases other <;> cases same
    rfl

/-- Rows of tokens of two trees are known from how they are spelled, if what is named in them has
names of its own. -/
theorem Arena.Distinct.tokens_eq {registry : Registry} {arena : Arena} {first second : NodeId}
    (distinct : arena.Distinct registry first second)
    {tokens others : List (Token NodeId MemberId TypeId)}
    (mentioned : ∀ token ∈ tokens, arena.Mentioned first second token)
    (mentionedToo : ∀ token ∈ others, arena.Mentioned first second token)
    (same : tokens.map (Token.spelled registry arena) = others.map (Token.spelled registry arena)) :
    tokens = others := by
  induction tokens generalizing others with
  | nil => exact (List.map_eq_nil_iff.mp same.symm).symm
  | cons token rest ih =>
    obtain ⟨other, more, rfl, isFirst, isRest⟩ := List.map_eq_cons_iff.mp same.symm
    obtain ⟨own, ownRest⟩ := List.forall_mem_cons.mp mentioned
    obtain ⟨ownToo, ownRestToo⟩ := List.forall_mem_cons.mp mentionedToo
    rw [distinct.eq_of_spelled own ownToo isFirst.symm, ih ownRest ownRestToo isRest.symm]

/-- For any two expressions that constructors make, without statements and functions in them, with
identifiers for the names of bindings, members and types, and with integers without a sign: both
have a text, and the texts are the same exactly if the expressions, with names for what is named in
them, are the same once all signs of a row are grouped to the right. If what is named has names of
its own, it is the expressions themselves that are the same once they are regrouped; and if also no
operand in front of a sign has a sign itself, they are the same as they are. -/
theorem Arena.Assembled.expressionText_eq_iff {registry : Registry} {arena : Arena}
    {first second : NodeId} (complete : registry.Complete) (assembled : arena.Assembled registry)
    (has : arena.Has first) (hasToo : arena.Has second) (legible : arena.Legible registry first)
    (legibleToo : arena.Legible registry second) :
    ∃ phrase other text more, arena.phrase first = .ok phrase ∧ arena.phrase second = .ok other ∧
      expressionText registry arena first = .ok text ∧
      expressionText registry arena second = .ok more ∧
      (text = more ↔
        (phrase.spelled registry arena).regrouped = (other.spelled registry arena).regrouped) ∧
      (arena.Distinct registry first second →
        (text = more ↔ phrase.regrouped = other.regrouped) ∧
          (phrase.LeansRight → other.LeansRight → (text = more ↔ phrase = other))) := by
  have formed := assembled.formed complete
  obtain ⟨phrase, text, isPhrase, written, characters, areLegible, mentions⟩ :=
    exists_phrase complete.toClosed formed has legible
  obtain ⟨other, more, isOther, writtenToo, charactersToo, areLegibleToo, mentionsToo⟩ :=
    exists_phrase complete.toClosed formed hasToo legibleToo
  have sameText : text = more ↔ charactersOf (phrase.spelled registry arena).tokens =
      charactersOf (other.spelled registry arena).tokens := by
    rw [← String.toList_inj, characters, charactersToo]
  have regrouped : text = more ↔
      (phrase.spelled registry arena).regrouped = (other.spelled registry arena).regrouped :=
    sameText.trans (charactersOf_tokens_eq_iff areLegible areLegibleToo)
  refine ⟨phrase, other, text, more, isPhrase, isOther, written, writtenToo, regrouped,
    fun distinct => ?_⟩
  have itself : text = more ↔ phrase.regrouped = other.regrouped := by
    rw [← tokens_eq_iff]
    constructor
    · intro same
      have spelled := tokens_eq_iff.mpr (regrouped.mp same)
      rw [Phrase.spelled, Phrase.tokens_map, Phrase.tokens_map] at spelled
      exact distinct.tokens_eq (fun token isListed => .inl (mentions token isListed))
        (fun token isListed => .inr (mentionsToo token isListed)) spelled
    · intro same
      rw [sameText, Phrase.spelled, Phrase.tokens_map, Phrase.tokens_map, same]
  refine ⟨itself, fun leans leansToo => ?_⟩
  rw [itself, leans.regrouped_eq, leansToo.regrouped_eq]

section Samples

open Construction

/-- Expressions of an arena keep their grouping: two that have the same text are the same, if what
is named in them has names of its own. -/
def Arena.KeepsGrouping (registry : Registry) (arena : Arena) : Prop :=
  ∀ first second, arena.Has first → arena.Has second → arena.Legible registry first →
    arena.Legible registry second → arena.Distinct registry first second →
    expressionText registry arena first = expressionText registry arena second →
    arena.phrase first = arena.phrase second

/-- Comparisons of three flags, of which the first two or the last two are compared first. -/
def comparisons : Arena where
  nodes := #[⟨.parameter "a", .bool⟩, ⟨.parameter "b", .bool⟩, ⟨.parameter "c", .bool⟩,
    ⟨.notEqual ⟨0⟩ ⟨1⟩, .bool⟩, ⟨.notEqual ⟨3⟩ ⟨2⟩, .bool⟩, ⟨.notEqual ⟨1⟩ ⟨2⟩, .bool⟩,
    ⟨.notEqual ⟨0⟩ ⟨5⟩, .bool⟩]
  lists := #[]
  labels := 0

/-- Constructors fill the arena of the comparisons. -/
theorem comparisons_assembled : comparisons.Assembled .initial := by
  have a := Arena.Assembled.node .empty
    (.parameter "a" (by decide) : Step .initial _ (parameter "a" .bool)) rfl
  have b := Arena.Assembled.node a
    (.parameter "b" (by decide) : Step .initial _ (parameter "b" .bool)) rfl
  have c := Arena.Assembled.node b
    (.parameter "c" (by decide) : Step .initial _ (parameter "c" .bool)) rfl
  have ab := Arena.Assembled.node c (.notEqual (by decide) (by decide) :
    Step .initial _ (notEqual ⟨0⟩ ⟨1⟩)) rfl
  have left := Arena.Assembled.node ab (.notEqual (by decide) (by decide) :
    Step .initial _ (notEqual ⟨3⟩ ⟨2⟩)) rfl
  have bc := Arena.Assembled.node left (.notEqual (by decide) (by decide) :
    Step .initial _ (notEqual ⟨1⟩ ⟨2⟩)) rfl
  exact .node bc (.notEqual (by decide) (by decide) :
    Step .initial _ (notEqual ⟨0⟩ ⟨5⟩)) rfl

/-- A node of the comparisons is one of seven. -/
theorem comparisons_nodes {id : NodeId} {node : Node} (found : comparisons.node? id = some node) :
    node ∈ comparisons.nodes.toList :=
  Array.mem_toList_iff.mpr (Array.mem_of_getElem? found)

/-- The comparisons are legible. -/
theorem comparisons_legible (root : NodeId) : comparisons.Legible .initial root := by
  intro id node _ found
  have isNode := comparisons_nodes found
  clear found
  simp only [comparisons, List.mem_cons, List.not_mem_nil, or_false] at isNode
  obtain rfl | rfl | rfl | rfl | rfl | rfl | rfl := isNode
  all_goals exact ⟨rfl, by decide, nofun, nofun, nofun⟩

/-- What is named in the comparisons has names of its own. -/
theorem comparisons_distinct (first second : NodeId) :
    comparisons.Distinct .initial first second := by
  have comes {token : Token NodeId MemberId TypeId}
      (mentioned : comparisons.Mentioned first second token) :
      ∃ id node, comparisons.node? id = some node ∧ token.ComesFrom id node := by
    obtain ⟨id, node, -, found⟩ | ⟨id, node, -, found⟩ := mentioned
    · exact ⟨id, node, found⟩
    · exact ⟨id, node, found⟩
  have plain {id : NodeId} {node : Node} (found : comparisons.node? id = some node) :
      node.kind.member? = none ∧ node.kind.isConversion = false := by
    have isNode := comparisons_nodes found
    clear found
    revert node
    decide +kernel
  have isFlag {id : NodeId}
      (mentioned : comparisons.Mentioned first second (.word (.binding id))) :
      id ∈ [⟨0⟩, ⟨1⟩, (⟨2⟩ : NodeId)] := by
    obtain ⟨_, node, found, rfl, isBinding⟩ := comes mentioned
    have inside : id.index < 7 := Arena.has_iff.mpr ⟨node, found⟩
    have each : ∀ index : Fin 7, (comparisons.node? ⟨index⟩).any (·.kind.isBinding) = true →
        (⟨index⟩ : NodeId) ∈ [⟨0⟩, ⟨1⟩, (⟨2⟩ : NodeId)] := by
      decide +kernel
    refine each ⟨id.index, inside⟩ ?_
    show (comparisons.node? id).any (·.kind.isBinding) = true
    rw [found]
    exact isBinding
  have apart : ∀ id ∈ [⟨0⟩, ⟨1⟩, (⟨2⟩ : NodeId)], ∀ other ∈ [⟨0⟩, ⟨1⟩, (⟨2⟩ : NodeId)],
      comparisons.bindingName id = comparisons.bindingName other → id = other := by
    decide +kernel
  refine ⟨fun id other isId isOther => apart id (isFlag isId) other (isFlag isOther),
    fun member other isMember _ => ?_, fun type other isType _ => ?_⟩
  · obtain ⟨id, node, found, same⟩ := comes isMember
    cases (plain found).1.symm.trans same
  · obtain ⟨id, node, found, isConversion, -⟩ := comes isType
    cases (plain found).2.symm.trans isConversion

/-- Both comparisons of three flags have one text, and they are the same once they are regrouped. -/
theorem comparisons_expressionText_eq : ∃ left right,
    comparisons.phrase ⟨4⟩ = .ok left ∧ comparisons.phrase ⟨6⟩ = .ok right ∧
      left.regrouped = right.regrouped ∧
        expressionText .initial comparisons ⟨4⟩ = expressionText .initial comparisons ⟨6⟩ := by
  obtain ⟨left, right, text, more, isLeft, isRight, written, writtenToo, -, itself⟩ :=
    Arena.Assembled.expressionText_eq_iff Registry.initial_complete comparisons_assembled
      (by decide : comparisons.Has ⟨4⟩) (by decide : comparisons.Has ⟨6⟩) (comparisons_legible _)
      (comparisons_legible _)
  have same : expressionText .initial comparisons ⟨4⟩ =
      expressionText .initial comparisons ⟨6⟩ := by
    decide +kernel
  have isText : text = more := Except.ok.inj (written.symm.trans (same.trans writtenToo))
  exact ⟨left, right, isLeft, isRight, (itself (comparisons_distinct ⟨4⟩ ⟨6⟩)).1.mp isText, same⟩

/-- Which two of the three flags are compared first cannot be told from the text. -/
theorem comparisons_not_keepsGrouping : comparisons.Assembled .initial ∧
    expressionText .initial comparisons ⟨4⟩ = .ok "a != b != c" ∧
    expressionText .initial comparisons ⟨6⟩ = .ok "a != b != c" ∧
    ¬ comparisons.KeepsGrouping .initial := by
  have left : expressionText .initial comparisons ⟨4⟩ = .ok "a != b != c" := by decide +kernel
  have right : expressionText .initial comparisons ⟨6⟩ = .ok "a != b != c" := by decide +kernel
  refine ⟨comparisons_assembled, left, right, fun keeps => ?_⟩
  have same := keeps ⟨4⟩ ⟨6⟩ (by decide) (by decide) (comparisons_legible _)
    (comparisons_legible _) (comparisons_distinct _ _) (left.trans right.symm)
  cases same

end Samples

end Foreach
