import Foreach.Proofs.Source.Tokens

/-!
# Phrases

An expression is a phrase: words, with signs between operands, accesses to members, and conversions.
It is written as a row of tokens, with parentheses around a receiver or the operand of a conversion
that has a sign or is a conversion itself, and without any around the operands of a sign. So a row
may stand for any grouping of its signs. `Phrase.regrouped` is the phrase with all of them grouped
to the right, and a row of tokens is read as this phrase (`read_tokens`): the reading keeps a stack
of the parentheses that are open, and what it knows at each level is what the operands in front make
of the rest of their row. Two phrases are written as the same row exactly if they are the same once
they are regrouped (`tokens_eq_iff`).
-/
namespace Foreach.Source

/-- An expression. Bindings, members and types are themselves in it, or their names. -/
inductive Phrase (Binding Member Target : Type) where
  /-- An operand without parts. -/
  | word (word : Word Binding)
  /-- Two operands with a sign between them. -/
  | signed (sign : Sign) (left right : Phrase Binding Member Target)
  /-- A property is read. -/
  | property (receiver : Phrase Binding Member Target) (member : Member)
  /-- A method is called. -/
  | call (receiver : Phrase Binding Member Target) (member : Member)
    (arguments : List (Phrase Binding Member Target))
  /-- A value is taken as one of a type. -/
  | convert (target : Target) (operand : Phrase Binding Member Target)

namespace Phrase

variable {Binding Member Target : Type}

/-- What is known of a phrase if it is known of its parts is known of every phrase. -/
@[induction_eliminator]
theorem induction {motive : Phrase Binding Member Target → Prop}
    (word : ∀ own, motive (.word own))
    (signed : ∀ sign left right, motive left → motive right → motive (.signed sign left right))
    (property : ∀ receiver member, motive receiver → motive (.property receiver member))
    (call : ∀ receiver member arguments, motive receiver →
      (∀ argument ∈ arguments, motive argument) → motive (.call receiver member arguments))
    (convert : ∀ target operand, motive operand → motive (.convert target operand))
    (phrase : Phrase Binding Member Target) : motive phrase :=
  @Phrase.rec Binding Member Target motive (fun phrases => ∀ phrase ∈ phrases, motive phrase)
    word signed property call convert (fun _ isListed => nomatch isListed)
    (fun _ _ first others => List.forall_mem_cons.mpr ⟨first, others⟩) phrase

/-- Whether a phrase needs no parentheses as a receiver or operand. -/
def isAtomic : Phrase Binding Member Target → Bool
  | word _ | property _ _ | call _ _ _ => true
  | signed _ _ _ | convert _ _ => false

/-- The tokens of a receiver or operand, given those of its phrase. -/
def enclosed (atomic : Bool) (tokens : List (Token Binding Member Target)) :
    List (Token Binding Member Target) :=
  if atomic then tokens else .opening :: (tokens ++ [.closing])

mutual

/-- The tokens that a phrase is written as. -/
def tokens : Phrase Binding Member Target → List (Token Binding Member Target)
  | .word own => [.word own]
  | .signed sign left right => left.tokens ++ .sign sign :: right.tokens
  | .property receiver member => enclosed receiver.isAtomic receiver.tokens ++ [.member member]
  | .call receiver member arguments =>
    enclosed receiver.isAtomic receiver.tokens ++ .member member :: .opening ::
      ([Token.comma].intercalate (tokensOfEach arguments) ++ [.closing])
  | .convert target operand => .cast target :: enclosed operand.isAtomic operand.tokens

/-- The tokens of each phrase of a list. -/
def tokensOfEach : List (Phrase Binding Member Target) → List (List (Token Binding Member Target))
  | [] => []
  | first :: rest => first.tokens :: tokensOfEach rest

end

/-- A phrase with a sign and an operand behind its last operand. -/
def joined : Phrase Binding Member Target → Sign → Phrase Binding Member Target →
    Phrase Binding Member Target
  | .signed first left right, sign, last => .signed first left (right.joined sign last)
  | phrase, sign, last => .signed sign phrase last

mutual

/-- The phrase with all signs of a row grouped to the right. -/
def regrouped : Phrase Binding Member Target → Phrase Binding Member Target
  | .word own => .word own
  | .signed sign left right => left.regrouped.joined sign right.regrouped
  | .property receiver member => .property receiver.regrouped member
  | .call receiver member arguments => .call receiver.regrouped member (regroupedEach arguments)
  | .convert target operand => .convert target operand.regrouped

/-- Each phrase of a list with its signs grouped to the right. -/
def regroupedEach : List (Phrase Binding Member Target) → List (Phrase Binding Member Target)
  | [] => []
  | first :: rest => first.regrouped :: regroupedEach rest

end

/-- The tokens of each phrase are listed in order. -/
theorem tokensOfEach_eq_map (phrases : List (Phrase Binding Member Target)) :
    tokensOfEach phrases = phrases.map tokens := by
  induction phrases with
  | nil => rfl
  | cons first rest ih => rw [tokensOfEach, ih, List.map_cons]

/-- Each phrase of a list is regrouped on its own. -/
theorem regroupedEach_eq_map (phrases : List (Phrase Binding Member Target)) :
    regroupedEach phrases = phrases.map regrouped := by
  induction phrases with
  | nil => rfl
  | cons first rest ih => rw [regroupedEach, ih, List.map_cons]

section Joining

variable (phrase last : Phrase Binding Member Target)

/-- What stands behind a phrase is written behind it. -/
theorem tokens_joined (sign : Sign) :
    (phrase.joined sign last).tokens = phrase.tokens ++ .sign sign :: last.tokens := by
  induction phrase with
  | signed first left right _ ih => rw [joined, tokens, ih, tokens, List.append_assoc]; rfl
  | _ => rfl

/-- Signs of a row are grouped to the right in any order. -/
theorem joined_assoc (middle : Phrase Binding Member Target) (sign other : Sign) :
    (phrase.joined sign middle).joined other last =
      phrase.joined sign (middle.joined other last) := by
  induction phrase with
  | signed first left right _ ih => rw [joined, joined, joined, ih]
  | _ => rfl

/-- A phrase needs parentheses exactly if it does once it is regrouped. -/
theorem isAtomic_regrouped : phrase.regrouped.isAtomic = phrase.isAtomic := by
  cases phrase with
  | signed sign left right =>
    rw [regrouped]
    cases left.regrouped <;> rfl
  | _ => rfl

/-- A phrase is written like the phrase that is grouped to the right. -/
theorem tokens_regrouped : phrase.regrouped.tokens = phrase.tokens := by
  induction phrase with
  | word own => rfl
  | signed sign left right ihLeft ihRight =>
    rw [regrouped, tokens_joined, ihLeft, ihRight, tokens]
  | property receiver member ih => rw [regrouped, tokens, isAtomic_regrouped, ih, tokens]
  | call receiver member arguments ih ihEach =>
    have each : (arguments.map regrouped).map tokens = arguments.map tokens := by
      rw [List.map_map]
      exact List.map_congr_left ihEach
    rw [regrouped, tokens, isAtomic_regrouped, ih, tokens, regroupedEach_eq_map,
      tokensOfEach_eq_map, tokensOfEach_eq_map, each]
  | convert target operand ih => rw [regrouped, tokens, isAtomic_regrouped, ih, tokens]

end Joining

/-- No operand in front of a sign has a sign itself, unless in parentheses. -/
inductive LeansRight : Phrase Binding Member Target → Prop where
  /-- A word does. -/
  | word (own : Word Binding) : LeansRight (.word own)
  /-- Two operands do, if the first one needs no grouping. -/
  | signed {sign : Sign} {left right : Phrase Binding Member Target}
    (noSign : ∀ other first second, left ≠ .signed other first second) (leansLeft : LeansRight left)
    (leans : LeansRight right) : LeansRight (.signed sign left right)
  /-- A reading of a property does, if its receiver does. -/
  | property {receiver : Phrase Binding Member Target} {member : Member}
    (leans : LeansRight receiver) : LeansRight (.property receiver member)
  /-- A call does, if its receiver and its arguments do. -/
  | call {receiver : Phrase Binding Member Target} {member : Member}
    {arguments : List (Phrase Binding Member Target)} (leans : LeansRight receiver)
    (each : ∀ argument ∈ arguments, LeansRight argument) :
    LeansRight (.call receiver member arguments)
  /-- A conversion does, if its operand does. -/
  | convert {target : Target} {operand : Phrase Binding Member Target}
    (leans : LeansRight operand) : LeansRight (.convert target operand)

/-- A phrase whose signs are grouped to the right is not regrouped. -/
theorem LeansRight.regrouped_eq {phrase : Phrase Binding Member Target}
    (leans : phrase.LeansRight) : phrase.regrouped = phrase := by
  induction leans with
  | word own => rfl
  | @signed sign left right noSign _ _ ihLeft ihRight =>
    rw [regrouped, ihLeft, ihRight]
    cases left with
    | signed other first second => exact absurd rfl (noSign other first second)
    | _ => rfl
  | property _ ih => rw [regrouped, ih]
  | call _ _ ih ihEach =>
    rw [regrouped, ih, regroupedEach_eq_map, List.map_congr_left ihEach, List.map_id']
  | convert _ ih => rw [regrouped, ih]

end Phrase

section Reading

variable {Binding Member Target : Type}

/-- How far an expression has been read, up to the parentheses that are still open. -/
structure Level (Binding Member Target : Type) where
  /-- What the operands read so far, with their signs, make of the rest of the row. -/
  front : Phrase Binding Member Target → Phrase Binding Member Target
  /-- What the conversion in front of the operand, if there is one, makes of it. -/
  cast : Phrase Binding Member Target → Phrase Binding Member Target
  /-- What has been read of the operand. -/
  operand : Option (Phrase Binding Member Target)

/-- What a parenthesis was opened for. -/
inductive Frame (Binding Member Target : Type) where
  /-- It stands around an operand. -/
  | operand (outer : Level Binding Member Target)
  /-- It stands around the arguments of a call, of which the first ones have been read. -/
  | call (outer : Level Binding Member Target) (receiver : Phrase Binding Member Target)
    (member : Member) (arguments : List (Phrase Binding Member Target))

/-- How far a row of tokens has been read: the level inside all open parentheses, and these, the
innermost first. -/
structure Progress (Binding Member Target : Type) where
  /-- The innermost level. -/
  level : Level Binding Member Target
  /-- The open parentheses. -/
  frames : List (Frame Binding Member Target)

namespace Level

variable (level : Level Binding Member Target)

/-- A row of which the operands so far have been read. -/
def after (front : Phrase Binding Member Target → Phrase Binding Member Target) :
    Level Binding Member Target := ⟨front, id, none⟩

/-- A level with an operand. -/
def reach (operand : Option (Phrase Binding Member Target)) : Level Binding Member Target :=
  { level with operand }

/-- The phrase of a row that ends here. -/
def whole : Option (Phrase Binding Member Target) :=
  level.operand.map fun operand => level.front (level.cast operand)

/-- What the row so far makes of the rest, if a sign is next. -/
def followed (sign : Sign) (rest : Phrase Binding Member Target) : Phrase Binding Member Target :=
  level.front (level.operand.elim rest fun operand => .signed sign (level.cast operand) rest)

end Level

namespace Progress

/-- Reading goes on by a token. Whatever cannot be is passed over. -/
def step (progress : Progress Binding Member Target) :
    Token Binding Member Target → Progress Binding Member Target
  | .word own => ⟨progress.level.reach (some (.word own)), progress.frames⟩
  | .member member =>
    ⟨progress.level.reach (progress.level.operand.map (.property · member)), progress.frames⟩
  | .sign sign => ⟨.after (progress.level.followed sign), progress.frames⟩
  | .cast target => ⟨{ progress.level with cast := .convert target }, progress.frames⟩
  | .opening => ⟨.after id, match progress.level.operand with
    | some (.property receiver member) =>
      .call progress.level receiver member [] :: progress.frames
    | _ => .operand progress.level :: progress.frames⟩
  | .closing => match progress.frames with
    | .operand outer :: frames => ⟨outer.reach progress.level.whole, frames⟩
    | .call outer receiver member arguments :: frames =>
      let all := arguments ++ progress.level.whole.toList
      ⟨outer.reach (some (.call receiver member all)), frames⟩
    | [] => progress
  | .comma => match progress.frames with
    | .call outer receiver member arguments :: frames =>
      let all := arguments ++ progress.level.whole.toList
      ⟨.after id, .call outer receiver member all :: frames⟩
    | _ => progress

/-- Reading goes on by some tokens. -/
def run (progress : Progress Binding Member Target) (tokens : List (Token Binding Member Target)) :
    Progress Binding Member Target :=
  tokens.foldl step progress

/-- Tokens are read in order. -/
theorem run_append (progress : Progress Binding Member Target)
    (first second : List (Token Binding Member Target)) :
    progress.run (first ++ second) = (progress.run first).run second :=
  List.foldl_append

end Progress

/-- The phrase that a row of tokens is read as. -/
def read (tokens : List (Token Binding Member Target)) : Option (Phrase Binding Member Target) :=
  (Progress.run ⟨.after id, []⟩ tokens).level.whole

namespace Phrase

/-- The level once a phrase has been read. -/
def level : Phrase Binding Member Target →
    (Phrase Binding Member Target → Phrase Binding Member Target) → Level Binding Member Target
  | signed sign left right, front => right.level ((left.level front).followed sign)
  | convert target operand, front => ⟨front, .convert target, some operand.regrouped⟩
  | phrase, front => ⟨front, id, some phrase.regrouped⟩

/-- A sign and the rest of a row come behind the last operand of a phrase that has been read. -/
theorem followed_level (phrase : Phrase Binding Member Target)
    (front : Phrase Binding Member Target → Phrase Binding Member Target) (sign : Sign) :
    (phrase.level front).followed sign = fun rest => front (phrase.regrouped.joined sign rest) := by
  induction phrase generalizing front sign with
  | signed own left right ihLeft ihRight =>
    simp only [level, ihRight, ihLeft, regrouped, joined_assoc]
  | _ => rfl

/-- A phrase that has been read is the rest of its row, if the row ends there. -/
theorem whole_level (phrase : Phrase Binding Member Target)
    (front : Phrase Binding Member Target → Phrase Binding Member Target) :
    (phrase.level front).whole = some (front phrase.regrouped) := by
  induction phrase generalizing front with
  | signed own left right _ ihRight => rw [level, ihRight, followed_level, regrouped]
  | _ => rfl

end Phrase

section Runs

/-- A phrase is read as what it is once it is regrouped: wherever a row begins, and as an operand,
if it needs no parentheses. -/
structure Readable (phrase : Phrase Binding Member Target) : Prop where
  /-- It is read where a row begins. -/
  row : ∀ front frames,
    Progress.run ⟨.after front, frames⟩ phrase.tokens = ⟨phrase.level front, frames⟩
  /-- It is read as an operand. -/
  operand : phrase.isAtomic = true → ∀ front cast frames,
    Progress.run ⟨⟨front, cast, none⟩, frames⟩ phrase.tokens =
      ⟨⟨front, cast, some phrase.regrouped⟩, frames⟩

variable {front cast : Phrase Binding Member Target → Phrase Binding Member Target}
  {frames : List (Frame Binding Member Target)} {phrase : Phrase Binding Member Target}

/-- A receiver or operand is read, with parentheses around it or not. -/
theorem Readable.enclosed (readable : Readable phrase) :
    Progress.run ⟨⟨front, cast, none⟩, frames⟩ (Phrase.enclosed phrase.isAtomic phrase.tokens) =
      ⟨⟨front, cast, some phrase.regrouped⟩, frames⟩ := by
  cases isAtomic : phrase.isAtomic with
  | true => exact readable.operand isAtomic front cast frames
  | false =>
    rw [Phrase.enclosed, if_neg Bool.false_ne_true, Progress.run, List.foldl_cons]
    show Progress.run ⟨.after id, .operand ⟨front, cast, none⟩ :: frames⟩ _ = _
    rw [Progress.run_append, readable.row]
    show (⟨Level.reach _ (phrase.level id).whole, frames⟩ : Progress _ _ _) = _
    rw [phrase.whole_level]
    rfl

/-- A phrase that needs no parentheses is read wherever a row begins, if it is read as an
operand. -/
theorem readable_of_atomic (isAtomic : phrase.isAtomic = true)
    (operand : ∀ front cast frames,
      Progress.run ⟨⟨front, cast, none⟩, frames⟩ phrase.tokens =
        ⟨⟨front, cast, some phrase.regrouped⟩, frames⟩) : Readable phrase where
  row front frames := by
    rw [Level.after, operand]
    cases phrase <;> first | rfl | cases isAtomic
  operand _ := operand

/-- The arguments of a call are read up to the parenthesis behind them. -/
theorem run_arguments {arguments done : List (Phrase Binding Member Target)}
    (each : ∀ argument ∈ arguments, Readable argument) (outer : Level Binding Member Target)
    (receiver : Phrase Binding Member Target) (member : Member) :
    Progress.run ⟨.after id, .call outer receiver member done :: frames⟩
        ([Token.comma].intercalate (arguments.map Phrase.tokens) ++ [.closing]) =
      ⟨outer.reach (some (.call receiver member (done ++ arguments.map Phrase.regrouped))),
        frames⟩ := by
  induction arguments generalizing done with
  | nil => rfl
  | cons argument rest ih =>
    obtain ⟨first, others⟩ := List.forall_mem_cons.mp each
    cases rest with
    | nil =>
      rw [List.map_singleton, List.intercalate_singleton, Progress.run_append, first.row]
      show (⟨Level.reach outer (some (.call receiver member
        (done ++ (argument.level id).whole.toList))), frames⟩ : Progress _ _ _) = _
      rw [argument.whole_level]
      rfl
    | cons next more =>
      rw [List.map_cons, List.map_cons, List.intercalate_cons_cons, List.append_assoc,
        List.append_assoc, Progress.run_append, first.row, List.singleton_append, ← List.map_cons]
      show Progress.run ⟨.after id, .call outer receiver member
        (done ++ (argument.level id).whole.toList) :: frames⟩ _ = _
      rw [argument.whole_level, ih others, List.append_assoc]
      rfl

/-- Every phrase is read as what it is once it is regrouped. -/
theorem readable (phrase : Phrase Binding Member Target) : Readable phrase := by
  -- Both ways of reading are carried along: an operand stands behind a conversion, where no row
  -- begins, and a row with signs is no operand without parentheses.
  induction phrase with
  | word own => exact readable_of_atomic rfl fun _ _ _ => rfl
  | signed sign left right ihLeft ihRight =>
    refine ⟨fun front frames => ?_, nofun⟩
    rw [Phrase.tokens, Progress.run_append, ihLeft.row]
    exact ihRight.row _ frames
  | property receiver member ih =>
    refine readable_of_atomic rfl fun front cast frames => ?_
    rw [Phrase.tokens, Progress.run_append, ih.enclosed]
    rfl
  | call receiver member arguments ih ihEach =>
    refine readable_of_atomic rfl fun front cast frames => ?_
    rw [Phrase.tokens, Progress.run_append, ih.enclosed, Phrase.tokensOfEach_eq_map,
      Phrase.regrouped, Phrase.regroupedEach_eq_map]
    exact run_arguments ihEach _ receiver.regrouped member
  | convert target operand ih =>
    refine ⟨fun front frames => ?_, nofun⟩
    exact ih.enclosed

/-- The tokens of a phrase are read as the phrase that is grouped to the right. -/
theorem read_tokens (phrase : Phrase Binding Member Target) :
    read phrase.tokens = some phrase.regrouped := by
  rw [read, (readable phrase).row]
  exact phrase.whole_level id

/-- Two phrases are written as the same tokens exactly if they are the same once all their signs are
grouped to the right. -/
theorem tokens_eq_iff {first second : Phrase Binding Member Target} :
    first.tokens = second.tokens ↔ first.regrouped = second.regrouped := by
  constructor
  · intro same
    exact Option.some.inj (by rw [← read_tokens, same, read_tokens])
  · intro same
    rw [← first.tokens_regrouped, same, second.tokens_regrouped]

end Runs

end Reading

section Separation

variable {Binding Member Target : Type} {rest : List (Token Binding Member Target)}

/-- A row of tokens can come behind an operand. -/
structure Behind (rest : List (Token Binding Member Target)) : Prop where
  /-- Its tokens fit. -/
  separable : Separable rest
  /-- No operand begins it. -/
  ends : rest.head?.any (·.starts) = false

/-- A token that no operand begins with can come behind an operand, if what is behind it fits. -/
theorem behind_cons {token : Token Binding Member Target} (fits : token.fits rest.head? = true)
    (noStart : token.starts = false) (separable : Separable rest) : Behind (token :: rest) :=
  ⟨⟨fits, separable⟩, noStart⟩

/-- No word comes behind an operand. -/
theorem Behind.noWord (behind : Behind rest) : (!rest.head?.any (·.isWord)) = true := by
  obtain ⟨-, ends⟩ := behind
  cases rest with
  | nil => rfl
  | cons token rest => cases token <;> first | rfl | cases ends

/-- A closing parenthesis can come behind an operand. -/
theorem Behind.closing (behind : Behind rest) : Behind (.closing :: rest) :=
  behind_cons (by rw [Token.fits, behind.ends]; rfl) rfl behind.separable

namespace Phrase

/-- An operand begins with the first token of a phrase. -/
theorem starts_enclosed {phrase : Phrase Binding Member Target}
    (starts : ∀ rest, (phrase.tokens ++ rest).head?.any (·.starts) = true)
    (rest : List (Token Binding Member Target)) :
    (enclosed phrase.isAtomic phrase.tokens ++ rest).head?.any (·.starts) = true := by
  rw [enclosed]
  split
  · exact starts rest
  · rfl

/-- An operand begins with the first token of a phrase. -/
theorem starts_tokens (phrase : Phrase Binding Member Target)
    (rest : List (Token Binding Member Target)) :
    (phrase.tokens ++ rest).head?.any (·.starts) = true := by
  induction phrase generalizing rest with
  | word | convert => rfl
  | signed sign left right ih =>
    rw [tokens, List.append_assoc]
    exact ih _
  | property receiver member ih | call receiver member arguments ih =>
    rw [tokens, List.append_assoc]
    exact starts_enclosed ih _

/-- The tokens of a receiver or operand fit, if those of its phrase do. -/
theorem separable_enclosed {phrase : Phrase Binding Member Target}
    (separable : ∀ rest, Behind rest → Separable (phrase.tokens ++ rest)) (behind : Behind rest) :
    Separable (enclosed phrase.isAtomic phrase.tokens ++ rest) := by
  rw [enclosed]
  split
  · exact separable rest behind
  · rw [List.cons_append, List.append_assoc]
    exact ⟨rfl, separable _ behind.closing⟩

/-- The tokens of arguments fit, up to the parenthesis behind them. -/
theorem separable_arguments {arguments : List (Phrase Binding Member Target)}
    (each : ∀ argument ∈ arguments, ∀ rest, Behind rest → Separable (argument.tokens ++ rest))
    (behind : Behind rest) :
    Separable ([Token.comma].intercalate (arguments.map tokens) ++ rest) := by
  induction arguments with
  | nil => exact behind.separable
  | cons argument others ih =>
    obtain ⟨first, each⟩ := List.forall_mem_cons.mp each
    cases others with
    | nil =>
      rw [List.map_singleton, List.intercalate_singleton]
      exact first rest behind
    | cons next more =>
      rw [List.map_cons, List.map_cons, List.intercalate_cons_cons, List.append_assoc,
        List.append_assoc, List.singleton_append, ← List.map_cons]
      exact first _ (behind_cons rfl rfl (ih each))

/-- The tokens of a phrase fit, and so does what can come behind an operand. -/
theorem separable_tokens (phrase : Phrase Binding Member Target) (behind : Behind rest) :
    Separable (phrase.tokens ++ rest) := by
  induction phrase generalizing rest with
  | word own => exact ⟨behind.noWord, behind.separable⟩
  | signed sign left right ihLeft ihRight =>
    rw [tokens, List.append_assoc]
    exact ihLeft (behind_cons rfl rfl (ihRight behind))
  | property receiver member ih =>
    rw [tokens, List.append_assoc]
    exact separable_enclosed (fun _ => ih) (behind_cons behind.noWord rfl behind.separable)
  | call receiver member arguments ih ihEach =>
    have each := separable_arguments (fun argument isListed _ => ihEach argument isListed)
      behind.closing
    rw [tokens, List.append_assoc, List.cons_append, List.cons_append, List.append_assoc,
      tokensOfEach_eq_map]
    exact separable_enclosed (fun _ => ih) (behind_cons rfl rfl ⟨rfl, each⟩)
  | convert target operand ih =>
    exact ⟨starts_enclosed operand.starts_tokens rest, separable_enclosed (fun _ => ih) behind⟩

end Phrase

end Separation

section Names

variable {Binding Member Target Name MemberName TargetName : Type} (name : Binding → Name)
  (memberName : Member → MemberName) (targetName : Target → TargetName)

namespace Phrase

mutual

/-- A phrase with other names for what is named in it. -/
def map : Phrase Binding Member Target → Phrase Name MemberName TargetName
  | .word own => .word (own.map name)
  | .signed sign left right => .signed sign left.map right.map
  | .property receiver member => .property receiver.map (memberName member)
  | .call receiver member arguments =>
    .call receiver.map (memberName member) (mapEach arguments)
  | .convert target operand => .convert (targetName target) operand.map

/-- Each phrase of a list with other names for what is named in it. -/
def mapEach : List (Phrase Binding Member Target) → List (Phrase Name MemberName TargetName)
  | [] => []
  | first :: rest => first.map :: mapEach rest

end

/-- Each phrase of a list gets its names on its own. -/
theorem mapEach_eq_map (phrases : List (Phrase Binding Member Target)) :
    mapEach name memberName targetName phrases =
      phrases.map (map name memberName targetName) := by
  induction phrases with
  | nil => rfl
  | cons first rest ih => rw [mapEach, ih, List.map_cons]

/-- A phrase needs parentheses whatever its names are. -/
theorem isAtomic_map (phrase : Phrase Binding Member Target) :
    (phrase.map name memberName targetName).isAtomic = phrase.isAtomic := by
  cases phrase <;> rfl

/-- A phrase with other names is written as its tokens with those names. -/
theorem tokens_map (phrase : Phrase Binding Member Target) :
    (phrase.map name memberName targetName).tokens =
      phrase.tokens.map (Token.map name memberName targetName) := by
  have encloses (atomic : Bool) (tokens : List (Token Binding Member Target)) :
      enclosed atomic (tokens.map (Token.map name memberName targetName)) =
        (enclosed atomic tokens).map (Token.map name memberName targetName) := by
    cases atomic <;> simp [enclosed, Token.map]
  induction phrase with
  | word own => rfl
  | signed sign left right ihLeft ihRight =>
    rw [map, tokens, ihLeft, ihRight, tokens, List.map_append]
    rfl
  | property receiver member ih =>
    rw [map, tokens, isAtomic_map, ih, encloses, tokens, List.map_append]
    rfl
  | call receiver member arguments ih ihEach =>
    have each : (arguments.map (map name memberName targetName)).map tokens =
        (arguments.map tokens).map (·.map (Token.map name memberName targetName)) := by
      rw [List.map_map, List.map_map]
      exact List.map_congr_left ihEach
    have listed : [Token.comma].intercalate
          ((arguments.map tokens).map (·.map (Token.map name memberName targetName))) =
        ([Token.comma].intercalate (arguments.map tokens)).map
          (Token.map name memberName targetName) := by
      simp only [List.map_eq_flatMap, flatMap_intercalate]
      rfl
    rw [map, tokens, isAtomic_map, ih, encloses, mapEach_eq_map, tokensOfEach_eq_map, each, listed,
      tokens, tokensOfEach_eq_map, List.map_append, List.map_cons, List.map_cons, List.map_append]
    rfl
  | convert target operand ih =>
    rw [map, tokens, isAtomic_map, ih, encloses, tokens]
    rfl

end Phrase

end Names

/-- Two phrases of legible names have the same characters exactly if they are the same once all
their signs are grouped to the right. -/
theorem charactersOf_tokens_eq_iff {first second : Phrase String String String}
    (legible : ∀ token ∈ first.tokens, token.Legible)
    (legibleToo : ∀ token ∈ second.tokens, token.Legible) :
    charactersOf first.tokens = charactersOf second.tokens ↔
      first.regrouped = second.regrouped := by
  have separable (phrase : Phrase String String String) : Separable phrase.tokens := by
    have alone := phrase.separable_tokens (⟨trivial, rfl⟩ : Behind [])
    rwa [List.append_nil] at alone
  rw [← tokens_eq_iff]
  constructor
  · exact (separable first).eq_of_characters legible (separable second) legibleToo
  · exact congrArg charactersOf

end Foreach.Source
