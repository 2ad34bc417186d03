import Foreach.Proofs.CommandLine.PolicyWords

/-!
# Where options stand

What is read of arguments does not depend on where options stand between the others: the error is
that of the first faulty option, the arguments that are no options keep their order, and every
setting is what the last option for it gives (`Options.parse_placement`).
-/
namespace Foreach

namespace Options

/-- An argument is an option if it starts with two dashes. -/
def IsOption (argument : String) : Prop := "--".toList <+: argument.toList

instance (argument : String) : Decidable (IsOption argument) :=
  inferInstanceAs (Decidable ("--".toList <+: argument.toList))

/-- An option says what nobody can read: it is neither a policy of known words nor a number of
spaces. -/
structure Refused (argument : String) : Prop where
  /-- It is an option. -/
  isOption : IsOption argument
  /-- It is no policy whose words are all known. -/
  noPolicy : ∀ list words, argument = "--policy=" ++ list → Policy.Lists list words →
    ¬ ∀ word ∈ words, Policy.Known word
  /-- It is no number of spaces. -/
  noIndent : ∀ text width, argument = "--indent=" ++ text → ¬ Text.IsSize text width

/-- An option is neither a policy nor a number of spaces. -/
structure IsOther (argument : String) : Prop where
  /-- It is an option. -/
  isOption : IsOption argument
  /-- It is no policy. -/
  noPolicy : ∀ list, argument ≠ "--policy=" ++ list
  /-- It is no number of spaces. -/
  noIndent : ∀ text, argument ≠ "--indent=" ++ text

/-- What is wrong with an argument. -/
inductive Faulty : String → OptionsError → Prop where
  /-- The first unknown word of a policy is wrong. -/
  | policy {list : String} {words : List String} {fault : OptionsError}
    (lists : Policy.Lists list words) (first : Earliest Policy.Unknown words fault) :
    Faulty ("--policy=" ++ list) fault
  /-- A number of spaces is none. -/
  | indent {text : String} (noSize : ∀ width, ¬ Text.IsSize text width) :
    Faulty ("--indent=" ++ text) (.invalidIndent text)
  /-- An option is of another kind. -/
  | unknown {argument : String} (isOther : IsOther argument) :
    Faulty argument (.unknownOption argument)

/-- An argument gives a policy. -/
def GivesPolicy (argument : String) (policy : Policy) : Prop :=
  ∃ list words, argument = "--policy=" ++ list ∧ Policy.Lists list words ∧
    Policy.Means words policy

/-- An argument gives a number of spaces. -/
def GivesWidth (argument : String) (width : Nat) : Prop :=
  ∃ text, argument = "--indent=" ++ text ∧ Text.IsSize text width

/-- Read one argument after the options read before it. -/
def accept (options : Options) (argument : String) : Except OptionsError Options :=
  match classify argument with
  | .policy list => (Policy.parse list).map fun policy => { options with policy }
  | .indent text =>
    match Text.readSize? text with
    | some width => .ok { options with width }
    | none => .error (.invalidIndent text)
  | .unknown => .error (.unknownOption argument)
  | .positional => .ok options

section Arguments

variable {argument : String} {arguments others : List String} {options next : Options}
  {fault : OptionsError} {start text rest : List Char}

/-- What follows a start is what is found behind it. -/
theorem strip?_eq_some_iff : Text.strip? start text = some rest ↔ text = start ++ rest := by
  induction start generalizing text with
  | nil => rw [Text.strip?, Option.some.injEq, List.nil_append]
  | cons expected start ih =>
    cases text with
    | nil => exact iff_of_false nofun nofun
    | cons c text =>
      rw [Text.strip?, List.cons_append, List.cons.injEq, ← ih, Option.ite_none_right_eq_some]

/-- What follows the start of an argument is what is found behind it. -/
theorem strip?_toList_iff (start argument : String) :
    Text.strip? start.toList argument.toList = some rest ↔
      argument = start ++ String.ofList rest := by
  rw [strip?_eq_some_iff, ← String.toList_inj, String.toList_append, String.toList_ofList]

/-- Nothing is found behind a start that an argument does not have. -/
theorem strip?_eq_none_iff (start argument : String) :
    Text.strip? start.toList argument.toList = none ↔ ∀ rest, argument ≠ start ++ rest := by
  rw [Option.eq_none_iff_forall_ne_some]
  constructor
  · intro notFound rest same
    refine notFound rest.toList ((strip?_toList_iff start argument).mpr ?_)
    rw [String.ofList_toList, same]
  · exact fun differs rest found => differs _ ((strip?_toList_iff start argument).mp found)

/-- An option has something behind its two dashes. -/
theorem isOption_iff : IsOption argument ↔ ∃ rest, argument = "--" ++ rest := by
  constructor
  · rintro ⟨rest, whole⟩
    exact ⟨String.ofList rest,
      (strip?_toList_iff "--" argument).mp (strip?_eq_some_iff.mpr whole.symm)⟩
  · rintro ⟨rest, rfl⟩
    exact ⟨rest.toList, String.toList_append.symm⟩

/-- A policy is an option. -/
theorem isOption_policy (list : String) : IsOption ("--policy=" ++ list) :=
  isOption_iff.mpr ⟨"policy=" ++ list, @String.append_assoc "--" "policy=" list⟩

/-- A number of spaces is an option. -/
theorem isOption_indent (text : String) : IsOption ("--indent=" ++ text) :=
  isOption_iff.mpr ⟨"indent=" ++ text, @String.append_assoc "--" "indent=" text⟩

/-- No argument is both a policy and a number of spaces. -/
theorem policy_ne_indent (list text : String) : "--policy=" ++ list ≠ "--indent=" ++ text := by
  intro same
  have found : Text.strip? "--policy=".toList ("--indent=" ++ text).toList = some list.toList := by
    rw [strip?_toList_iff, String.ofList_toList, same]
  rw [String.toList_append] at found
  cases found

/-- An argument is of one of four kinds. -/
theorem argument_cases (argument : String) :
    (∃ list, argument = "--policy=" ++ list) ∨ (∃ text, argument = "--indent=" ++ text) ∨
      IsOther argument ∨ ¬ IsOption argument := by
  by_cases policy : ∃ list, argument = "--policy=" ++ list
  · exact .inl policy
  by_cases indent : ∃ text, argument = "--indent=" ++ text
  · exact .inr (.inl indent)
  by_cases isOption : IsOption argument
  · exact .inr (.inr (.inl ⟨isOption, not_exists.mp policy, not_exists.mp indent⟩))
  · exact .inr (.inr (.inr isOption))

/-- A policy is told by its start. -/
theorem classify_policy (list : String) : classify ("--policy=" ++ list) = .policy list := by
  have found : Text.strip? "--policy=".toList ("--policy=" ++ list).toList = some list.toList := by
    rw [strip?_toList_iff, String.ofList_toList]
  simp only [classify, found, String.ofList_toList]

/-- A number of spaces is told by its start. -/
theorem classify_indent (text : String) : classify ("--indent=" ++ text) = .indent text := by
  have notFound := (strip?_eq_none_iff "--policy=" ("--indent=" ++ text)).mpr fun list =>
    (policy_ne_indent list text).symm
  have found : Text.strip? "--indent=".toList ("--indent=" ++ text).toList = some text.toList := by
    rw [strip?_toList_iff, String.ofList_toList]
  simp only [classify, notFound, found, String.ofList_toList]

/-- Another option is told by its dashes. -/
theorem classify_other (isOther : IsOther argument) : classify argument = .unknown := by
  obtain ⟨rest, rfl⟩ := isOption_iff.mp isOther.isOption
  have noPolicy := (strip?_eq_none_iff "--policy=" _).mpr isOther.noPolicy
  have noIndent := (strip?_eq_none_iff "--indent=" _).mpr isOther.noIndent
  have found : Text.strip? "--".toList ("--" ++ rest).toList = some rest.toList := by
    rw [strip?_toList_iff, String.ofList_toList]
  simp only [classify, noPolicy, noIndent, found]

/-- What is no option is told by its missing dashes. -/
theorem classify_positional (positional : ¬ IsOption argument) :
    classify argument = .positional := by
  have noPolicy := (strip?_eq_none_iff "--policy=" argument).mpr fun list same =>
    positional (same ▸ isOption_policy list)
  have noIndent := (strip?_eq_none_iff "--indent=" argument).mpr fun text same =>
    positional (same ▸ isOption_indent text)
  have noDashes := (strip?_eq_none_iff "--" argument).mpr fun rest same =>
    positional (isOption_iff.mpr ⟨rest, same⟩)
  simp only [classify, noPolicy, noIndent, noDashes]

/-- A policy is faulty if one of its words is. -/
theorem faulty_policy_iff {list : String} {words : List String} (lists : Policy.Lists list words) :
    Faulty ("--policy=" ++ list) fault ↔ Earliest Policy.Unknown words fault := by
  constructor
  · intro faulty
    generalize same : "--policy=" ++ list = argument at faulty
    cases faulty with
    | policy listsOther first =>
      cases (String.append_right_inj _).mp same
      rwa [← Policy.lists_iff.mp lists, Policy.lists_iff.mp listsOther]
    | indent noSize => exact absurd same (policy_ne_indent _ _)
    | unknown isOther => exact absurd same.symm (isOther.noPolicy list)
  · exact .policy lists

/-- A number of spaces is faulty if it is none. -/
theorem faulty_indent_iff {text : String} :
    Faulty ("--indent=" ++ text) fault ↔
      (∀ width, ¬ Text.IsSize text width) ∧ fault = .invalidIndent text := by
  constructor
  · intro faulty
    generalize same : "--indent=" ++ text = argument at faulty
    cases faulty with
    | policy lists first => exact absurd same.symm (policy_ne_indent _ _)
    | indent noSize =>
      cases (String.append_right_inj _).mp same
      exact ⟨noSize, rfl⟩
    | unknown isOther => exact absurd same.symm (isOther.noIndent text)
  · rintro ⟨noSize, rfl⟩
    exact .indent noSize

/-- Another option is faulty. -/
theorem faulty_other_iff (isOther : IsOther argument) :
    Faulty argument fault ↔ fault = .unknownOption argument := by
  constructor
  · intro faulty
    cases faulty with
    | policy lists first => exact absurd rfl (isOther.noPolicy _)
    | indent noSize => exact absurd rfl (isOther.noIndent _)
    | unknown => rfl
  · rintro rfl
    exact .unknown isOther

/-- What is faulty is an option. -/
theorem Faulty.isOption (faulty : Faulty argument fault) : IsOption argument := by
  cases faulty with
  | policy => exact isOption_policy _
  | indent => exact isOption_indent _
  | unknown isOther => exact isOther.isOption

/-- An argument is faulty if and only if it is refused. -/
theorem exists_faulty_iff : (∃ fault, Faulty argument fault) ↔ Refused argument := by
  obtain ⟨list, rfl⟩ | ⟨text, rfl⟩ | isOther | positional := argument_cases argument
  · have lists : Policy.Lists list (Policy.words list) := Policy.lists_iff.mpr rfl
    simp only [faulty_policy_iff lists, exists_earliest_iff]
    constructor
    · rintro ⟨word, isListed, fault, unknown, -⟩
      refine ⟨isOption_policy list, ?_, fun text _ same => absurd same (policy_ne_indent list text)⟩
      intro other words same listsOther known
      cases (String.append_right_inj _).mp same
      exact unknown (known word (Policy.lists_iff.mp listsOther ▸ isListed))
    · intro refused
      have unknown := refused.noPolicy list _ rfl lists
      push Not at unknown
      obtain ⟨word, isListed, unknown⟩ := unknown
      exact ⟨word, isListed, .unknownPolicy word, unknown, rfl⟩
  · simp only [faulty_indent_iff]
    constructor
    · rintro ⟨-, noSize, -⟩
      have noList (list : String) : "--indent=" ++ text ≠ "--policy=" ++ list :=
        (policy_ne_indent list text).symm
      refine ⟨isOption_indent text, fun list _ same => absurd same (noList list), ?_⟩
      intro other width same
      cases (String.append_right_inj _).mp same
      exact noSize width
    · exact fun refused => ⟨.invalidIndent text, fun width => refused.noIndent text width rfl, rfl⟩
  · refine iff_of_true ⟨_, .unknown isOther⟩ ⟨isOther.isOption, ?_, ?_⟩
    · exact fun list _ same => absurd same (isOther.noPolicy list)
    · exact fun text _ same => absurd same (isOther.noIndent text)
  · exact iff_of_false (fun ⟨_, faulty⟩ => positional faulty.isOption)
      fun refused => positional refused.isOption

/-- An argument is not accepted if and only if it is faulty. -/
theorem accept_refuses (options : Options) (argument : String) (fault : OptionsError) :
    accept options argument = .error fault ↔ Faulty argument fault := by
  obtain ⟨list, rfl⟩ | ⟨text, rfl⟩ | isOther | positional := argument_cases argument
  · have lists : Policy.Lists list (Policy.words list) := Policy.lists_iff.mpr rfl
    simp only [accept, classify_policy]
    rw [faulty_policy_iff lists, ← Policy.parse_eq_error_iff lists]
    cases Policy.parse list with
    | error found => simp only [Except.map, Except.error.injEq]
    | ok policy => exact iff_of_false nofun nofun
  · simp only [accept, classify_indent]
    rw [faulty_indent_iff]
    cases read : Text.readSize? text with
    | some width =>
      exact iff_of_false nofun fun faulty => faulty.1 width (Text.readSize?_eq_some_iff.mp read)
    | none =>
      have noSize : ∀ width, ¬ Text.IsSize text width := fun width isSize =>
        nomatch read.symm.trans (Text.readSize?_eq_some_iff.mpr isSize)
      rw [and_iff_right noSize, Except.error.injEq, eq_comm]
  · simp only [accept, classify_other isOther]
    rw [faulty_other_iff isOther, Except.error.injEq, eq_comm]
  · simp only [accept, classify_positional positional]
    exact iff_of_false nofun fun faulty => positional faulty.isOption

/-- An argument that is accepted is a policy or a number of spaces, and sets that alone, or it is no
option and sets nothing. -/
theorem accept_eq_ok (accepted : accept options argument = .ok next) :
    (∃ list, argument = "--policy=" ++ list ∧ Policy.parse list = .ok next.policy ∧
      next.width = options.width) ∨
    (∃ text, argument = "--indent=" ++ text ∧ Text.IsSize text next.width ∧
      next.policy = options.policy) ∨
    ¬ IsOption argument ∧ next = options := by
  obtain ⟨list, rfl⟩ | ⟨text, rfl⟩ | isOther | positional := argument_cases argument
  · simp only [accept, classify_policy] at accepted
    cases read : Policy.parse list with
    | error found =>
      rw [read] at accepted
      cases accepted
    | ok policy =>
      rw [read] at accepted
      cases accepted
      exact .inl ⟨list, rfl, read, rfl⟩
  · simp only [accept, classify_indent] at accepted
    cases read : Text.readSize? text with
    | none =>
      rw [read] at accepted
      cases accepted
    | some width =>
      rw [read] at accepted
      cases accepted
      exact .inr (.inl ⟨text, rfl, Text.readSize?_eq_some_iff.mp read, rfl⟩)
  · simp only [accept, classify_other isOther] at accepted
    cases accepted
  · simp only [accept, classify_positional positional] at accepted
    cases accepted
    exact .inr (.inr ⟨positional, rfl⟩)

/-- An argument sets the number of spaces that it gives, or keeps the one before. -/
theorem accept_width (options : Options) (argument : String) (next : Options)
    (accepted : accept options argument = .ok next) :
    GivesWidth argument next.width ∨
      (∀ width, ¬ GivesWidth argument width) ∧ next.width = options.width := by
  obtain ⟨list, rfl, -, kept⟩ | ⟨text, rfl, isSize, -⟩ | ⟨positional, rfl⟩ := accept_eq_ok accepted
  · exact .inr ⟨fun width ⟨text, same, _⟩ => policy_ne_indent list text same, kept⟩
  · exact .inl ⟨text, rfl, isSize⟩
  · exact .inr ⟨fun width ⟨text, same, _⟩ => positional (same ▸ isOption_indent text), rfl⟩

/-- An argument sets the policy that it gives, or keeps the one before. -/
theorem accept_policy (options : Options) (argument : String) (next : Options)
    (accepted : accept options argument = .ok next) :
    GivesPolicy argument next.policy ∨
      (∀ policy, ¬ GivesPolicy argument policy) ∧ next.policy = options.policy := by
  obtain ⟨list, rfl, read, -⟩ | ⟨text, rfl, -, kept⟩ | ⟨positional, rfl⟩ := accept_eq_ok accepted
  · have lists : Policy.Lists list (Policy.words list) := Policy.lists_iff.mpr rfl
    exact .inl ⟨list, _, rfl, lists, ((Policy.parse_eq_ok_iff lists).mp read).2⟩
  · exact .inr ⟨fun policy ⟨list, _, same, _⟩ => policy_ne_indent list text same.symm, kept⟩
  · exact .inr ⟨fun policy ⟨list, _, same, _⟩ => positional (same ▸ isOption_policy list), rfl⟩

/-- An argument gives one number of spaces at most. -/
theorem givesWidth_unique (argument : String) (first second : Nat)
    (gives : GivesWidth argument first) (givesToo : GivesWidth argument second) :
    first = second := by
  obtain ⟨text, rfl, isSize⟩ := gives
  obtain ⟨other, same, isSizeToo⟩ := givesToo
  cases (String.append_right_inj _).mp same
  exact Option.some.inj ((Text.readSize?_eq_some_iff.mpr isSize).symm.trans
    (Text.readSize?_eq_some_iff.mpr isSizeToo))

/-- An argument gives one policy at most. -/
theorem givesPolicy_unique (argument : String) (first second : Policy)
    (gives : GivesPolicy argument first) (givesToo : GivesPolicy argument second) :
    first = second := by
  obtain ⟨list, words, rfl, lists, means⟩ := gives
  obtain ⟨other, words, same, listsToo, meansToo⟩ := givesToo
  cases (String.append_right_inj _).mp same
  cases (Policy.lists_iff.mp lists).symm.trans (Policy.lists_iff.mp listsToo)
  exact means.unique meansToo

/-- What is no option changes nothing. -/
theorem accept_positional (options : Options) (positional : ¬ IsOption argument) :
    accept options argument = .ok options := by
  simp only [accept, classify_positional positional]

/-- Arguments are read one after the other; those that are no options are kept. -/
theorem parseFrom_eq (options : Options) (arguments : List String) :
    parseFrom options arguments =
      (arguments.foldlM accept options).map fun read =>
        (read, arguments.filter (¬ IsOption ·)) := by
  induction arguments generalizing options with
  | nil => rfl
  | cons argument rest ih =>
    rw [parseFrom, List.foldlM_cons]
    obtain ⟨list, rfl⟩ | ⟨text, rfl⟩ | isOther | positional := argument_cases argument
    · rw [List.filter_cons_of_neg (by simp [isOption_policy])]
      simp only [accept, classify_policy, ih]
      cases Policy.parse list <;> rfl
    · rw [List.filter_cons_of_neg (by simp [isOption_indent])]
      simp only [accept, classify_indent, ih]
      cases Text.readSize? text <;> rfl
    · simp only [accept, classify_other isOther]
      rfl
    · rw [List.filter_cons_of_pos (by simpa using positional), accept_positional options positional]
      simp only [classify_positional positional, ih]
      show _ = Except.map _ (rest.foldlM accept options)
      cases rest.foldlM accept options <;> rfl

/-- Only options matter to the settings. -/
theorem foldlM_accept_filter (options : Options) (arguments : List String) :
    (arguments.filter (IsOption ·)).foldlM accept options = arguments.foldlM accept options := by
  induction arguments generalizing options with
  | nil => rfl
  | cons argument rest ih =>
    by_cases isOption : IsOption argument
    · rw [List.filter_cons_of_pos (by simpa using isOption), List.foldlM_cons, List.foldlM_cons]
      exact congrArg _ (funext ih)
    · rw [List.filter_cons_of_neg (by simpa using isOption), List.foldlM_cons,
        accept_positional options isOption]
      exact ih options

/-- Reading fails with what is wrong with the first faulty argument. -/
theorem parse_eq_error_iff : parse arguments = .error fault ↔ Earliest Faulty arguments fault := by
  rw [← foldlM_eq_error_iff accept_refuses, parse, parseFrom_eq]
  cases arguments.foldlM accept {} with
  | error found => simp only [Except.map, Except.error.injEq]
  | ok read => exact iff_of_false nofun nofun

/-- Reading succeeds if and only if no argument is refused. -/
theorem exists_accepted_iff :
    (∃ read, arguments.foldlM accept {} = .ok read) ↔ ∀ argument ∈ arguments, ¬ Refused argument :=
  (exists_foldlM_iff accept_refuses).trans <| forall₂_congr fun _ _ =>
    not_exists.symm.trans (not_congr exists_faulty_iff)

/-- Reading keeps the arguments that are no options and gives each setting its latest value. -/
theorem parse_eq_ok_iff {positional : List String} :
    parse arguments = .ok (options, positional) ↔
      (∀ argument ∈ arguments, ¬ Refused argument) ∧
      positional = arguments.filter (¬ IsOption ·) ∧
      Latest GivesWidth IndentedText.defaultWidth arguments options.width ∧
      Latest GivesPolicy {} arguments options.policy := by
  rw [← exists_accepted_iff, parse, parseFrom_eq]
  constructor
  · intro accepted
    cases read : arguments.foldlM accept {} with
    | error found =>
      rw [read] at accepted
      cases accepted
    | ok next =>
      rw [read] at accepted
      cases accepted
      exact ⟨⟨options, rfl⟩, rfl, latest_of_foldlM Options.width accept_width read,
        latest_of_foldlM Options.policy accept_policy read⟩
  · rintro ⟨⟨next, read⟩, rfl, width, policy⟩
    have sameWidth : next.width = options.width :=
      (latest_of_foldlM Options.width accept_width read).unique givesWidth_unique width
    have samePolicy : next.policy = options.policy :=
      (latest_of_foldlM Options.policy accept_policy read).unique givesPolicy_unique policy
    rw [read]
    cases next
    cases options
    cases sameWidth
    cases samePolicy
    rfl

/-- Options may move between arguments that are none. -/
theorem parse_of_moved {moved : List String}
    (sameOptions : moved.filter (IsOption ·) = arguments.filter (IsOption ·))
    (sameOthers : moved.filter (¬ IsOption ·) = arguments.filter (¬ IsOption ·)) :
    parse moved = parse arguments := by
  rw [parse, parse, parseFrom_eq, parseFrom_eq, sameOthers, ← foldlM_accept_filter {} moved,
    sameOptions, foldlM_accept_filter]

/-- Policies that are read alike stand for each other among arguments. -/
theorem parse_of_same_policy {list other : String} (before after : List String)
    (same : Policy.parse other = Policy.parse list) :
    parse (before ++ ("--policy=" ++ other) :: after) =
      parse (before ++ ("--policy=" ++ list) :: after) := by
  have accepted : ∀ options, accept options ("--policy=" ++ other) =
      accept options ("--policy=" ++ list) := by
    intro options
    simp only [accept, classify_policy, same]
  have dropped : ∀ list, (("--policy=" ++ list) :: after).filter (¬ IsOption ·) =
      after.filter (¬ IsOption ·) := fun list =>
    List.filter_cons_of_neg (by simp [isOption_policy])
  simp only [parse, parseFrom_eq, List.foldlM_append, List.foldlM_cons, accepted,
    List.filter_append, dropped]

end Arguments

/-- Options are read wherever they stand. Reading fails if and only if an option is refused, with
what is wrong with the first faulty one. Otherwise the arguments that are no options are kept in
order, and each setting is what the last option for it gives. So options may move between other
arguments, and neighbouring words about different decisions may change places in a policy. -/
theorem parse_placement (arguments : List String) :
    ((∃ fault, parse arguments = .error fault) ↔ ∃ argument ∈ arguments, Refused argument) ∧
    (∀ fault, parse arguments = .error fault ↔ Earliest Faulty arguments fault) ∧
    (∀ options positional, parse arguments = .ok (options, positional) ↔
      (∀ argument ∈ arguments, ¬ Refused argument) ∧
      positional = arguments.filter (¬ IsOption ·) ∧
      Latest GivesWidth IndentedText.defaultWidth arguments options.width ∧
      Latest GivesPolicy {} arguments options.policy) ∧
    (∀ moved : List String, moved.filter (IsOption ·) = arguments.filter (IsOption ·) →
      moved.filter (¬ IsOption ·) = arguments.filter (¬ IsOption ·) →
      parse moved = parse arguments) ∧
    (∀ before after list swapped earlier later,
      ∀ (order : InterfaceOrder) (ambiguity : Ambiguity),
      Policy.Lists list (earlier ++ order.word :: ambiguity.word :: later) →
      Policy.Lists swapped (earlier ++ ambiguity.word :: order.word :: later) →
      arguments = before ++ ("--policy=" ++ list) :: after →
      parse (before ++ ("--policy=" ++ swapped) :: after) = parse arguments) := by
  refine ⟨?fails, ?error, ?succeeds, ?moves, ?swaps⟩
  case fails =>
    simp only [parse_eq_error_iff, exists_earliest_iff, exists_faulty_iff]
  case error => exact fun _ => parse_eq_error_iff
  case succeeds => exact fun _ _ => parse_eq_ok_iff
  case moves => exact fun _ => parse_of_moved
  case swaps =>
    rintro before after list swapped earlier later order ambiguity lists listsSwapped rfl
    exact parse_of_same_policy before after (Policy.parse_of_swapped lists listsSwapped)

/-- Two options that are moved behind the other arguments, and two words of a policy that change
places. -/
theorem parse_placement_moved :
    parse ["in", "out", "--policy= non-generic-first ,, reject", "--indent=+3"] =
        parse ["--policy= non-generic-first ,, reject", "in", "--indent=+3", "out"] ∧
      parse ["--policy=reject,non-generic-first", "in", "--indent=+3", "out"] =
        parse ["--policy= non-generic-first ,, reject", "in", "--indent=+3", "out"] := by
  obtain ⟨-, -, -, moves, swaps⟩ :=
    parse_placement ["--policy= non-generic-first ,, reject", "in", "--indent=+3", "out"]
  have lists : Policy.Lists " non-generic-first ,, reject" ["non-generic-first", "reject"] :=
    Policy.lists_iff.mpr (by decide)
  have listsSwapped : Policy.Lists "reject,non-generic-first" ["reject", "non-generic-first"] :=
    Policy.lists_iff.mpr (by decide)
  constructor
  · exact moves _ (by decide) (by decide)
  · exact swaps [] _ _ _ [] [] .nonGenericFirst .reject lists listsSwapped (by decide)

example : parse ["--policy= non-generic-first ,, reject", "in", "--indent=+3", "out"] =
    .ok ({ policy := { interfaceOrder := .nonGenericFirst, ambiguity := .reject }, width := 3 },
      ["in", "out"]) := by
  decide

end Options

end Foreach
