import Foreach.Pattern.Enumerable
import Foreach.Text.Blank
import Foreach.Text.Decimal
import Foreach.Text.Indented
import Foreach.Text.Split

/-!
# Options

Arguments that start with two dashes are options, wherever they stand; all others keep their order.
A later option takes the place of an earlier one of the same kind. A policy is a list of words: the
last word for each decision counts, and a decision without a word is the default one.
-/
namespace Foreach

/-- Settings of every command. -/
structure Options where
  /-- How members are chosen. -/
  policy : Policy := {}
  /-- The number of spaces of one level of source text. -/
  width : Nat := IndentedText.defaultWidth
deriving DecidableEq

/-- Why arguments are refused. -/
inductive OptionsError where
  /-- A word of a policy is not known. -/
  | unknownPolicy (word : String)
  /-- A number of spaces is not a number. -/
  | invalidIndent (text : String)
  /-- An option is not known. -/
  | unknownOption (argument : String)
deriving DecidableEq

/-- What is wrong with the arguments. -/
def OptionsError.message : OptionsError → String
  | unknownPolicy word => "unknown policy '" ++ word ++ "'"
  | invalidIndent text => "invalid indent '" ++ text ++ "': expected a number of spaces"
  | unknownOption argument => "unknown option '" ++ argument ++ "'"

namespace Policy

/-- What a word does to a policy. -/
def applyWord (policy : Policy) (word : String) : Except OptionsError Policy :=
  if word = InterfaceOrder.genericFirst.word then
    .ok { policy with interfaceOrder := .genericFirst }
  else if word = InterfaceOrder.nonGenericFirst.word then
    .ok { policy with interfaceOrder := .nonGenericFirst }
  else if word = Ambiguity.firstDeclared.word then
    .ok { policy with ambiguity := .firstDeclared }
  else if word = Ambiguity.reject.word then .ok { policy with ambiguity := .reject }
  else .error (.unknownPolicy word)

/-- The words of a list with commas, without blank ends; blank items are not words. -/
def words (list : String) : List String :=
  (((Text.splitAt ',' list.toList).map Text.trimBlank).filter (· ≠ [])).map String.ofList

/-- The policy of a list of words. -/
def parse (list : String) : Except OptionsError Policy := (words list).foldlM applyWord {}

end Policy

/-- What follows a given start of a text. -/
def Text.strip? : (start text : List Char) → Option (List Char)
  | [], text => some text
  | _ :: _, [] => none
  | expected :: start, c :: text => if c = expected then Text.strip? start text else none

namespace Options

/-- What an argument is. -/
inductive Argument where
  /-- A policy. -/
  | policy (list : String)
  /-- A number of spaces. -/
  | indent (text : String)
  /-- An option that is not known. -/
  | unknown
  /-- Not an option. -/
  | positional
deriving DecidableEq

/-- Tell an argument by its start. -/
def classify (argument : String) : Argument :=
  let characters := argument.toList
  match Text.strip? "--policy=".toList characters with
  | some list => .policy (String.ofList list)
  | none =>
    match Text.strip? "--indent=".toList characters with
    | some text => .indent (String.ofList text)
    | none =>
      match Text.strip? "--".toList characters with
      | some _ => .unknown
      | none => .positional

/-- Read arguments in order, after the options read before them. -/
def parseFrom (options : Options) : List String → Except OptionsError (Options × List String)
  | [] => .ok (options, [])
  | argument :: rest =>
    match classify argument with
    | .policy list => do
      let policy ← Policy.parse list
      parseFrom { options with policy } rest
    | .indent text =>
      match Text.readSize? text with
      | some width => parseFrom { options with width } rest
      | none => .error (.invalidIndent text)
    | .unknown => .error (.unknownOption argument)
    | .positional => do
      let (options, positional) ← parseFrom options rest
      return (options, argument :: positional)

/-- The options among arguments, and the other arguments in order. -/
def parse (arguments : List String) : Except OptionsError (Options × List String) :=
  parseFrom {} arguments

end Options

end Foreach
