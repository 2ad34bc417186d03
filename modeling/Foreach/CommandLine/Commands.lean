import Foreach.CommandLine.Options
import Foreach.Samples.Report

/-!
# Commands

What the program answers to its arguments: an exit code, and what it writes to its two outputs.
-/
namespace Foreach

/-- The answer to a list of arguments. -/
structure Response where
  /-- The exit code, zero for success. -/
  code : Nat := 0
  /-- What is written to the standard output. -/
  output : String := ""
  /-- What is written to the standard error. -/
  error : String := ""
deriving DecidableEq

namespace Response

/-- Lines on the standard output. -/
def success (lines : List String) : Response :=
  { output := String.join (lines.map (· ++ "\n")) }

/-- Lines on the standard error, and failure. -/
def failure (lines : List String) : Response :=
  { code := 1, error := String.join (lines.map (· ++ "\n")) }

end Response

namespace CommandLine

/-- What the program can do. -/
def usage : List String := [
  "Duckc - structural enumerable detection and foreach lowering",
  "",
  "Usage: duckc <command> [options]",
  "",
  "Commands:",
  "  inspect [fixture...]      Show detected members and disposal",
  "  lower <fixture>           Print the lowered sum loop",
  "  run <fixture> [values...] Sum the values through the lowered loop",
  "  explain <code>            Describe an error code",
  "",
  "Options:",
  "  --policy=<p,...>          generic-first, non-generic-first, first-declared, reject",
  "  --indent=<n>              Indent width of rendered code (default: 4)",
  "",
  "Fixtures: " ++ FixtureKind.allTexts,
  "",
  "Set DUCK_LOG (or RUST_LOG) to enable tracing, e.g. DUCK_LOG=debug."]

/-- What is wrong with a word for a fixture. -/
def unknownFixture (word : String) : String := "unknown fixture '" ++ word ++ "'"

/-- The fixture of a word, or the answer to a word that names none. -/
def fixture (word : String) : Except Response FixtureKind :=
  match FixtureKind.ofText? word with
  | some kind => .ok kind
  | none =>
    .error (.failure ["error: " ++ unknownFixture word,
      "Valid fixtures: " ++ FixtureKind.allTexts])

/-- The integer of a word, or the answer to a word that is none. -/
def integer (word : String) : Except Response Int64 :=
  match Text.readInteger? word with
  | some value => .ok value
  | none => .error (.failure ["error: '" ++ word ++ "' is not an integer"])

/-- The answer with a text or with the diagnostic of an error. -/
def report : Except SumError String → Response
  | .ok text => .success [text]
  | .error error => .failure [error.diagnostic.render]

/-- The kinds that a report is about. -/
def inspectedKinds : List String → Except Response (List FixtureKind)
  | [] | ["all"] => .ok FixtureKind.all
  | words => words.mapM fixture

/-- Report on fixtures. -/
def inspect (options : Options) (words : List String) : Checked Response := do
  match inspectedKinds words with
  | .error refusal => return refusal
  | .ok kinds => return { output := ← (← Samples.build).inspect options.policy kinds }

/-- Write the sum of a fixture. -/
def lower (options : Options) : List String → Checked Response
  | [word] =>
    match fixture word with
    | .error refusal => return refusal
    | .ok kind => return report (← (← Samples.build).lower options.policy options.width kind)
  | _ => return .failure ["Usage: duckc lower <fixture> [--policy=<p>] [--indent=<n>]"]

/-- Run the sum of a fixture. -/
def run (options : Options) : List String → Checked Response
  | [] => return .failure ["Usage: duckc run <fixture> [values...]"]
  | word :: values =>
    let arguments : Except Response (FixtureKind × List Int64) := do
      let kind ← fixture word
      return (kind, ← values.mapM integer)
    match arguments with
    | .error refusal => return refusal
    | .ok (kind, items) => return report (← (← Samples.build).run options.policy kind items)

/-- Explain a code. -/
def explain : List String → Response
  | [code] =>
    match Code.explain? code with
    | some text => .success [text]
    | none => .failure ["Unknown error code: " ++ code,
        "Codes have the format EXXXX where X is a digit."]
  | _ => .failure ["Usage: duckc explain <code>"]

/-- The answer to a command that is not known. -/
def unknownCommand (command : String) : Response :=
  { Response.failure ["Unknown command: " ++ command, ""] with
    output := (Response.success usage).output }

/-- The answer to a command with its options and other arguments. -/
def dispatch (options : Options) : List String → Checked Response
  | [] => return .success usage
  | command :: rest =>
    if command = "inspect" then inspect options rest
    else if command = "lower" then lower options rest
    else if command = "run" then run options rest
    else if command = "explain" then return explain rest
    else if command = "help" ∨ command = "--help" ∨ command = "-h" then return .success usage
    else return unknownCommand command

/-- The answer to a list of arguments. -/
def respond (arguments : List String) : Checked Response :=
  match Options.parse arguments with
  | .error error => return .failure ["error: " ++ error.message]
  | .ok (options, positional) => dispatch options positional

end CommandLine

end Foreach
