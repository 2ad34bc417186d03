import Foreach.CommandLine.Commands

/-!
# The program

Answers its arguments on the standard output and the standard error.
-/
open Foreach

/-- Write an answer to the outputs. -/
def writeResponse (response : Response) : IO UInt32 := do
  (← IO.getStdout).putStr response.output
  (← IO.getStderr).putStr response.error
  return response.code.toUInt32

/-- Answer the arguments of the program. -/
def main (arguments : List String) : IO UInt32 :=
  match CommandLine.respond arguments with
  | .ok response => writeResponse response
  | .error .violation => writeResponse { code := 101, error := "broken precondition\n" }
  | .error .exhausted => writeResponse { code := 101, error := "bound exceeded\n" }
