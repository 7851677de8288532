import Trellis.CommandLine.Basic

/-!
# The program

Carries out the plan of the command line: reads the script or the lines of standard input, prints what
the runner gives back, and exits.
-/

namespace Trellis.CommandLine

/-- Prints an outcome and gives its exit code. -/
def finish (outcome : Outcome) : IO UInt32 := do
  IO.print outcome.out
  IO.eprint outcome.err
  return outcome.exitCode.toUInt32

/-- The content of a file, or nothing if it cannot be read. -/
def readContent (path : String) : IO (Option ByteArray) := do
  try
    return some (← IO.FS.readBinFile path)
  catch _ =>
    return none

/-- Runs lines, and prints a prompt after each. -/
def runLines (runner : Runner) : List String → IO Runner
  | [] => return runner
  | line :: rest => do
    let (printed, after) := runner.runLine line
    IO.print (printed ++ Runner.promptText)
    IO.eprint after.sink.console
    runLines { after with sink := { after.sink with entries := [] } } rest

/-- Reads standard input piece by piece to its end, runs its lines, and gives the exit code. -/
partial def runInput (runner : Runner) : IO UInt32 := do
  (← IO.getStdout).flush
  let piece ← (← IO.getStdin).getLine
  if piece.isEmpty then return 0
  let after ← runLines runner (Text.inputLines piece)
  runInput after

end Trellis.CommandLine

open Trellis Trellis.CommandLine in
/-- The program. Its trace lines are stamped with the milliseconds of the clock. -/
def main (arguments : List String) : IO UInt32 := do
  match Plan.ofArguments (toString (← IO.monoMsNow)) arguments with
  | .finish outcome => finish outcome
  | .script path runner =>
    match runScript runner path (← readContent path) with
    | .ok outcome => finish outcome
    | .error _ => finish ⟨1, "", "Not UTF-8 text: " ++ path ++ "\n"⟩
  | .prompt runner =>
    IO.print Runner.promptText
    runInput runner
