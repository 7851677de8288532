import Trellis.CommandLine.Arguments
import Trellis.CommandLine.Help
import Trellis.Runner
import Trellis.Scan.File

/-!
# The command

The command runs one script, or else a prompt over its standard input. Its exit code is 0 if all went
well, 2 for a mistake in the arguments, 64 for more than one script, 65 for errors in a script, 66 for
a script that cannot be opened, and 130 if the prompt was interrupted.

* `Plan.ofArguments`: what is to be done, before any file or input is read;
* `runScript`, `runPrompt`: the two things that can be done;
* `execute`: the whole command, given the files and the input.
-/

namespace Trellis.CommandLine

/-- An exit code with the texts on standard output and standard error. -/
structure Outcome where
  exitCode : Nat
  out : String
  err : String
deriving DecidableEq

/-- What is to be done. -/
inductive Plan where
  /-- Nothing but what the outcome says. -/
  | finish (outcome : Outcome)
  | script (path : String) (runner : Runner)
  | prompt (runner : Runner)

/-- The runner for given options. Only at the finest log level is progress traced, and each line of
it begins with the given stamp. -/
def runnerFor (stamp : String) (options : Options) : Runner where
  sink := { stamp := if options.logLevel = .debug then some stamp else none }
  showTokens := options.showTokens

/-- What the arguments ask to be done. -/
def Plan.ofArguments (stamp : String) (arguments : List String) : Plan :=
  match Invocation.ofArguments arguments with
  | .help => .finish ⟨0, helpText, ""⟩
  | .refuse e => .finish ⟨2, "", usage ++ commandName ++ ": error: " ++ e.message ++ "\n"⟩
  | .run options =>
    match options.scripts with
    | [] => .prompt (runnerFor stamp options)
    | [path] => .script path (runnerFor stamp options)
    | _ => .finish ⟨64, oneScriptText, ""⟩

/-- Runs a script with the given content; there is none if the script cannot be opened. Content that
is not UTF-8 gives an error instead of an outcome. -/
def runScript (runner : Runner) (path : String) (content : Option ByteArray) :
    Except ReadError Outcome :=
  match readSource content with
  | .error .cannotOpen => .ok ⟨66, "", "Error reading file: " ++ path ++ "\n"⟩
  | .error .notText => .error .notText
  | .ok source =>
    let (out, after) := runner.run source
    .ok ⟨if after.sink.hadError then 65 else 0, out, after.sink.console⟩

/-- Runs the prompt over an input. An interrupt ends the line of the last prompt. -/
def runPrompt (runner : Runner) (input : Input) : Outcome :=
  match runner.prompt input with
  | (.finished exitCode, out, after) => ⟨exitCode, out, after.sink.console⟩
  | (.interrupted, out, after) => ⟨130, out ++ "\n", after.sink.console⟩

/-- Runs the command, given the files and the standard input. The stream of the sink is standard error,
and so is the log. -/
def execute (stamp : String) (arguments : List String) (files : String → Option ByteArray)
    (input : Input) : Except ReadError Outcome :=
  match Plan.ofArguments stamp arguments with
  | .finish outcome => .ok outcome
  | .script path runner => runScript runner path (files path)
  | .prompt runner => .ok (runPrompt runner input)

end Trellis.CommandLine
