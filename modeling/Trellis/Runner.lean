import Trellis.Expr.Outline
import Trellis.Parse.Source

/-!
# Running source text

A runner scans a source text and prints its tokens, or parses it and prints the outline of the tree.
Nothing is printed once the sink has recorded an error. At the prompt, each line of the input is a run
of its own. The input is read as it stands: a line ends at a line feed and nowhere else.

A source text of any length is run. Where a stack of limited depth would not hold the outline of a very long
chain of operators, a run as it is defined here still prints it.

* `Runner.run`: runs one source text;
* `Runner.runLine`, `Runner.prompt`: runs the lines of an input, each after a prompt.
-/

namespace Trellis

/-- An input that is read line by line: its text, and whether an interrupt comes where the text ends. -/
structure Input where
  text : String
  interrupted : Bool := false

/-- A runner: where it reports errors, and whether it prints tokens instead of trees. -/
structure Runner where
  sink : Sink := {}
  showTokens : Bool := false

namespace Runner

/-- Runs one source text: what it prints, and the runner afterwards. -/
def run (r : Runner) (source : String) : String × Runner :=
  let found := scan source
  let sink := found.reportTo r.sink
  if sink.hadError then ("", { r with sink })
  else if r.showTokens then
    (String.join (found.tokens.map fun t => t.listed ++ "\n"), { r with sink })
  else
    match parseTokens found.tokens sink with
    | (some tree, sink) => (tree.outline ++ "\n", { r with sink })
    | (none, sink) => ("", { r with sink })

/-- What is printed before each line is read. -/
def promptText : String := "> "

/-- Runs one line of an input, as if nothing had been run before it. -/
def runLine (r : Runner) (line : String) : String × Runner :=
  { r with sink := r.sink.reset }.run line

/-- Runs lines one after another, with a prompt before each and one more at the end. -/
def promptLines (r : Runner) : List String → String × Runner
  | [] => (promptText, r)
  | line :: rest =>
    let (printed, next) := r.runLine line
    let (more, last) := next.promptLines rest
    (promptText ++ printed ++ more, last)

/-- How a prompt ends. -/
inductive Ending where
  /-- The input has come to its end, and there is an exit code. -/
  | finished (exitCode : Nat)
  | interrupted
deriving DecidableEq

/-- Runs the lines of an input: how that ends, what it prints, and the runner afterwards. -/
def prompt (r : Runner) (input : Input) : Ending × String × Runner :=
  (if input.interrupted then .interrupted else .finished 0,
    r.promptLines (Text.inputLines input.text))

end Runner

end Trellis
