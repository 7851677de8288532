import Trellis.Text.Case

/-!
# Diagnostics

A diagnostic is a message about a source line, with a severity and a fragment that says where on the
line. `Diagnostic.headline` is its one-line text; `Diagnostic.details` adds the code, the help text
and the suggestions that it has.
-/

namespace Trellis

/-- A message about a line of source text. -/
structure Diagnostic where
  message : String
  line : Int
  severity : String := "error"
  location : String := ""
  code : Option String := none
  help : Option String := none
  suggestions : List String := []
deriving DecidableEq, Inhabited

namespace Diagnostic

/-- A diagnostic that counts as an error. -/
def isError (d : Diagnostic) : Bool := d.severity == "error"

/-- Line, severity, location and message. -/
def headline (d : Diagnostic) : String :=
  "[line " ++ toString d.line ++ "] " ++ Text.capitalized d.severity ++ d.location ++ ": " ++ d.message

/-- The headline with code, help text and suggestions; an empty code or help text is left out. -/
def details (d : Diagnostic) : String :=
  let code := match d.code with
    | none | some "" => ""
    | some c => " (" ++ c ++ ")"
  let help := match d.help with
    | none | some "" => ""
    | some h => "\n  help: " ++ h
  d.headline ++ code ++ help ++ String.join (d.suggestions.map ("\n    - " ++ ·))

end Diagnostic

end Trellis
