import Trellis.Diagnostic.Basic
import Trellis.Token.Basic

/-!
# Errors of parsing

Three things can be wrong with a list of tokens: a required token is absent, an operand is absent, or
parentheses and prefix operators are nested too deeply. Each is reported at a token, or at the end of
the list. Apart from these, a token cursor can be moved or read where there is no token.
-/

namespace Trellis

/-- What is wrong with a list of tokens. -/
inductive ParseFault where
  /-- A token of the given kind is absent. -/
  | missingToken (expected : TokenKind) (message : String)
  | operandExpected
  | nestedTooDeeply
deriving DecidableEq

/-- A fault, the token it is reported at, or none at the end of the list, and a line. -/
structure ParseError where
  fault : ParseFault
  found : Option Token
  line : Int
deriving DecidableEq

/-- The codes of parse errors and what they stand for. -/
def parseCodes : List (String × String) :=
  [("P001", "Expected token not found"), ("P005", "Expected expression"),
   ("P006", "Expression nested too deeply")]

/-- How a diagnostic names the place of a token. -/
def locationOf : Option Token → String
  | none => " at end"
  | some t => if t.kind = .endOfInput then " at end" else " at '" ++ t.lexeme ++ "'"

/-- What to do about an absent token. -/
def TokenKind.suggestions : TokenKind → List String
  | .rightParen => ["Add a closing parenthesis ')'"]
  | .rightBrace => ["Add a closing brace '\x7d'"]
  | .semicolon => ["Add a semicolon ';' to end the statement"]
  | _ => []

namespace ParseFault

/-- The code of a fault. -/
def code : ParseFault → String
  | .missingToken .. => "P001"
  | .operandExpected => "P005"
  | .nestedTooDeeply => "P006"

/-- The message for a fault. -/
def message : ParseFault → String
  | .missingToken _ message => message
  | .operandExpected => "Expect expression."
  | .nestedTooDeeply => "Expression nested too deeply."

/-- The help text for a fault that is reported at a given token. -/
def help (found : Option Token) : ParseFault → String
  | .missingToken expected _ =>
    "The parser expected to see " ++ expected.name ++ " here, but found "
      ++ (found.map (·.kind.name)).getD "end of input" ++ " instead."
  | .operandExpected =>
    "Expressions start with a number, string, true, false, null, '(', '!' or '-'."
  | .nestedTooDeeply => "Too many nested parentheses or prefix operators in one expression."

/-- What could be done about a fault. -/
def suggestions : ParseFault → List String
  | .missingToken expected _ => expected.suggestions
  | .operandExpected => ["Check for a missing operand"]
  | .nestedTooDeeply => ["Split the expression into smaller parts"]

end ParseFault

/-- The diagnostic that reports a parse error. -/
def ParseError.diagnostic (e : ParseError) : Diagnostic where
  message := e.fault.message
  line := e.line
  location := locationOf e.found
  code := some e.fault.code
  help := some (e.fault.help e.found)
  suggestions := e.fault.suggestions

/-- A use of the token cursor where there is no token. -/
inductive CursorError where
  | advanceAtEnd
  | peekAtEnd
  | previousAtStart
deriving DecidableEq

/-- The message for a misuse of the cursor. -/
def CursorError.message : CursorError → String
  | .advanceAtEnd => "Unexpected end of input."
  | .peekAtEnd => "No token to peek."
  | .previousAtStart => "No previous token available."

end Trellis
