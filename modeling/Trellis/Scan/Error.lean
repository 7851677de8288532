import Trellis.Diagnostic.Basic
import Trellis.Text.Quoted

/-!
# Lexical errors

Two things can be wrong with source text: a character that begins no token, and a string that is not
closed. Both are reported as diagnostics with a code, a help text and, for a string, a suggestion.
-/

namespace Trellis

/-- What is wrong with source text. -/
inductive LexicalFault where
  | strayCharacter (c : Char)
  | unclosedString
deriving DecidableEq

/-- A fault of source text and the line it is reported at. -/
structure LexicalError where
  fault : LexicalFault
  line : Int
deriving DecidableEq

/-- The codes of lexical errors and what they stand for. -/
def lexicalCodes : List (String × String) :=
  [("L001", "Unexpected character"), ("L002", "Unterminated string literal")]

namespace LexicalFault

/-- The code of a fault. -/
def code : LexicalFault → String
  | .strayCharacter _ => "L001"
  | .unclosedString => "L002"

/-- The message for a fault. -/
def message : LexicalFault → String
  | .strayCharacter c => "Unexpected character: " ++ String.singleton c
  | .unclosedString => "Unterminated string."

/-- The help text for a fault; an unprintable character is shown by its code point. -/
def help : LexicalFault → String
  | .strayCharacter c =>
    if Text.isPrintable c then
      "The character '" ++ String.singleton c ++ "' is not valid in Crumble source code."
    else "Non-printable character (Unicode: U+" ++ Text.codePoint c ++ ") is not allowed."
  | .unclosedString => "String literals must be closed with a matching \" quote."

/-- What could be done about a fault. -/
def suggestions : LexicalFault → List String
  | .strayCharacter _ => []
  | .unclosedString => ["Add a closing \" quote"]

end LexicalFault

/-- The diagnostic that reports a lexical error. -/
def LexicalError.diagnostic (e : LexicalError) : Diagnostic where
  message := e.fault.message
  line := e.line
  code := some e.fault.code
  help := some e.fault.help
  suggestions := e.fault.suggestions

end Trellis
