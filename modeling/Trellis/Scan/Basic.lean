import Trellis.Diagnostic.Sink
import Trellis.Scan.Error
import Trellis.Scan.Piece
import Trellis.Token.Basic

/-!
# Scanning

Scanning cuts source text into pieces, gives each piece the line it begins on, and keeps the pieces
that are tokens and those that are faults. A fault never stops the scan: the piece is left out and
the rest is read as if it were not there. The tokens always end with one of kind `endOfInput`, on the
last line.

* `place`: pieces with their offsets and lines;
* `scan`: the tokens and the lexical errors of a text;
* `Scan.reportTo`: adds the errors of a scan to a sink.
-/

namespace Trellis

namespace Piece

/-- The line ends in a piece. -/
def newlines (p : Piece) : Nat := p.text.count '\n'

/-- The value of a piece: that of a number, or the text between the quotes of a string. -/
def literal (p : Piece) : Value :=
  match p.form with
  | .token .number => .number (.signed false (Decimal.ofNumeral p.text).magnitude)
  | .token .string => .text (String.ofList (p.text.drop 1).dropLast)
  | _ => .null

end Piece

/-- A piece with the offset and the line at which it begins. -/
structure Placed where
  piece : Piece
  offset : Nat
  line : Nat

/-- Places pieces one after another from a given offset and line on. -/
def place (offset line : Nat) : List Piece → List Placed
  | [] => []
  | p :: ps => ⟨p, offset, line⟩ :: place (offset + p.text.length) (line + p.newlines) ps

namespace Placed

/-- The token made from a piece. -/
def token? (p : Placed) : Option Token :=
  match p.piece.form with
  | .token kind =>
    some { kind, lexeme := String.ofList p.piece.text, literal := p.piece.literal, line := p.line }
  | _ => none

/-- The fault of a piece: a stray character at its own line, and an unclosed string at the last line
that it reaches. -/
def error? (p : Placed) : Option LexicalError :=
  match p.piece.form with
  | .stray => p.piece.text.head?.map fun c => ⟨.strayCharacter c, p.line⟩
  | .unclosed => some ⟨.unclosedString, p.line + p.piece.newlines⟩
  | _ => none

end Placed

/-- The last line of a text. -/
def lastLine (source : String) : Nat := 1 + source.toList.count '\n'

/-- The placed pieces of a text. -/
def placedPieces (source : String) : List Placed := place 0 1 (pieces source.toList)

/-- The token after all others. -/
def endToken (line : Int) : Token := { kind := .endOfInput, lexeme := "", line }

/-- What a scan finds. -/
structure Scan where
  tokens : List Token
  errors : List LexicalError

/-- The tokens and the lexical errors of a text. -/
def scan (source : String) : Scan where
  tokens := (placedPieces source).filterMap Placed.token? ++ [endToken (lastLine source)]
  errors := (placedPieces source).filterMap Placed.error?

/-- Adds the errors of a scan to a sink. -/
def Scan.reportTo (s : Scan) (sink : Sink) : Sink :=
  (sink.addAll (s.errors.map LexicalError.diagnostic)).trace "crumble.lexer.lexer"
    ("scanned " ++ toString s.tokens.length ++ " tokens with " ++ toString s.errors.length
      ++ " errors")

end Trellis
