import Trellis.Token.Kind
import Trellis.Value

/-!
# Tokens

A token is a kind, the piece of source text it was made from, the value it stands for and the line
it begins on. Tokens may also be built by hand, so that these four need not fit together.

* `Token.listed`: the token in a listing;
* `Token.quoted`: the token with its texts quoted, which tells any two tokens apart;
* `Token.agrees`: equality of tokens, where a literal `true` counts as one and `false` as zero.
-/

namespace Trellis

/-- A token of the expression language. -/
structure Token where
  kind : TokenKind
  lexeme : String
  literal : Value := .null
  line : Int
deriving DecidableEq, Inhabited

namespace Token

/-- Kind, lexeme and literal, where there is a literal. -/
def listed (t : Token) : String :=
  match t.literal with
  | .null => t.kind.name ++ " " ++ t.lexeme
  | v => t.kind.name ++ " " ++ t.lexeme ++ " " ++ v.listed

/-- All four parts, with the texts quoted. -/
def quoted (t : Token) : String :=
  "Token(" ++ t.kind.name ++ ", " ++ Text.quoted t.lexeme ++ ", " ++ t.literal.quoted ++ ", "
    ++ toString t.line ++ ")"

/-- A token whose kind is that of a literal. -/
def isLiteral (t : Token) : Bool := t.kind.isLiteral

/-- A token whose kind is that of a reserved word. -/
def isKeyword (t : Token) : Bool := t.kind.isKeyword

/-- Equality of tokens by kind, lexeme, line and the value of the literal. -/
def agrees (s t : Token) : Bool :=
  s.kind == t.kind && s.lexeme == t.lexeme && s.literal.agrees t.literal && s.line == t.line

end Token

end Trellis
