import Trellis.Number.Written
import Trellis.Text.Quoted

/-!
# Literal values

A literal holds null, a truth value, a number or a text. Values are compared in two ways: a literal
expression is equal to another only if kind and value are, while the literal of a token counts
`true` as the number one and `false` as zero. They are written in three ways: as in source text, as
in a token listing, and quoted.
-/

namespace Trellis

/-- The value of a literal; a token without a literal holds `null`. -/
inductive Value where
  | null
  | truth (value : Bool)
  | number (value : Number)
  | text (value : String)
deriving DecidableEq, Inhabited

namespace Value

/-- Equality in kind and value. -/
def same : Value → Value → Bool
  | .null, .null => true
  | .truth a, .truth b => a == b
  | .number a, .number b => a.agrees b
  | .text a, .text b => a == b
  | _, _ => false

/-- A truth value as a number. -/
def numberOfTruth : Bool → Number
  | true => .one
  | false => .zero

/-- Equality of values, where a truth value counts as a number. -/
def agrees : Value → Value → Bool
  | .truth a, .number b => (numberOfTruth a).agrees b
  | .number a, .truth b => a.agrees (numberOfTruth b)
  | a, b => a.same b

/-- The spelling of a value as a literal; a text stands without quotes. -/
def spelling : Value → String
  | .null => "null"
  | .truth true => "true"
  | .truth false => "false"
  | .number x => x.text
  | .text s => s

/-- The value in a token listing. -/
def listed : Value → String
  | .null => "None"
  | .truth true => "True"
  | .truth false => "False"
  | .number x => x.text
  | .text s => s

/-- The value in a token listing that tells texts from all else. -/
def quoted : Value → String
  | .text s => Text.quoted s
  | v => v.listed

end Value

end Trellis
