import Trellis.Text.Printable

/-!
# Quoted text

Quoted text stands between single quotes, or between double quotes if it holds a single quote and
no double quote. A backslash comes before the quote in use and before a backslash; line feed,
carriage return and tab have a letter; every other unprintable character is written by its code
point in two, four or eight hexadecimal digits.

* `Text.hex`: a number in a fixed count of hexadecimal digits;
* `Text.quoted`: the quoted form of a text.
-/

namespace Trellis.Text

/-- The last `width` hexadecimal digits of a number, leading zeros included. -/
def hex : (width : Nat) → Nat → List Char
  | 0, _ => []
  | width + 1, n => hex width (n / 16) ++ [Nat.digitChar (n % 16)]

/-- The quote that a text is written in. -/
def quoteFor (text : List Char) : Char :=
  if '\'' ∈ text ∧ '"' ∉ text then '"' else '\''

/-- How a character is written between quotes of the given kind. -/
def escaped (quote c : Char) : List Char :=
  if c = quote ∨ c = '\\' then ['\\', c]
  else if c = '\n' then ['\\', 'n']
  else if c = '\r' then ['\\', 'r']
  else if c = '\t' then ['\\', 't']
  else if isPrintable c then [c]
  else if c.toNat < 0x100 then '\\' :: 'x' :: hex 2 c.toNat
  else if c.toNat < 0x10000 then '\\' :: 'u' :: hex 4 c.toNat
  else '\\' :: 'U' :: hex 8 c.toNat

/-- The quoted form of the characters of a text. -/
def quotedChars (text : List Char) : List Char :=
  let quote := quoteFor text
  quote :: text.flatMap (escaped quote) ++ [quote]

/-- The quoted form of a text. -/
def quoted (text : String) : String := String.ofList (quotedChars text.toList)

/-- A code point in upper-case hexadecimal, with at least four digits. -/
def codePoint (c : Char) : String :=
  let digits := Nat.toDigits 16 c.toNat
  String.ofList ((List.replicate (4 - digits.length) '0' ++ digits).map Char.toUpper)

end Trellis.Text
