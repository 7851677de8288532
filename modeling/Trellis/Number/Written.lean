import Trellis.Number.Shortest

/-!
# Numbers as text

A number is written with the digits of its shortest decimal: in positional form when the decimal
point falls near them, and in exponent form otherwise. Reading takes more spellings than writing
makes: a sign, leading and trailing zeros, a bare point, an exponent of either case, and the words
for infinity and for no number in any letter case.

* `Layout`: where positional form ends; `Layout.standard` is the one in use;
* `Number.text`: the text of a number;
* `Number.ofText?`: the number that a text spells.
-/

namespace Trellis

/-- The form of a written number. -/
structure Layout where
  /-- Positional form needs the point after more than this many digits (below zero: before them). -/
  pointAbove : Int
  /-- Positional form needs the point after at most this many digits. -/
  pointAtMost : Int
  /-- The least number of digits of an exponent. -/
  exponentWidth : Nat

/-- Positional from `0.0001` up to but excluding `10 ^ 16`, and exponents of two digits at least. -/
def Layout.standard : Layout := ⟨-4, 16, 2⟩

namespace Decimal

/-- The digits of a decimal. -/
def digitList (d : Decimal) : List Char := Nat.toDigits 10 d.digits

/-- The number of digits before the decimal point. -/
def point (d : Decimal) : Int := d.digitList.length + d.exponent

/-- Positional form, with a digit on both sides of the point. -/
def positional (d : Decimal) : List Char :=
  if d.point ≤ 0 then '0' :: '.' :: List.replicate (-d.point).toNat '0' ++ d.digitList
  else if d.exponent < 0 then
    d.digitList.take d.point.toNat ++ '.' :: d.digitList.drop d.point.toNat
  else d.digitList ++ List.replicate d.exponent.toNat '0' ++ ['.', '0']

/-- Exponent form: one digit before the point, and no point where no digit follows it. -/
def scientific (width : Nat) (d : Decimal) : List Char :=
  let tail := d.digitList.drop 1
  let exponent := d.point - 1
  let size := Nat.toDigits 10 exponent.natAbs
  d.digitList.take 1 ++ (if tail = [] then [] else '.' :: tail)
    ++ 'e' :: (if exponent < 0 then '-' else '+')
    :: List.replicate (width - size.length) '0' ++ size

/-- The digits of a decimal in the form that a layout gives them. -/
def written (l : Layout) (d : Decimal) : List Char :=
  if l.pointAbove < d.point ∧ d.point ≤ l.pointAtMost then d.positional
  else d.scientific l.exponentWidth

end Decimal

namespace Number

/-- The characters of a written number. -/
def chars : Number → List Char
  | .nan => ['n', 'a', 'n']
  | .signed negative m =>
    (if negative then ['-'] else []) ++
      if m = .infinity then ['i', 'n', 'f'] else m.shortest.written .standard

/-- The text of a number. -/
def text (x : Number) : String := String.ofList x.chars

/-! ## Reading -/

/-- A sign in front of a number, and what follows it. -/
def splitSign : List Char → Bool × List Char
  | '-' :: rest => (true, rest)
  | '+' :: rest => (false, rest)
  | rest => (false, rest)

/-- The exponent that a text spells; no text at all is exponent zero. -/
def exponentOf? : List Char → Option Int
  | [] => some 0
  | c :: rest =>
    let (negative, size) := splitSign rest
    if (c = 'e' ∨ c = 'E') ∧ size ≠ [] ∧ size.all Char.isDigit then
      let n : Int := Decimal.valueOfDigits size
      some (if negative then -n else n)
    else none

/-- The decimal that a text without sign spells. -/
def decimalOf? (text : List Char) : Option Decimal :=
  let whole := text.takeWhile Char.isDigit
  let afterWhole := text.dropWhile Char.isDigit
  let (fraction, rest) := match afterWhole with
    | '.' :: tail => (tail.takeWhile Char.isDigit, tail.dropWhile Char.isDigit)
    | _ => ([], afterWhole)
  if whole ++ fraction = [] then none
  else (exponentOf? rest).map fun e =>
    ⟨Decimal.valueOfDigits (whole ++ fraction), e - fraction.length⟩

/-- The number that a text spells. -/
def ofText? (text : String) : Option Number :=
  let (negative, body) := splitSign text.toList
  let word := String.ofList (body.map Char.toLower)
  if word = "nan" then some .nan
  else if word = "inf" ∨ word = "infinity" then some (.signed negative .infinity)
  else (decimalOf? body).map fun d => .signed negative d.magnitude

end Number

end Trellis
