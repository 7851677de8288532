import Trellis.Number.Basic

/-!
# Rounding a decimal to binary64

A decimal is a whole number of units of some decimal place. Its magnitude is the nearest one of the
binary64 format; of two equally near the one with the even significand; from halfway between the
greatest finite magnitude and the next power of two on, infinity.

* `Magnitude.ofRatio`: the magnitude nearest to a quotient;
* `Decimal.magnitude`: the magnitude nearest to a decimal;
* `Decimal.ofNumeral`: the decimal written by digits with an optional fraction.
-/

namespace Trellis

/-- The whole number nearest to `num / den`, the even one of two. -/
def nearestEven (num den : Nat) : Nat :=
  let q := num / den
  let r := num % den
  if 2 * r < den ∨ (2 * r = den ∧ q % 2 = 0) then q else q + 1

/-- The magnitude nearest to `num / den` multiples of `2 ^ -1074`, the even one of two. A significand
that rounds up to `2 ^ 53` needs no special case: the rank moves on to the next power of two. -/
def Magnitude.ofRatio (num den : Nat) : Magnitude :=
  let scale := (num / den).log2 - 52
  ⟨min (scale * Nat.pow 2 52 + nearestEven num (den * Nat.pow 2 scale)) (2047 * Nat.pow 2 52),
    Nat.min_le_right ..⟩

/-- The value `digits * 10 ^ exponent`. -/
structure Decimal where
  digits : Nat
  exponent : Int
deriving DecidableEq

namespace Decimal

/-- The magnitude nearest to a decimal. -/
def magnitude (d : Decimal) : Magnitude :=
  if 0 ≤ d.exponent then .ofRatio (d.digits * Nat.pow 10 d.exponent.toNat * Nat.pow 2 1074) 1
  else .ofRatio (d.digits * Nat.pow 2 1074) (Nat.pow 10 (-d.exponent).toNat)

/-- The number that a row of decimal digits writes. -/
def valueOfDigits (ds : List Char) : Nat := ds.foldl (fun n c => 10 * n + (c.toNat - '0'.toNat)) 0

/-- The decimal written by digits, with a fraction if a point follows them. -/
def ofNumeral (text : List Char) : Decimal :=
  let whole := text.takeWhile Char.isDigit
  let fraction := ((text.dropWhile Char.isDigit).drop 1).takeWhile Char.isDigit
  ⟨valueOfDigits (whole ++ fraction), -fraction.length⟩

end Decimal

end Trellis
