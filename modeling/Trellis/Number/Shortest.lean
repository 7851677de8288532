import Trellis.Number.Rounding

/-!
# The shortest decimal of a magnitude

Among the decimals that round to a finite magnitude, the shortest is one with the fewest digits, and
of those the one nearest to the magnitude; of two equally near, the one whose last digit is even.
On each decimal grid only the two neighbours of the magnitude need a look: if any point of the grid
rounds to the magnitude, one of these does.

* `Magnitude.onGrid?`: a neighbour on one grid that rounds to the magnitude;
* `Magnitude.shortest`: the first such on ever finer grids, without trailing zeros.
-/

namespace Trellis

/-- Drops trailing zeros, which keeps the value. -/
def Decimal.trim (d : Decimal) : Decimal :=
  if d.digits ≠ 0 ∧ d.digits % 10 = 0 then Decimal.trim ⟨d.digits / 10, d.exponent + 1⟩ else d
termination_by d.digits
decreasing_by omega

namespace Magnitude

/-- The place of the leading decimal digit of a positive finite magnitude: 0 for the ones place. -/
def leadingPlace (m : Magnitude) : Int :=
  ((Nat.toDigits 10 (m.units * Nat.pow 10 400 / Nat.pow 2 1074)).length : Int) - 401

/-- The one or two points next to a magnitude on the grid of multiples of `10 ^ place`, the nearer
one first, and of two equally near the even one. -/
def neighbours (m : Magnitude) (place : Int) : List Decimal :=
  let num := m.units * Nat.pow 10 (-place).toNat
  let den := Nat.pow 2 1074 * Nat.pow 10 place.toNat
  let q := num / den
  let r := num % den
  if r = 0 then [⟨q, place⟩]
  else if 2 * r < den ∨ (2 * r = den ∧ q % 2 = 0) then [⟨q, place⟩, ⟨q + 1, place⟩]
  else [⟨q + 1, place⟩, ⟨q, place⟩]

/-- The point next to a magnitude on a grid that rounds to it, if there is one. -/
def onGrid? (m : Magnitude) (place : Int) : Option Decimal :=
  (m.neighbours place).find? (·.magnitude == m)

/-- The value of a finite magnitude written out in full. -/
def exactDecimal (m : Magnitude) : Decimal := ⟨m.units * Nat.pow 5 1074, -1074⟩

/-- The shortest decimal that rounds to a finite magnitude. Seventeen digits always suffice. -/
def shortest (m : Magnitude) : Decimal :=
  if m.rank = 0 then ⟨0, 0⟩
  else
    let place := m.leadingPlace
    let found := (List.range 17).findSome? fun n : Nat => m.onGrid? (place - n)
    (found.getD m.exactDecimal).trim

end Magnitude

end Trellis
