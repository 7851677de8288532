/-!
# Binary64 numbers

A number of the expression language is a datum of the 64 bit binary format. The magnitudes of that
format are finitely many and ordered, so a magnitude is kept as its *rank* in that order: rank 0 is
zero, and the last rank, `2047 * 2 ^ 52`, is infinity. All finite magnitudes are whole multiples of
the least positive one, `2 ^ -1074`; `Magnitude.units` counts them. Powers are spelled `Nat.pow`, which
means the same whatever else is imported.

* `Magnitude.units`: the value of a finite magnitude, as a multiple of `2 ^ -1074`;
* `Number.agrees`: equality of values, where the two zeros are equal and no number equals `nan`.
-/

namespace Trellis

/-- A magnitude of the binary64 format, by its rank in increasing order. -/
structure Magnitude where
  rank : Nat
  le_top : rank ≤ 2047 * Nat.pow 2 52
deriving DecidableEq

namespace Magnitude

/-- The magnitude zero. -/
def zero : Magnitude := ⟨0, by decide⟩

/-- The magnitude above all finite ones. -/
def infinity : Magnitude := ⟨2047 * Nat.pow 2 52, by decide⟩

instance : Inhabited Magnitude := ⟨zero⟩

/-- The significand: below `2 ^ 53`, and from `2 ^ 52` on unless the magnitude is subnormal. -/
def significand (m : Magnitude) : Nat :=
  if m.rank < Nat.pow 2 52 then m.rank else Nat.pow 2 52 + m.rank % Nat.pow 2 52

/-- The power of two that the significand is multiplied by, counted from `2 ^ -1074`. -/
def scale (m : Magnitude) : Nat := m.rank / Nat.pow 2 52 - 1

/-- The value of a finite magnitude, as a multiple of `2 ^ -1074`. -/
def units (m : Magnitude) : Nat := m.significand * Nat.pow 2 m.scale

end Magnitude

/-- A binary64 number: a sign and a magnitude, or no number at all. -/
inductive Number where
  | nan
  | signed (negative : Bool) (magnitude : Magnitude)
deriving DecidableEq, Inhabited

namespace Number

/-- The number with the value one. -/
def one : Number := .signed false ⟨1023 * Nat.pow 2 52, by decide⟩

/-- The positive zero. -/
def zero : Number := .signed false .zero

/-- Equality of values: the two zeros are equal, and `nan` differs even from itself. -/
def agrees : Number → Number → Bool
  | .signed n m, .signed n' m' => m == m' && (n == n' || m == .zero)
  | _, _ => false

end Number

end Trellis
