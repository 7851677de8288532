import Trellis.Number.Written
import Trellis.Proofs.Rounding

/-!
# The shortest decimal rounds back

The digits that a magnitude is written with are rounded to that magnitude again, and the place of the
decimal point among them is that of the magnitude itself.

* `Magnitude.magnitude_shortest`: the shortest decimal is rounded to its magnitude;
* `Decimal.point_le_iff`: the place of the point tells the powers of ten above the value;
* `Magnitude.positional_iff`: which magnitudes are written in positional form.
-/

namespace Trellis

variable {m : Magnitude} {d : Decimal} {k : ℤ}

/-! ## The shortest decimal -/

theorem Decimal.value_trim (d : Decimal) : d.trim.value = d.value := by
  induction d using Decimal.trim.induct with
  | case1 d h ih =>
    have hten : d.digits = d.digits / 10 * 10 := by omega
    rw [Decimal.trim, if_pos h, ih]
    simp only [Decimal.value]
    rw [zpow_add_one₀ (by norm_num)]
    nth_rewrite 2 [hten]
    push_cast
    ring
  | case2 d h => rw [Decimal.trim, if_neg h]

namespace Magnitude

theorem value_five_pow (n k : ℕ) :
    (⟨n * Nat.pow 5 k, -(k : ℤ)⟩ : Decimal).value = n / (Nat.pow 2 k : ℕ) := by
  have hten : (10 : ℚ) ^ k = 5 ^ k * 2 ^ k := by
    rw [← mul_pow]
    norm_num
  have hfive : (5 : ℚ) ^ k ≠ 0 := pow_ne_zero k (by norm_num)
  simp only [Decimal.value, Nat.pow_eq, Nat.cast_mul, Nat.cast_pow, Nat.cast_ofNat]
  rw [zpow_neg, zpow_natCast, hten, mul_inv, mul_assoc, ← mul_assoc (5 ^ k),
    mul_inv_cancel₀ hfive, one_mul, div_eq_mul_inv]

theorem value_exactDecimal (m : Magnitude) : m.exactDecimal.value = m.value := by
  have hplaces : (-1074 : ℤ) = -((1074 : ℕ) : ℤ) := rfl
  rw [exactDecimal, value, unitsPerOne_eq, hplaces]
  -- no power of the literal is to be computed
  generalize 1074 = k
  exact value_five_pow m.units k

theorem magnitude_zero (e : ℤ) : (⟨0, e⟩ : Decimal).magnitude = zero := by
  apply Decimal.magnitude_of_value_eq (by decide)
  simp [Decimal.value, value, units, significand, zero]

/-- The shortest decimal of a finite magnitude is rounded to it. -/
theorem magnitude_shortest (hm : m ≠ infinity) : m.shortest.magnitude = m := by
  unfold shortest
  split
  · rename_i h
    exact (magnitude_zero 0).trans (eq_of_rank_eq h.symm)
  · rw [Decimal.magnitude_congr (Decimal.value_trim _)]
    generalize hfound : (List.range 17).findSome? (fun n : Nat => m.onGrid? (m.leadingPlace - n)) =
      found
    cases found with
    | none => exact Decimal.magnitude_of_value_eq hm m.value_exactDecimal
    | some d =>
      obtain ⟨n, -, hn⟩ := List.exists_of_findSome?_eq_some hfound
      have heq := List.find?_some hn
      simpa using heq

theorem digits_shortest_ne_zero (hm : m ≠ infinity) (h0 : m ≠ zero) : m.shortest.digits ≠ 0 := by
  intro h
  apply h0
  rw [← magnitude_shortest hm, ← magnitude_zero m.shortest.exponent, ← h]

end Magnitude

/-! ## The decimal point -/

namespace Decimal

theorem digits_lt (d : Decimal) : d.digits < 10 ^ d.digitList.length :=
  (Nat.length_toDigits_le_iff (by decide) Nat.length_toDigits_pos).1 (Nat.le_refl _)

theorem le_digits (hd : d.digits ≠ 0) : 10 ^ (d.digitList.length - 1) ≤ d.digits := by
  by_contra h
  have hpos : 0 < d.digitList.length := Nat.length_toDigits_pos
  rcases Nat.eq_zero_or_pos (d.digitList.length - 1) with h1 | h1
  · rw [h1] at h
    omega
  · have hle := (Nat.length_toDigits_le_iff (by decide) h1).2 (Nat.lt_of_not_le h)
    unfold digitList at *
    omega

/-- The place of the point tells which powers of ten are above the value. -/
theorem point_le_iff (hd : d.digits ≠ 0) : d.point ≤ k ↔ d.value < 10 ^ k := by
  have hten : (1 : ℚ) < 10 := by norm_num
  have hpos : 0 < d.digitList.length := Nat.length_toDigits_pos
  constructor
  · intro h
    have hlt : (d.digits : ℚ) < 10 ^ d.digitList.length := by exact_mod_cast d.digits_lt
    calc d.value < 10 ^ d.digitList.length * 10 ^ d.exponent :=
          mul_lt_mul_of_pos_right hlt (zpow_pos (by norm_num) _)
      _ = 10 ^ d.point := by rw [point, zpow_add₀ (by norm_num), zpow_natCast]
      _ ≤ 10 ^ k := zpow_le_zpow_right₀ hten.le h
  · intro h
    by_contra hk
    have hle : (10 : ℚ) ^ (d.digitList.length - 1) ≤ d.digits := by exact_mod_cast le_digits hd
    have hpoint : k ≤ (d.digitList.length - 1 : ℕ) + d.exponent := by
      unfold point at hk
      omega
    apply absurd h (not_lt_of_ge _)
    calc (10 : ℚ) ^ k ≤ 10 ^ ((d.digitList.length - 1 : ℕ) + d.exponent) :=
          zpow_le_zpow_right₀ hten.le hpoint
      _ = 10 ^ (d.digitList.length - 1) * 10 ^ d.exponent := by
          rw [zpow_add₀ (by norm_num), zpow_natCast]
      _ ≤ d.value := mul_le_mul_of_nonneg_right hle (zpow_nonneg (by norm_num) _)

end Decimal

/-! ## Positional form -/

namespace Magnitude

/-- The magnitude of a power of ten. -/
def ofTenPow (k : ℤ) : Magnitude := Decimal.magnitude ⟨1, k⟩

theorem value_tenPow (k : ℤ) : (⟨1, k⟩ : Decimal).value = 10 ^ k := by
  simp [Decimal.value]

/-- Where a power of ten is written as itself, the point tells which magnitudes are below it. -/
theorem point_shortest_le_iff (hm : m ≠ infinity) (h0 : m ≠ zero)
    (hk : (ofTenPow k).shortest = ⟨1, k⟩) : m.shortest.point ≤ k ↔ m.rank < (ofTenPow k).rank := by
  have hd := digits_shortest_ne_zero hm h0
  rw [Decimal.point_le_iff hd, ← value_tenPow]
  constructor
  · intro h
    have hle := Decimal.magnitude_mono h.le
    rw [magnitude_shortest hm] at hle
    apply Nat.lt_of_le_of_ne hle
    intro heq
    have hsame : m = ofTenPow k := eq_of_rank_eq heq
    rw [hsame, hk] at h
    exact lt_irrefl _ h
  · intro h
    by_contra hge
    have hle := Decimal.magnitude_mono (le_of_not_gt hge)
    rw [magnitude_shortest hm] at hle
    exact absurd h (Nat.not_lt.2 hle)

theorem shortest_tenPow (h0 : (ofTenPow k).rank ≠ 0) (hplace : (ofTenPow k).leadingPlace = k)
    (hgrid : (ofTenPow k).onGrid? k = some ⟨1, k⟩) : (ofTenPow k).shortest = ⟨1, k⟩ := by
  have hrange : List.range 17 = 0 :: List.range' 1 16 := by decide
  rw [shortest, if_neg h0]
  simp only [hrange, List.findSome?_cons, hplace, Nat.cast_zero, sub_zero, hgrid, Option.getD_some]
  rw [Decimal.trim, if_neg (by simp)]

theorem value_large : (ofTenPow 16).value = 10 ^ 16 := by
  have hunits : (ofTenPow 16).units = 10 ^ 16 * unitsPerOne := by decide +kernel
  rw [value, hunits, Nat.cast_mul, Nat.cast_pow]
  exact mul_div_cancel_right₀ _ unitsPerOne_pos.ne'

theorem value_lt_iff (hm : m ≠ infinity) : m.value < 10 ^ 16 ↔ m.rank < (ofTenPow 16).rank := by
  rw [← value_large, ← not_le, ← not_le, rank_le_iff (by decide +kernel) hm]

/-- Below `0.0001` are the magnitudes below the one that it is rounded to, which is a little greater. -/
theorem le_value_iff (hm : m ≠ infinity) : 1 / 10000 ≤ m.value ↔ (ofTenPow (-4)).rank ≤ m.rank := by
  have hle : (1 : ℚ) / 10000 ≤ (ofTenPow (-4)).value := by
    have hunits : unitsPerOne ≤ (ofTenPow (-4)).units * 10000 := by decide +kernel
    have hcast := Nat.cast_le (α := ℚ).2 hunits
    rw [value, div_le_div_iff₀ (by norm_num) unitsPerOne_pos, one_mul]
    rwa [Nat.cast_mul, Nat.cast_ofNat] at hcast
  obtain ⟨below, hrank, hlt, hfin⟩ : ∃ b : Magnitude, b.rank + 1 = (ofTenPow (-4)).rank ∧
      b.value < 1 / 10000 ∧ b ≠ infinity := by
    refine ⟨⟨(ofTenPow (-4)).rank - 1, by decide +kernel⟩, by decide +kernel, ?_, by decide +kernel⟩
    have hunits : units ⟨(ofTenPow (-4)).rank - 1, by decide +kernel⟩ * 10000 < unitsPerOne := by
      decide +kernel
    have hcast := Nat.cast_lt (α := ℚ).2 hunits
    rw [value, div_lt_div_iff₀ unitsPerOne_pos (by norm_num), one_mul]
    rwa [Nat.cast_mul, Nat.cast_ofNat] at hcast
  constructor
  · intro h
    by_contra hr
    have hbelow := (rank_le_iff hm hfin).1 (by omega)
    exact absurd (h.trans hbelow) (not_le.2 hlt)
  · intro h
    exact hle.trans ((rank_le_iff (by decide +kernel) hm).1 h)

theorem value_eq_zero_iff (hm : m ≠ infinity) : m.value = 0 ↔ m = zero := by
  have hzero : zero.value = 0 := by simp [value, units, significand, zero]
  constructor
  · intro h
    have hle := (rank_le_iff hm (by decide)).2 (h.trans hzero.symm).le
    exact eq_of_rank_eq (Nat.le_antisymm hle (Nat.zero_le _))
  · rintro rfl
    exact hzero

/-- A finite magnitude is written in positional form if it is zero, or at least `0.0001` and below
`10 ^ 16`. -/
theorem positional_iff (hm : m ≠ infinity) :
    (-4 < m.shortest.point ∧ m.shortest.point ≤ 16) ↔
      m.value = 0 ∨ 1 / 10000 ≤ m.value ∧ m.value < 10 ^ 16 := by
  rw [value_eq_zero_iff hm]
  by_cases h0 : m = zero
  · subst h0
    have hpoint : zero.shortest.point = 1 := by
      have hrank : zero.rank = 0 := rfl
      rw [shortest, if_pos hrank]
      rfl
    rw [hpoint]
    exact iff_of_true (by decide) (.inl rfl)
  · have hsmall : (ofTenPow (-4)).shortest = ⟨1, -4⟩ :=
      shortest_tenPow (by decide +kernel) (by decide +kernel) (by decide +kernel)
    have hlarge : (ofTenPow 16).shortest = ⟨1, 16⟩ :=
      shortest_tenPow (by decide +kernel) (by decide +kernel) (by decide +kernel)
    have hlow := point_shortest_le_iff hm h0 hsmall
    have hhigh := point_shortest_le_iff hm h0 hlarge
    rw [le_value_iff hm, value_lt_iff hm, ← hhigh, ← not_lt (a := m.rank), ← hlow, not_le]
    simp [h0]

end Magnitude

end Trellis
