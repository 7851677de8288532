import Mathlib.Data.Nat.Log
import Mathlib.Data.Rat.Cast.Order
import Mathlib.Tactic.Ring
import Mathlib.Tactic.Positivity
import Mathlib.Tactic.NormNum
import Mathlib.Tactic.FieldSimp
import Mathlib.Tactic.Linarith
import Trellis.Number.Rounding

/-!
# Rounding keeps the order

Rounding depends on the value of a decimal only, keeps the order of values, and takes the value of a
finite magnitude to that magnitude.

* `Magnitude.value`, `Decimal.value`: the values, as rational numbers;
* `nearestEven_le_iff`: where rounding to a whole number stays at or below one;
* `Magnitude.ofRatio_mono`: rounding a quotient keeps the order;
* `Decimal.magnitude_mono`, `Decimal.magnitude_of_value_eq`: the same of decimals.
-/

namespace Trellis

/-! ## Whole numbers -/

section

variable {n d n' d' k : Nat}

/-- Rounding stays at or below `k` up to the middle between `k` and the next number, and in the middle
if `k` is even. -/
theorem nearestEven_le_iff (hd : 0 < d) :
    nearestEven n d ≤ k ↔ 2 * n < (2 * k + 1) * d ∨ 2 * n = (2 * k + 1) * d ∧ k % 2 = 0 := by
  have hn : d * (n / d) + n % d = n := Nat.div_add_mod n d
  have hr : n % d < d := Nat.mod_lt n hd
  unfold nearestEven
  generalize n / d = q at hn ⊢
  generalize n % d = r at hn hr ⊢
  subst hn
  rcases Nat.lt_trichotomy q k with h | rfl | h
  · obtain ⟨j, rfl⟩ := Nat.exists_eq_add_of_lt h
    have hlow : 2 * (d * q + r) < (2 * (q + j + 1) + 1) * d := by
      have : 0 ≤ j * d := Nat.zero_le _
      nlinarith
    refine iff_of_true ?_ (.inl hlow)
    simp only
    split <;> omega
  · have hmid : (2 * q + 1) * d = 2 * (d * q) + d := by ring
    rw [hmid]
    simp only
    split <;> omega
  · obtain ⟨j, rfl⟩ := Nat.exists_eq_add_of_lt h
    have hhigh : (2 * k + 1) * d < 2 * (d * (k + j + 1) + r) := by
      have : 0 ≤ d * j := Nat.zero_le _
      nlinarith
    refine iff_of_false ?_ (by omega)
    simp only
    split <;> omega

theorem nearestEven_mono (hd : 0 < d) (hd' : 0 < d') (h : n * d' ≤ n' * d) :
    nearestEven n d ≤ nearestEven n' d' := by
  rw [nearestEven_le_iff hd]
  have hk := (nearestEven_le_iff hd').1 (Nat.le_refl (nearestEven n' d'))
  generalize nearestEven n' d' = k at hk ⊢
  rcases hk with hlt | ⟨heq, heven⟩
  · left
    apply Nat.lt_of_mul_lt_mul_right (a := d')
    calc 2 * n * d' = 2 * (n * d') := by ring
      _ ≤ 2 * (n' * d) := Nat.mul_le_mul_left 2 h
      _ = 2 * n' * d := by ring
      _ < (2 * k + 1) * d' * d := Nat.mul_lt_mul_of_pos_right hlt hd
      _ = (2 * k + 1) * d * d' := by ring
  · have hle : 2 * n ≤ (2 * k + 1) * d := by
      apply Nat.le_of_mul_le_mul_right (c := d') _ hd'
      calc 2 * n * d' = 2 * (n * d') := by ring
        _ ≤ 2 * (n' * d) := Nat.mul_le_mul_left 2 h
        _ = 2 * n' * d := by ring
        _ = (2 * k + 1) * d' * d := by rw [heq]
        _ = (2 * k + 1) * d * d' := by ring
    rcases Nat.lt_or_eq_of_le hle with hlt | heq'
    · exact .inl hlt
    · exact .inr ⟨heq', heven⟩

theorem nearestEven_mul (hd : 0 < d) : nearestEven (n * d) d = n := by
  apply Nat.le_antisymm
  · rw [nearestEven_le_iff hd]
    left
    have : n * d * 2 + d = (2 * n + 1) * d := by ring
    omega
  · by_contra h
    have hle : nearestEven (n * d) d ≤ n - 1 := by omega
    obtain ⟨j, rfl⟩ := Nat.exists_eq_add_of_lt (show 0 < n by omega)
    rw [nearestEven_le_iff hd] at hle
    have : (0 + j + 1) * d * 2 = (2 * j + 1) * d + d := by ring
    simp only [Nat.zero_add, Nat.add_sub_cancel] at *
    omega

end

/-! ## Quotients -/

namespace Magnitude

variable {n d n' d' : Nat}

theorem eq_of_rank_eq {m m' : Magnitude} (h : m.rank = m'.rank) : m = m' := by
  cases m
  cases m'
  simp_all

/-- The power of two, counted from the least positive magnitude, that a quotient is rounded at. -/
def ratioScale (n d : Nat) : Nat := (n / d).log2 - 52

/-- The significand of a rounded quotient, before it is carried over. -/
def ratioSignificand (n d : Nat) : Nat := nearestEven n (d * 2 ^ ratioScale n d)

theorem rank_ofRatio (n d : Nat) : (ofRatio n d).rank =
    min (ratioScale n d * 2 ^ 52 + ratioSignificand n d) (2047 * 2 ^ 52) := rfl

theorem ratioSignificand_le (hd : 0 < d) : ratioSignificand n d ≤ 2 ^ 53 := by
  have hpos : 0 < d * 2 ^ ratioScale n d := Nat.mul_pos hd (Nat.two_pow_pos _)
  have hlog : n / d < 2 ^ (53 + ratioScale n d) := by
    apply Nat.lt_of_lt_of_le (Nat.lt_log2_self (n := n / d))
    apply Nat.pow_le_pow_right (by decide)
    unfold ratioScale
    omega
  have hlt : n < 2 ^ 53 * (d * 2 ^ ratioScale n d) := by
    have h := (Nat.div_lt_iff_lt_mul hd).1 hlog
    rwa [Nat.pow_add, Nat.mul_assoc, Nat.mul_comm _ d] at h
  unfold ratioSignificand
  rw [nearestEven_le_iff hpos]
  left
  generalize d * 2 ^ ratioScale n d = D at hlt hpos
  nlinarith

theorem le_ratioSignificand (hd : 0 < d) (hs : 0 < ratioScale n d) :
    2 ^ 52 ≤ ratioSignificand n d := by
  have hpos : 0 < d * 2 ^ ratioScale n d := Nat.mul_pos hd (Nat.two_pow_pos _)
  have hlog : (n / d).log2 = 52 + ratioScale n d := by
    unfold ratioScale at hs ⊢
    omega
  have hq : n / d ≠ 0 := by
    intro h
    rw [h, Nat.log2_zero] at hlog
    omega
  have hle : 2 ^ 52 * (d * 2 ^ ratioScale n d) ≤ n := by
    have h := Nat.log2_self_le hq
    rw [hlog, Nat.le_div_iff_mul_le hd, Nat.pow_add, Nat.mul_assoc, Nat.mul_comm _ d] at h
    exact h
  calc 2 ^ 52 = nearestEven (2 ^ 52 * (d * 2 ^ ratioScale n d)) (d * 2 ^ ratioScale n d) :=
        (nearestEven_mul hpos).symm
    _ ≤ ratioSignificand n d := nearestEven_mono hpos hpos (Nat.mul_le_mul_right _ hle)

/-- Rounding a quotient keeps the order. -/
theorem ofRatio_mono (hd : 0 < d) (hd' : 0 < d') (h : n * d' ≤ n' * d) :
    (ofRatio n d).rank ≤ (ofRatio n' d').rank := by
  have hq : n / d ≤ n' / d' := by
    rw [Nat.le_div_iff_mul_le hd']
    apply Nat.le_of_mul_le_mul_right (c := d) _ hd
    calc n / d * d' * d = n / d * d * d' := by ring
      _ ≤ n * d' := Nat.mul_le_mul_right _ (Nat.div_mul_le_self n d)
      _ ≤ n' * d := h
  have hlog : ratioScale n d ≤ ratioScale n' d' := by
    unfold ratioScale
    rw [Nat.log2_eq_log_two, Nat.log2_eq_log_two]
    exact Nat.sub_le_sub_right (Nat.log_mono_right hq) 52
  rw [rank_ofRatio, rank_ofRatio]
  apply min_le_min_right
  rcases Nat.lt_or_eq_of_le hlog with hlt | heq
  · -- a greater power of two makes up for any significand
    have hle : ratioSignificand n d ≤ 2 ^ 53 := ratioSignificand_le hd
    have hge : 2 ^ 52 ≤ ratioSignificand n' d' := le_ratioSignificand hd' (by omega)
    omega
  · rw [heq]
    apply Nat.add_le_add_left
    unfold ratioSignificand
    rw [heq]
    have hp : 0 < 2 ^ ratioScale n' d' := Nat.two_pow_pos _
    apply nearestEven_mono (Nat.mul_pos hd hp) (Nat.mul_pos hd' hp)
    calc n * (d' * 2 ^ ratioScale n' d') = n * d' * 2 ^ ratioScale n' d' := by ring
      _ ≤ n' * d * 2 ^ ratioScale n' d' := Nat.mul_le_mul_right _ h
      _ = n' * (d * 2 ^ ratioScale n' d') := by ring

theorem ofRatio_congr (hd : 0 < d) (hd' : 0 < d') (h : n * d' = n' * d) :
    ofRatio n d = ofRatio n' d' := by
  apply eq_of_rank_eq
  exact Nat.le_antisymm (ofRatio_mono hd hd' h.le) (ofRatio_mono hd' hd h.ge)

/-- The rank tells the significand and the power of two. -/
theorem ofRatio_normal {s f : Nat} (hf : f < 2 ^ 52) :
    ratioScale ((2 ^ 52 + f) * 2 ^ s) 1 = s ∧ ratioSignificand ((2 ^ 52 + f) * 2 ^ s) 1 = 2 ^ 52 + f := by
  have hscale : ratioScale ((2 ^ 52 + f) * 2 ^ s) 1 = s := by
    have hlog : ((2 ^ 52 + f) * 2 ^ s).log2 = 52 + s := by
      have hne : (2 ^ 52 + f) * 2 ^ s ≠ 0 := Nat.mul_ne_zero (by omega) (Nat.two_pow_pos s).ne'
      rw [Nat.log2_eq_iff hne]
      constructor
      · rw [Nat.pow_add]
        exact Nat.mul_le_mul_right _ (Nat.le_add_right _ _)
      · rw [Nat.add_right_comm, Nat.pow_add]
        exact Nat.mul_lt_mul_of_pos_right (by omega) (Nat.two_pow_pos s)
    rw [ratioScale, Nat.div_one, hlog, Nat.add_sub_cancel_left]
  refine ⟨hscale, ?_⟩
  rw [ratioSignificand, hscale, Nat.one_mul]
  exact nearestEven_mul (Nat.two_pow_pos s)

/-- A finite magnitude is rounded to itself. -/
theorem ofRatio_units {m : Magnitude} (hm : m ≠ infinity) : ofRatio m.units 1 = m := by
  obtain ⟨r, hle⟩ := m
  have hr : r < 2047 * 2 ^ 52 := by
    apply Nat.lt_of_le_of_ne hle
    rintro rfl
    exact hm rfl
  suffices h : ratioScale (units ⟨r, hle⟩) 1 * 2 ^ 52 + ratioSignificand (units ⟨r, hle⟩) 1 = r by
    apply eq_of_rank_eq
    rw [rank_ofRatio, h]
    exact Nat.min_eq_left hle
  by_cases hsub : r < 2 ^ 52
  · have hunits : units ⟨r, hle⟩ = r := by
      simp only [units, significand, scale, Nat.pow_eq, if_pos hsub, Nat.div_eq_of_lt hsub]
      exact Nat.mul_one r
    have hscale : ratioScale r 1 = 0 := by
      rw [ratioScale, Nat.div_one, Nat.sub_eq_zero_iff_le]
      by_cases h0 : r = 0
      · rw [h0, Nat.log2_zero]
        exact Nat.zero_le _
      · exact Nat.le_of_lt ((Nat.log2_lt h0).2 hsub)
    have hsig : ratioSignificand r 1 = r := by
      rw [ratioSignificand, hscale, Nat.pow_zero]
      simpa using nearestEven_mul (n := r) Nat.one_pos
    rw [hunits, hscale, hsig, Nat.zero_mul, Nat.zero_add]
  · have hunits : units ⟨r, hle⟩ = (2 ^ 52 + r % 2 ^ 52) * 2 ^ (r / 2 ^ 52 - 1) := by
      simp only [units, significand, scale, Nat.pow_eq, if_neg hsub]
    obtain ⟨hscale, hsig⟩ := ofRatio_normal (s := r / 2 ^ 52 - 1)
      (Nat.mod_lt r (Nat.two_pow_pos 52))
    rw [hunits, hscale, hsig]
    omega

/-- How many times the least positive magnitude goes into one. -/
@[irreducible] def unitsPerOne : Nat := Nat.pow 2 1074

theorem unitsPerOne_eq : unitsPerOne = Nat.pow 2 1074 := by
  unfold unitsPerOne
  rfl

theorem unitsPerOne_pos : (0 : ℚ) < unitsPerOne := by
  have hpos : 0 < unitsPerOne := by decide +kernel
  exact_mod_cast hpos

/-- The value of a finite magnitude. -/
def value (m : Magnitude) : ℚ := m.units / unitsPerOne

end Magnitude

/-! ## Decimals -/

namespace Decimal

/-- The value of a decimal. -/
def value (d : Decimal) : ℚ := d.digits * 10 ^ d.exponent

/-- A decimal is rounded as a quotient that is its value in units of the least positive magnitude. -/
theorem magnitude_eq (d : Decimal) : ∃ n k : Nat, 0 < k ∧ d.magnitude = .ofRatio n k ∧
    (n : ℚ) / k = d.value * Magnitude.unitsPerOne := by
  unfold magnitude value
  rw [← Magnitude.unitsPerOne_eq]
  by_cases he : 0 ≤ d.exponent
  · obtain ⟨e, he'⟩ := Int.eq_ofNat_of_zero_le he
    refine ⟨_, _, Nat.one_pos, if_pos he, ?_⟩
    rw [he', Int.toNat_natCast, zpow_natCast]
    push_cast [Nat.pow_eq]
    rw [div_one]
  · obtain ⟨e, he'⟩ := Int.eq_ofNat_of_zero_le (show 0 ≤ -d.exponent by omega)
    refine ⟨_, _, Nat.pow_pos (by decide), if_neg he, ?_⟩
    rw [show d.exponent = -(e : ℤ) by omega, neg_neg, Int.toNat_natCast, zpow_neg, zpow_natCast]
    push_cast [Nat.pow_eq]
    rw [div_eq_mul_inv, mul_right_comm]

variable {d d' : Decimal} {m m' : Magnitude}

/-- Rounding keeps the order of values. -/
theorem magnitude_mono (h : d.value ≤ d'.value) : d.magnitude.rank ≤ d'.magnitude.rank := by
  obtain ⟨n, k, hk, hm, hv⟩ := d.magnitude_eq
  obtain ⟨n', k', hk', hm', hv'⟩ := d'.magnitude_eq
  rw [hm, hm']
  apply Magnitude.ofRatio_mono hk hk'
  have hle : (n : ℚ) / k ≤ n' / k' := by
    rw [hv, hv']
    exact mul_le_mul_of_nonneg_right h Magnitude.unitsPerOne_pos.le
  rw [div_le_div_iff₀ (by exact_mod_cast hk) (by exact_mod_cast hk')] at hle
  exact_mod_cast hle

/-- Decimals of one value are rounded alike. -/
theorem magnitude_congr (h : d.value = d'.value) : d.magnitude = d'.magnitude := by
  apply Magnitude.eq_of_rank_eq
  exact Nat.le_antisymm (magnitude_mono h.le) (magnitude_mono h.ge)

/-- A decimal that has the value of a finite magnitude is rounded to it. -/
theorem magnitude_of_value_eq (hm : m ≠ .infinity) (h : d.value = m.value) : d.magnitude = m := by
  obtain ⟨n, k, hk, hmag, hv⟩ := d.magnitude_eq
  rw [hmag, ← Magnitude.ofRatio_units hm]
  apply Magnitude.ofRatio_congr hk Nat.one_pos
  rw [h, Magnitude.value, div_mul_cancel₀ _ Magnitude.unitsPerOne_pos.ne',
    div_eq_iff (Nat.cast_pos.2 hk).ne'] at hv
  rw [Nat.mul_one]
  exact_mod_cast hv

end Decimal

namespace Magnitude

variable {m m' : Magnitude}

theorem rank_le_of_value_le (hm : m ≠ infinity) (hm' : m' ≠ infinity) (h : m.value ≤ m'.value) :
    m.rank ≤ m'.rank := by
  unfold value at h
  have hunits : m.units ≤ m'.units := by
    have := (div_le_div_iff_of_pos_right unitsPerOne_pos).1 h
    exact_mod_cast this
  rw [← ofRatio_units hm, ← ofRatio_units hm']
  exact ofRatio_mono Nat.one_pos Nat.one_pos (Nat.mul_le_mul_right 1 hunits)

/-- Finite magnitudes have the order of their values. -/
theorem rank_le_iff (hm : m ≠ infinity) (hm' : m' ≠ infinity) :
    m.rank ≤ m'.rank ↔ m.value ≤ m'.value := by
  constructor
  · intro h
    by_contra hlt
    have hge := rank_le_of_value_le hm' hm (le_of_not_ge hlt)
    obtain rfl := eq_of_rank_eq (Nat.le_antisymm h hge)
    exact hlt le_rfl
  · exact rank_le_of_value_le hm hm'

end Magnitude

end Trellis
