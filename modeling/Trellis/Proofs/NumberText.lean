import Trellis.Number.Written
import Trellis.Proofs.Numeral
import Trellis.Proofs.Shortest

/-!
# Reading a written number back

A number is written so that reading finds it again, in positional form and in exponent form alike. So
its text tells the number.

* `Decimal.numeral_positional`: positional form is a numeral of the value;
* `Decimal.scientific_eq`: exponent form is a numeral with an exponent behind it;
* `ofText?_text`: reading finds the number that was written;
* `numberChar_text`: the characters that numbers are written with.
-/

namespace Trellis

variable {d : Decimal} {m : Magnitude} {x : Number}

namespace Decimal

/-! ## Rows of digits -/

theorem valueOfDigits_eq (ds : List Char) : valueOfDigits ds = Nat.ofDigitChars 10 ds 0 := rfl

theorem valueOfDigits_digitList (d : Decimal) : valueOfDigits d.digitList = d.digits :=
  Nat.ofDigitChars_ten_toDigits

theorem valueOfDigits_zeros (k : Nat) (ds : List Char) :
    valueOfDigits (List.replicate k '0' ++ ds) = valueOfDigits ds := by
  rw [valueOfDigits_eq, Nat.ofDigitChars_append, Nat.ofDigitChars_replicate_zero, Nat.mul_zero,
    valueOfDigits_eq]

theorem valueOfDigits_shift (ds : List Char) (k : Nat) :
    valueOfDigits (ds ++ List.replicate k '0') = 10 ^ k * valueOfDigits ds := by
  rw [valueOfDigits_eq, Nat.ofDigitChars_append, Nat.ofDigitChars_replicate_zero, valueOfDigits_eq]

theorem isDigit_toDigits (n : Nat) : ∀ c ∈ Nat.toDigits 10 n, isDigit c :=
  fun _ => Nat.isDigit_of_mem_toDigits (by decide) (by decide)

theorem isDigit_zeros (k : Nat) : ∀ c ∈ List.replicate k '0', isDigit c := by
  intro c hc
  obtain rfl := List.eq_of_mem_replicate hc
  decide

theorem isDigit_append {ds es : List Char} (hds : ∀ c ∈ ds, isDigit c) (hes : ∀ c ∈ es, isDigit c) :
    ∀ c ∈ ds ++ es, isDigit c :=
  List.forall_mem_append.2 ⟨hds, hes⟩

theorem isDigit_digitList : ∀ c ∈ d.digitList, isDigit c := isDigit_toDigits d.digits

theorem digitList_ne_nil (d : Decimal) : d.digitList ≠ [] := Nat.toDigits_ne_nil

/-! ## Positional form -/

theorem positional_eq (d : Decimal) : ∃ ds es, d.positional = ds ++ '.' :: es ∧
    ds ≠ [] ∧ (∀ c ∈ ds, isDigit c) ∧ es ≠ [] ∧ (∀ c ∈ es, isDigit c) ∧
    (⟨valueOfDigits (ds ++ es), -es.length⟩ : Decimal).value = d.value := by
  have hpos : d.digitList.length ≠ 0 := mt List.length_eq_zero_iff.1 d.digitList_ne_nil
  unfold positional
  split
  · rename_i hpoint
    have hplace : -((List.replicate (-d.point).toNat '0' ++ d.digitList).length : ℤ) = d.exponent := by
      rw [List.length_append, List.length_replicate]
      unfold point at hpoint ⊢
      omega
    refine ⟨['0'], List.replicate (-d.point).toNat '0' ++ d.digitList, rfl, by simp,
      isDigit_zeros 1, by simp [d.digitList_ne_nil],
      isDigit_append (isDigit_zeros _) isDigit_digitList, ?_⟩
    have hdigits : valueOfDigits (['0'] ++ (List.replicate (-d.point).toNat '0' ++ d.digitList)) =
        d.digits := by
      rw [← List.replicate_one, valueOfDigits_zeros, valueOfDigits_zeros, valueOfDigits_digitList]
    rw [hplace, hdigits]
  split
  · rename_i hpoint hexp
    have hplace : -((d.digitList.drop d.point.toNat).length : ℤ) = d.exponent := by
      rw [List.length_drop]
      unfold point at hpoint ⊢
      omega
    have htake : d.digitList.take d.point.toNat ≠ [] := by
      rw [← List.length_pos_iff, List.length_take]
      omega
    have hdrop : d.digitList.drop d.point.toNat ≠ [] := by
      intro h
      rw [h] at hplace
      simp at hplace
      omega
    refine ⟨_, _, rfl, htake, fun c hc => isDigit_digitList c (List.mem_of_mem_take hc), hdrop,
      fun c hc => isDigit_digitList c (List.mem_of_mem_drop hc), ?_⟩
    rw [hplace, List.take_append_drop, valueOfDigits_digitList]
  · rename_i hpoint hexp
    obtain ⟨k, hk⟩ := Int.eq_ofNat_of_zero_le (not_lt.1 hexp)
    refine ⟨d.digitList ++ List.replicate d.exponent.toNat '0', ['0'], by simp,
      by simp [d.digitList_ne_nil], isDigit_append isDigit_digitList (isDigit_zeros _), by simp,
      isDigit_zeros 1, ?_⟩
    have hzeros : List.replicate k '0' ++ ['0'] = List.replicate (k + 1) '0' :=
      List.replicate_succ'.symm
    rw [hk, Int.toNat_natCast, List.append_assoc, hzeros, valueOfDigits_shift,
      valueOfDigits_digitList]
    simp only [value, hk, List.length_singleton, Nat.cast_one, zpow_neg_one, zpow_natCast]
    push_cast
    ring

/-- Positional form is a numeral, and one of the value. -/
theorem numeral_positional (d : Decimal) :
    Numeral d.positional ∧ (ofNumeral d.positional).value = d.value := by
  obtain ⟨ds, es, heq, hne, hds, hne', hes, hvalue⟩ := d.positional_eq
  rw [heq, ofNumeral_fraction hds hes]
  exact ⟨.fraction hne hds hne' hes, hvalue⟩

/-! ## Exponent form -/

/-- An exponent with its letter and sign, and a least number of digits. -/
def exponentText (w : Nat) (k : ℤ) : List Char :=
  'e' :: (if k < 0 then '-' else '+') ::
    (List.replicate (w - (Nat.toDigits 10 k.natAbs).length) '0' ++ Nat.toDigits 10 k.natAbs)

theorem exponentText_eq (w : Nat) (k : ℤ) : ∃ sign size, exponentText w k = 'e' :: sign :: size ∧
    (sign = '+' ∨ sign = '-') ∧ Numeral size := by
  refine ⟨_, _, rfl, by split <;> simp, .whole (by simp [Nat.toDigits_ne_nil]) ?_⟩
  exact isDigit_append (isDigit_zeros _) (isDigit_toDigits _)

theorem exponentOf?_exponentText (w : Nat) (k : ℤ) :
    Number.exponentOf? (exponentText w k) = some k := by
  unfold exponentText
  generalize w - (Nat.toDigits 10 k.natAbs).length = j
  have hne : List.replicate j '0' ++ Nat.toDigits 10 k.natAbs ≠ [] := by
    simp [Nat.toDigits_ne_nil]
  have hall : (List.replicate j '0' ++ Nat.toDigits 10 k.natAbs).all Char.isDigit :=
    List.all_eq_true.2 (isDigit_append (isDigit_zeros j) (isDigit_toDigits _))
  have hsize : valueOfDigits (List.replicate j '0' ++ Nat.toDigits 10 k.natAbs) = k.natAbs := by
    rw [valueOfDigits_zeros]
    exact Nat.ofDigitChars_ten_toDigits
  generalize List.replicate j '0' ++ Nat.toDigits 10 k.natAbs = size at hne hall hsize
  by_cases hk : k < 0
  · simp [Number.exponentOf?, Number.splitSign, hk, hne, hall, hsize, abs_of_neg hk]
  · simp [Number.exponentOf?, Number.splitSign, hk, hne, hall, hsize, abs_of_nonneg (not_lt.1 hk)]

/-- Exponent form is a numeral with an exponent behind it. -/
theorem scientific_eq (w : Nat) (d : Decimal) : ∃ u k, d.scientific w = u ++ exponentText w k ∧
    Numeral u ∧ ofNumeral u = ⟨d.digits, d.exponent - k⟩ := by
  obtain ⟨c, tail, hlist⟩ := List.exists_cons_of_ne_nil d.digitList_ne_nil
  have hdigits : ∀ e ∈ c :: tail, isDigit e := hlist ▸ isDigit_digitList
  obtain ⟨hc, htail⟩ := List.forall_mem_cons.1 hdigits
  have hone : ∀ e ∈ [c], isDigit e := List.forall_mem_singleton.2 hc
  have hvalue : valueOfDigits (c :: tail) = d.digits := hlist ▸ valueOfDigits_digitList d
  have hpoint : d.exponent - (d.point - 1) = -(tail.length : ℤ) := by
    simp only [point, hlist, List.length_cons]
    omega
  have hform : d.scientific w = c :: (if tail = [] then [] else '.' :: tail) ++
      exponentText w (d.point - 1) := by
    simp [scientific, exponentText, hlist]
  refine ⟨_, _, hform, ?_⟩
  rw [hpoint, ← hvalue]
  cases tail with
  | nil => exact ⟨.whole (by simp) hone, ofNumeral_whole hone⟩
  | cons e tail =>
    have hnum : Numeral ([c] ++ '.' :: e :: tail) := .fraction (by simp) hone (by simp) htail
    exact ⟨hnum, ofNumeral_fraction hone htail⟩

/-! ## Reading -/

theorem decimalOf?_scientific (w : Nat) (d : Decimal) :
    Number.decimalOf? (d.scientific w) = some d := by
  obtain ⟨u, k, heq, hu, hnum⟩ := scientific_eq w d
  have hstop : ∀ c ∈ (exponentText w k).head?, ¬ isDigit c ∧ c ≠ '.' := by
    rintro c ⟨⟩
    decide
  rw [heq, decimalOf?_append hu _ hstop, exponentOf?_exponentText, hnum]
  simp

/-- Reading finds a decimal of the value that was written, in whichever form. -/
theorem decimalOf?_written (l : Layout) (d : Decimal) :
    ∃ d', Number.decimalOf? (d.written l) = some d' ∧ d'.value = d.value := by
  unfold written
  split
  · obtain ⟨hnum, hvalue⟩ := d.numeral_positional
    exact ⟨_, decimalOf?_numeral hnum, hvalue⟩
  · exact ⟨d, decimalOf?_scientific _ d, rfl⟩

theorem written_head (l : Layout) (d : Decimal) : ∃ c w, d.written l = c :: w ∧ isDigit c := by
  have hhead : ∀ u, Numeral u → ∀ rest, ∃ c w, u ++ rest = c :: w ∧ isDigit c := by
    intro u hu rest
    cases u with
    | nil => exact absurd rfl (numeral_ne_nil hu)
    | cons c w => exact ⟨c, w ++ rest, rfl, numeral_head hu⟩
  unfold written
  split
  · simpa using hhead _ d.numeral_positional.1 []
  · obtain ⟨u, k, heq, hu, -⟩ := scientific_eq l.exponentWidth d
    rw [heq]
    exact hhead u hu _

end Decimal

/-- **Reading finds the number that was written.** -/
theorem ofText?_text (x : Number) : Number.ofText? x.text = some x := by
  cases x with
  | nan => decide
  | signed negative m =>
    by_cases hm : m = .infinity
    · subst hm
      cases negative <;> decide
    · obtain ⟨c, w, hform, hc⟩ := m.shortest.written_head .standard
      obtain ⟨d, hd, hvalue⟩ := m.shortest.decimalOf?_written .standard
      rw [hform] at hd
      rw [Number.text, Number.chars, if_neg hm, hform, ofText?_digit negative hc, hd, Option.map_some,
        Decimal.magnitude_congr hvalue, Magnitude.magnitude_shortest hm]

theorem text_injective : Function.Injective Number.text := by
  intro x y h
  have hx := ofText?_text x
  rw [h, ofText?_text y] at hx
  exact (Option.some.inj hx).symm

/-! ## Characters -/

/-- The characters that numbers are written with. -/
def NumberChar (c : Char) : Prop := isDigit c ∨ c ∈ ['-', '+', '.', 'e', 'n', 'a', 'i', 'f']

instance : DecidablePred NumberChar := fun _ => inferInstanceAs (Decidable (_ ∨ _))

theorem numberChar_numeral {u : List Char} (h : Numeral u) : ∀ c ∈ u, NumberChar c := by
  intro c hc
  rcases numeral_chars h c hc with hc | rfl
  · exact .inl hc
  · exact .inr (by decide)

theorem numberChar_written (l : Layout) (d : Decimal) : ∀ c ∈ d.written l, NumberChar c := by
  unfold Decimal.written
  split
  · exact numberChar_numeral d.numeral_positional.1
  · obtain ⟨u, k, heq, hu, -⟩ := d.scientific_eq l.exponentWidth
    obtain ⟨sign, size, hexp, hsign, hsize⟩ := Decimal.exponentText_eq l.exponentWidth k
    rw [heq, hexp, List.forall_mem_append, List.forall_mem_cons, List.forall_mem_cons]
    refine ⟨numberChar_numeral hu, .inr (by decide), .inr ?_, numberChar_numeral hsize⟩
    rcases hsign with rfl | rfl <;> decide

theorem numberChar_text (x : Number) : ∀ c ∈ x.text.toList, NumberChar c := by
  rw [Number.text, String.toList_ofList]
  cases x with
  | nan => simp [Number.chars, NumberChar]
  | signed negative m =>
    rw [Number.chars, List.forall_mem_append]
    constructor
    · split <;> simp [NumberChar]
    · split
      · simp [NumberChar]
      · exact numberChar_written _ _

end Trellis
