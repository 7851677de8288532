import Trellis.Scan.Basic

/-!
# Numerals

A numeral is a row of digits, or two with a point between them. Read as text it is a number, and the
scanner's reading of it is the same number.

* `Numeral`: the form;
* `ofText?_numeral`: the number;
* `numberTail_longest`: the scanner takes the longest numeral that a text begins with.
-/

namespace Trellis

/-- Digits, and after a point more digits. -/
inductive Numeral : List Char → Prop where
  | whole {ds : List Char} (hne : ds ≠ []) (hds : ∀ d ∈ ds, isDigit d) : Numeral ds
  | fraction {ds es : List Char} (hne : ds ≠ []) (hds : ∀ d ∈ ds, isDigit d)
      (hne' : es ≠ []) (hes : ∀ e ∈ es, isDigit e) : Numeral (ds ++ '.' :: es)

theorem numeral_ne_nil {u : List Char} (h : Numeral u) : u ≠ [] := by
  cases h with
  | whole hne => exact hne
  | fraction => simp

theorem numeral_head {c : Char} {w : List Char} (h : Numeral (c :: w)) : isDigit c := by
  generalize hu : c :: w = u at h
  cases h with
  | whole _ hds => exact hds c (by simp [← hu])
  | @fraction ds es hne hds =>
    cases ds with
    | nil => exact absurd rfl hne
    | cons d ds =>
      obtain ⟨rfl, -⟩ := List.cons.inj hu
      exact hds c List.mem_cons_self

theorem numeral_chars {u : List Char} (h : Numeral u) : ∀ d ∈ u, isDigit d ∨ d = '.' := by
  cases h with
  | whole _ hds => exact fun d hd => .inl (hds d hd)
  | fraction _ hds _ hes =>
    intro d hd
    rcases List.mem_append.1 hd with hd | hd
    · exact .inl (hds d hd)
    · rcases List.mem_cons.1 hd with rfl | hd
      · exact .inr rfl
      · exact .inl (hes d hd)

/-! ## The first run of a text -/

section

variable {α : Type} {p : α → Bool} {xs : List α}

theorem takeWhile_stop (hx : ∀ a ∈ xs, p a) (ys : List α) (hy : ∀ a ∈ ys.head?, ¬ p a) :
    (xs ++ ys).takeWhile p = xs := by
  rw [List.takeWhile_append_of_pos hx]
  cases ys with
  | nil => simp
  | cons a ys => simp [hy a rfl]

theorem dropWhile_stop (hx : ∀ a ∈ xs, p a) (ys : List α) (hy : ∀ a ∈ ys.head?, ¬ p a) :
    (xs ++ ys).dropWhile p = ys := by
  rw [List.dropWhile_append_of_pos hx]
  cases ys with
  | nil => rfl
  | cons a ys => simp [hy a rfl]

theorem takeWhile_all (hx : ∀ a ∈ xs, p a) : xs.takeWhile p = xs := by
  simpa using takeWhile_stop hx [] (by simp)

theorem dropWhile_all (hx : ∀ a ∈ xs, p a) : xs.dropWhile p = [] := by
  simpa using dropWhile_stop hx [] (by simp)

theorem mem_takeWhile {a : α} (h : a ∈ xs.takeWhile p) : p a :=
  List.all_eq_true.1 List.all_takeWhile a h

theorem prefix_takeWhile {ys : List α} (hp : xs <+: ys) (hx : ∀ a ∈ xs, p a) :
    xs <+: ys.takeWhile p := by
  obtain ⟨zs, rfl⟩ := hp
  rw [List.takeWhile_append_of_pos hx]
  exact List.prefix_append _ _

theorem all_ne_of_not_mem {d : Char} {w : List Char} (h : d ∉ w) : ∀ c ∈ w, decide (c ≠ d) := by
  intro c hc
  simp only [ne_eq, decide_eq_true_eq]
  rintro rfl
  exact h hc

end

/-! ## The number -/

theorem ofNumeral_whole {ds : List Char} (hds : ∀ d ∈ ds, isDigit d) :
    Decimal.ofNumeral ds = ⟨Decimal.valueOfDigits ds, 0⟩ := by
  have hdigit : isDigit = Char.isDigit := rfl
  unfold Decimal.ofNumeral
  rw [← hdigit]
  simp [takeWhile_all hds, dropWhile_all hds]

theorem ofNumeral_fraction {ds es : List Char} (hds : ∀ d ∈ ds, isDigit d)
    (hes : ∀ e ∈ es, isDigit e) :
    Decimal.ofNumeral (ds ++ '.' :: es) = ⟨Decimal.valueOfDigits (ds ++ es), -es.length⟩ := by
  have hdigit : isDigit = Char.isDigit := rfl
  have ht := takeWhile_stop hds ('.' :: es) (by simp; decide)
  have hd := dropWhile_stop hds ('.' :: es) (by simp; decide)
  unfold Decimal.ofNumeral
  rw [← hdigit]
  simp [ht, hd, takeWhile_all hes]

/-- What follows a numeral is read as an exponent. -/
theorem decimalOf?_append {u : List Char} (h : Numeral u) (rest : List Char)
    (hr : ∀ c ∈ rest.head?, ¬ isDigit c ∧ c ≠ '.') :
    Number.decimalOf? (u ++ rest) = (Number.exponentOf? rest).map fun e =>
      ⟨(Decimal.ofNumeral u).digits, e + (Decimal.ofNumeral u).exponent⟩ := by
  have hdigit : isDigit = Char.isDigit := rfl
  have hstop : ∀ c ∈ rest.head?, ¬ isDigit c := fun c hc => (hr c hc).1
  unfold Number.decimalOf?
  rw [← hdigit]
  cases h with
  | whole hne hds =>
    simp only [takeWhile_stop hds rest hstop, dropWhile_stop hds rest hstop, ofNumeral_whole hds]
    cases rest with
    | nil => simp [hne]
    | cons c rest =>
      have hpoint : c ≠ '.' := (hr c rfl).2
      simp [hpoint, hne]
  | @fraction ds es hne hds hne' hes =>
    have ht := takeWhile_stop hds ('.' :: (es ++ rest)) (by simp; decide)
    have hd := dropWhile_stop hds ('.' :: (es ++ rest)) (by simp; decide)
    rw [List.append_assoc, List.cons_append, ofNumeral_fraction hds hes]
    simp [ht, hd, takeWhile_stop hes rest hstop, dropWhile_stop hes rest hstop, hne,
      Int.sub_eq_add_neg]

theorem decimalOf?_numeral {u : List Char} (h : Numeral u) :
    Number.decimalOf? u = some (Decimal.ofNumeral u) := by
  simpa [Number.exponentOf?] using decimalOf?_append h [] (by simp)

theorem splitSign_digit {c : Char} (h : isDigit c) (w : List Char) :
    Number.splitSign (c :: w) = (false, c :: w) := by
  unfold Number.splitSign
  split
  · rename_i heq
    obtain ⟨rfl, -⟩ := List.cons.inj heq
    exact absurd h (by decide)
  · rename_i heq
    obtain ⟨rfl, -⟩ := List.cons.inj heq
    exact absurd h (by decide)
  · rfl

theorem toLower_isDigit {c : Char} (h : isDigit c) : c.toLower = c := by
  have hc : c.val.toNat ≤ 57 := by
    simpa [isDigit, Char.le_def, UInt32.le_iff_toNat_le] using (Bool.and_eq_true_iff.1 h).2
  unfold Char.toLower
  split
  · rename_i h'
    have hl : 65 ≤ c.val.toNat := UInt32.le_iff_toNat_le.1 h'.1
    omega
  · rfl

theorem lower_digit_ne {c d : Char} {v w : List Char} (h : isDigit c) (hd : ¬ isDigit d) :
    String.ofList ((c :: v).map Char.toLower) ≠ String.ofList (d :: w) := by
  intro he
  have he := String.ofList_injective he
  rw [List.map_cons, toLower_isDigit h] at he
  exact hd ((List.cons.inj he).1 ▸ h)

/-- A text that begins with a digit, or with a minus before one, is the decimal that it writes,
rounded. -/
theorem ofText?_digit {c : Char} (negative : Bool) (h : isDigit c) (w : List Char) :
    Number.ofText? (String.ofList ((if negative then ['-'] else []) ++ c :: w)) =
      (Number.decimalOf? (c :: w)).map fun d => .signed negative d.magnitude := by
  have hsign : Number.splitSign ((if negative then ['-'] else []) ++ c :: w) = (negative, c :: w) := by
    cases negative with
    | false => exact splitSign_digit h w
    | true => rfl
  have hn : String.ofList ((c :: w).map Char.toLower) ≠ "nan" := lower_digit_ne h (by decide)
  have hi : String.ofList ((c :: w).map Char.toLower) ≠ "inf" := lower_digit_ne h (by decide)
  have hi' : String.ofList ((c :: w).map Char.toLower) ≠ "infinity" := lower_digit_ne h (by decide)
  simp only [Number.ofText?, String.toList_ofList, hsign, hn, hi, hi', or_self, if_false]

/-- A numeral, read as text, is the decimal that it writes, rounded. -/
theorem ofText?_numeral {u : List Char} (h : Numeral u) : Number.ofText? (String.ofList u) =
    some (.signed false (Decimal.ofNumeral u).magnitude) := by
  cases u with
  | nil => exact absurd rfl (numeral_ne_nil h)
  | cons c w =>
    have hread := ofText?_digit false (numeral_head h) w
    rwa [decimalOf?_numeral h, Option.map_some] at hread

/-! ## The longest numeral -/

variable {c : Char} {rest : List Char}

theorem numeral_numberTail (hc : isDigit c) (rest : List Char) :
    Numeral (c :: (numberTail rest).1) := by
  have hw : ∀ d ∈ c :: rest.takeWhile isDigit, isDigit d := by
    rintro d (_ | ⟨_, hd⟩)
    · exact hc
    · exact mem_takeWhile hd
  unfold numberTail
  split
  · rename_i d more heq
    split
    · rename_i hd
      change Numeral (c :: rest.takeWhile isDigit ++ '.' :: d :: more.takeWhile isDigit)
      refine .fraction (by simp) hw (by simp) ?_
      rintro e (_ | ⟨_, he⟩)
      · exact hd
      · exact mem_takeWhile he
    · exact .whole (by simp) hw
  · exact .whole (by simp) hw

theorem prefix_numberTail : rest.takeWhile isDigit <+: (numberTail rest).1 := by
  unfold numberTail
  split
  · split
    · exact List.prefix_append _ _
    · exact List.prefix_rfl
  · exact List.prefix_rfl

/-- The scanner takes the longest numeral. -/
theorem numberTail_longest {w : List Char} (h : Numeral (c :: w)) (hw : w <+: rest) :
    w <+: (numberTail rest).1 := by
  generalize hu : c :: w = u at h
  cases h with
  | whole _ hds =>
    subst hu
    exact (prefix_takeWhile hw fun d hd => hds d (List.mem_cons_of_mem c hd)).trans prefix_numberTail
  | @fraction ds es hne hds hne' hes =>
    cases ds with
    | nil => exact absurd rfl hne
    | cons d ds =>
      rw [List.cons_append] at hu
      obtain ⟨rfl, rfl⟩ := List.cons.inj hu
      cases es with
      | nil => exact absurd rfl hne'
      | cons e es =>
        obtain ⟨more, rfl⟩ := hw
        have hds' : ∀ d ∈ ds, isDigit d := fun d hd => hds d (List.mem_cons_of_mem c hd)
        have hes' : ∀ d ∈ es, isDigit d := fun d hd => hes d (List.mem_cons_of_mem e hd)
        have he : isDigit e := hes e List.mem_cons_self
        have ht := takeWhile_stop hds' ('.' :: e :: (es ++ more)) (by simp; decide)
        have hd := dropWhile_stop hds' ('.' :: e :: (es ++ more)) (by simp; decide)
        have hl : ds ++ '.' :: e :: es ++ more = ds ++ '.' :: e :: (es ++ more) := by simp
        rw [hl]
        simp only [numberTail, ht, hd, he, if_true]
        rw [List.takeWhile_append_of_pos hes', List.prefix_append_right_inj, List.cons_prefix_cons,
          List.cons_prefix_cons]
        exact ⟨rfl, rfl, List.prefix_append _ _⟩

end Trellis
