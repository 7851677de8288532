import Trellis.Proofs.NumberText
import Trellis.Proofs.Respaced

/-!
# Printed numbers in source text

A number that a scan finds is printed with the digits of its shortest decimal. In positional form the
printed text is a numeral, and scanned as the same number. Exponent form is no numeral: its letter is
scanned as an identifier and its sign as an operator, and infinity is printed as a word.

* `number_of_scan`: the numbers that a scan finds have no sign;
* `scan_positional`, `scan_scientific`, `scan_infinity`: how the printed forms are scanned;
* `scan_spelling_iff`: **a printed number is a number again** from `0.0001` up to `10 ^ 16`, and zero.
-/

namespace Trellis

variable {c : Char} {w u rest : List Char} {k : TokenKind} {d : Decimal} {m : Magnitude} {x : Number}
  {t : Token}

/-! ## Pieces of printed numbers -/

theorem firstPiece_numeral (h : Numeral u) (hr : ∀ e ∈ rest.head?, ¬ isDigit e ∧ e ≠ '.') :
    FirstPiece (u ++ rest) u := by
  cases u with
  | nil => exact absurd rfl (numeral_ne_nil h)
  | cons c w =>
    have hf := read_firstPiece c (w ++ rest)
    rwa [read_digit (numeral_head h), numberTail_numeral h hr] at hf

theorem firstPiece_word (hc : isLetter c) (hw : ∀ e ∈ w, isWordChar e)
    (hr : ∀ e ∈ rest.head?, ¬ isWordChar e) : FirstPiece (c :: (w ++ rest)) (c :: w) := by
  have hf := read_firstPiece c (w ++ rest)
  rwa [read_letter hc, takeWhile_stop hw rest hr] at hf

theorem firstPiece_punctuation (h : (c, k) ∈ punctuation) : FirstPiece (c :: rest) [c] := by
  have hf := read_firstPiece c rest
  simpa [Piece.read, lookup_punctuation.2 h] using hf

/-! ## Printed forms -/

/-- A numeral is scanned as one number. -/
theorem scan_numeral (hu : Numeral u) (hx : Number.ofText? (String.ofList u) = some x) :
    scan (String.ofList u) = ⟨[⟨.number, String.ofList u, .number x, 1⟩, endToken 1], []⟩ := by
  have hline : u.count '\n' = 0 :=
    List.count_eq_zero.2 (newlines_of_lexeme (.number hu hx) (by decide))
  have hscan := scan_spaced (.cons (.number hu hx) .nil)
  simpa [spaced, hline] using hscan

theorem scan_positional (hx : Number.ofText? (String.ofList d.positional) = some x) :
    scan (String.ofList d.positional) =
      ⟨[⟨.number, String.ofList d.positional, .number x, 1⟩, endToken 1], []⟩ :=
  scan_numeral d.numeral_positional.1 hx

/-- Exponent form falls apart at its letter and its sign. -/
theorem scan_scientific (w : Nat) (d : Decimal) :
    (scan (String.ofList (d.scientific w))).errors = [] ∧ ∃ sign, sign ∈ [.plus, .minus] ∧
    (scan (String.ofList (d.scientific w))).tokens.map Token.kind =
      [.number, .identifier, sign, .number, .endOfInput] := by
  obtain ⟨u, k, heq, hu, -⟩ := d.scientific_eq w
  obtain ⟨c, size, hexp, hc, hsize⟩ := Decimal.exponentText_eq w k
  obtain ⟨sign, hsign, hkind⟩ : ∃ sign, (c, sign) ∈ punctuation ∧ sign ∈ [.plus, .minus] := by
    rcases hc with rfl | rfl
    · exact ⟨.plus, by decide, by decide⟩
    · exact ⟨.minus, by decide, by decide⟩
  have hstop : ∀ e ∈ (c :: (size ++ [])).head?, ¬ isWordChar e := by
    rintro e ⟨⟩
    rcases hc with rfl | rfl <;> decide
  have hletter : ∀ e ∈ ('e' :: c :: (size ++ [])).head?, ¬ isDigit e ∧ e ≠ '.' := by
    rintro e ⟨⟩
    decide
  have hword : FirstPiece (['e'] ++ c :: (size ++ [])) ['e'] :=
    firstPiece_word (w := []) (by decide) (by simp) hstop
  have htiling : Tiling (u ++ (['e'] ++ ([c] ++ (size ++ [])))) [u, ['e'], [c], size] :=
    .cons (firstPiece_numeral hu hletter) (.cons hword (.cons (firstPiece_punctuation hsign)
      (.cons (firstPiece_numeral hsize (by simp)) .nil)))
  have hidentifier : Lexeme ['e'] .identifier .null :=
    .word (by decide) (by simp) (wordKind_iff.2 (by decide))
  have hyields : Yields 1 [u, ['e'], [c], size] _ [] := .token (.number hu (ofText?_numeral hu))
    (.token hidentifier (.token (.punctuation hsign)
      (.token (.number hsize (ofText?_numeral hsize)) .done)))
  rw [List.append_nil] at htiling
  rw [heq, hexp, scan_of_tiling (by rwa [String.toList_ofList]) hyields]
  exact ⟨rfl, sign, hkind, rfl⟩

/-- Infinity is printed as a word. -/
theorem scan_infinity : scan (Number.signed false .infinity).text =
    ⟨[⟨.identifier, "inf", .null, 1⟩, endToken 1], []⟩ := by
  have hidentifier : Lexeme ['i', 'n', 'f'] .identifier .null :=
    .word (by decide) (List.all_eq_true.1 (by decide)) (wordKind_iff.2 (by decide))
  have htext : (Number.signed false .infinity).text = String.ofList (spaced [['i', 'n', 'f']]) := by
    decide
  rw [htext, scan_spaced (.cons hidentifier .nil)]
  rfl

/-! ## Numbers of a scan -/

/-- A number that a scan finds has no sign. -/
theorem number_of_scan {source : String} (ht : t ∈ (scan source).tokens) (hk : t.kind = .number) :
    ∃ m, t.literal = .number (.signed false m) := by
  obtain ⟨ts, last, htokens, hlexemes⟩ := lexemes_of_scan source
  rw [htokens, List.mem_append, List.mem_singleton] at ht
  rcases ht with ht | rfl
  · have hvalued := valued_of_lexeme (hlexemes t ht)
    rw [hk] at hvalued
    generalize t.lexeme.toList = u, t.literal = v at hvalued
    cases hvalued with
    | number hu hx =>
      rw [ofText?_numeral hu] at hx
      cases hx
      exact ⟨_, rfl⟩
    | symbol hk => exact absurd hk (by decide)
  · cases hk

/-! ## Printing and scanning again -/

/-- The magnitudes that are written in positional form: zero, and those from `0.0001` up to but excluding
`10 ^ 16`. -/
def Magnitude.Positional (m : Magnitude) : Prop :=
  m ≠ .infinity ∧ (m.value = 0 ∨ 1 / 10000 ≤ m.value ∧ m.value < 10 ^ 16)

/-- The numbers in positional form are scanned as themselves. -/
theorem scan_text (h : m.Positional) : scan (Number.signed false m).text =
    ⟨[⟨.number, (Number.signed false m).text, .number (.signed false m), 1⟩, endToken 1], []⟩ := by
  obtain ⟨hm, hrange⟩ := h
  have hlayout := (Magnitude.positional_iff hm).2 hrange
  have htext : (Number.signed false m).text = String.ofList m.shortest.positional := by
    simp [Number.text, Number.chars, hm, Decimal.written, Layout.standard, hlayout]
  have hread := ofText?_text (.signed false m)
  rw [htext] at hread ⊢
  exact scan_positional hread

/-- All other numbers are scanned without error, and not as a number. -/
theorem scan_text_other (h : ¬ m.Positional) : (scan (Number.signed false m).text).errors = [] ∧
    ∀ n last, (scan (Number.signed false m).text).tokens = [n, last] → n.kind ≠ .number := by
  by_cases hm : m = .infinity
  · subst hm
    rw [scan_infinity]
    refine ⟨rfl, ?_⟩
    rintro n last ⟨⟩
    decide
  · have hlayout : ¬ (-4 < m.shortest.point ∧ m.shortest.point ≤ 16) :=
      fun hl => h ⟨hm, (Magnitude.positional_iff hm).1 hl⟩
    have htext : (Number.signed false m).text = String.ofList (m.shortest.scientific 2) := by
      simp [Number.text, Number.chars, hm, Decimal.written, Layout.standard, hlayout]
    obtain ⟨herrors, sign, -, hkinds⟩ := scan_scientific 2 m.shortest
    rw [htext]
    refine ⟨herrors, ?_⟩
    intro n last htokens
    rw [htokens] at hkinds
    simp at hkinds

/-- **A printed number is a number again.** A number that a scan finds has no sign and is not `nan`. What
it is printed as is scanned without error, and as the same number alone if it is zero, or at least
`0.0001` and below `10 ^ 16`; all other numbers are scanned as something else. -/
theorem scan_spelling_iff {source : String} (ht : t ∈ (scan source).tokens) (hk : t.kind = .number) :
    ∃ m, t.literal = .number (.signed false m) ∧ (scan t.literal.spelling).errors = [] ∧
      ((∃ n, n.kind = .number ∧ n.literal = t.literal ∧
        (scan t.literal.spelling).tokens = [n, endToken 1]) ↔ m.Positional) ∧
      (¬ m.Positional → ∀ n last, (scan t.literal.spelling).tokens = [n, last] → n.kind ≠ .number) := by
  obtain ⟨m, hm⟩ := number_of_scan ht hk
  have hspelling : t.literal.spelling = (Number.signed false m).text := by rw [hm]; rfl
  refine ⟨m, hm, ?_⟩
  rw [hspelling, hm]
  by_cases h : m.Positional
  · rw [scan_text h]
    exact ⟨rfl, iff_of_true ⟨_, rfl, rfl, rfl⟩ h, fun hn => absurd h hn⟩
  · obtain ⟨herrors, hother⟩ := scan_text_other h
    refine ⟨herrors, iff_of_false ?_ h, fun _ => hother⟩
    rintro ⟨n, hn, -, htokens⟩
    exact hother n _ htokens hn

/-- A number that is printed in positional form, and one that is not. -/
theorem scan_spelling_seven_and_large :
    let source := "007.50 10000000000000000"
    let t : Token := ⟨.number, "007.50", .number (.signed false (Decimal.magnitude ⟨75, -1⟩)), 1⟩
    let t' : Token := ⟨.number, "10000000000000000",
      .number (.signed false (Decimal.magnitude ⟨1, 16⟩)), 1⟩
    t ∈ (scan source).tokens ∧ t' ∈ (scan source).tokens ∧
    t.literal.spelling = "7.5" ∧ t'.literal.spelling = "1e+16" ∧
    (∃ m, t.literal = .number (.signed false m) ∧
      ((∃ n, n.kind = .number ∧ n.literal = t.literal ∧ (scan "7.5").tokens = [n, endToken 1]) ↔
        m.Positional)) ∧
    ∃ m, t'.literal = .number (.signed false m) ∧ (scan "1e+16").errors = [] ∧
      (¬ m.Positional → ∀ n last, (scan "1e+16").tokens = [n, last] → n.kind ≠ .number) := by
  intro source t t'
  have ht : t ∈ (scan source).tokens := by decide +kernel
  have ht' : t' ∈ (scan source).tokens := by decide +kernel
  have hs : t.literal.spelling = "7.5" := by decide +kernel
  have hs' : t'.literal.spelling = "1e+16" := by decide +kernel
  obtain ⟨m, hm, -, hiff, -⟩ := scan_spelling_iff ht rfl
  obtain ⟨m', hm', herrors, -, hother⟩ := scan_spelling_iff ht' rfl
  rw [hs] at hiff
  rw [hs'] at herrors hother
  exact ⟨ht, ht', hs, hs', ⟨m, hm, hiff⟩, m', hm', herrors, hother⟩

end Trellis
