import Trellis.Proofs.FirstPiece

/-!
# Reading tokens back

A token that a blank follows, or nothing, is read as that token whatever comes after it. So a text is
a token in one way only.

* `read_blank`, `read_digit`, `read_letter` and their like: what the scanner reads, by the first
  character;
* `read_lexeme`: a token before a blank or the end is read as itself;
* `lexeme_unique`: kind and value of a token are those of its text.
-/

namespace Trellis

variable {c : Char} {w u rest : List Char} {k k' : TokenKind} {v v' : Value}

/-! ## Reading by the first character -/

theorem lookups_eq_none (h : isDigit c ∨ isLetter c ∨ c ∈ blanks) :
    punctuation.lookup c = none ∧ operators.lookup c = none := by
  constructor
  · rw [Option.eq_none_iff_forall_ne_some]
    intro k hk
    obtain ⟨-, -, hb, -, hd, hl⟩ := punctuation_apart _ (lookup_punctuation.1 hk)
    rcases h with h | h | h
    · exact hd h
    · exact hl h
    · exact hb h
  · rw [Option.eq_none_iff_forall_ne_some]
    intro k hk
    obtain ⟨-, hb, -, hd, hl⟩ := operators_apart _ (lookup_operators.1 hk)
    rcases h with h | h | h
    · exact hd h
    · exact hl h
    · exact hb h

theorem lookup_operators_only (h : (c, k, k') ∈ operators) :
    punctuation.lookup c = none ∧ operators.lookup c = some (k, k') := by
  refine ⟨?_, lookup_operators.2 h⟩
  rw [Option.eq_none_iff_forall_ne_some]
  intro j hj
  exact (punctuation_apart _ (lookup_punctuation.1 hj)).1 _ h rfl

theorem read_operator (h : (c, k, k') ∈ operators) (hr : rest.head? ≠ some '=') :
    Piece.read c rest = (⟨.token k, [c]⟩, rest) := by
  obtain ⟨hp, ho⟩ := lookup_operators_only h
  unfold Piece.read
  simp only [hp, ho]
  split
  · exact absurd rfl hr
  · rfl

theorem read_operatorEqual (h : (c, k, k') ∈ operators) :
    Piece.read c ('=' :: rest) = (⟨.token k', [c, '=']⟩, rest) := by
  obtain ⟨hp, ho⟩ := lookup_operators_only h
  unfold Piece.read
  rw [hp, ho]
  rfl

theorem read_blank (h : c ∈ blanks) : Piece.read c rest = (⟨.layout, [c]⟩, rest) := by
  have hl := lookups_eq_none (.inr (.inr h))
  have hs := (blanks_apart c h).1
  unfold Piece.read
  rw [hl.1, hl.2]
  simp_all [blanks]

theorem read_slash (hr : rest.head? ≠ some '/') :
    Piece.read '/' rest = (⟨.token .slash, ['/']⟩, rest) := by
  have hp : punctuation.lookup '/' = none := by decide
  have ho : operators.lookup '/' = none := by decide
  unfold Piece.read
  simp only [hp, ho, if_true]
  split
  · exact absurd rfl hr
  · rfl

theorem read_quote {body : List Char} (h : '"' ∉ body) : Piece.read '"' (body ++ '"' :: rest) =
    (⟨.token .string, '"' :: (body ++ ['"'])⟩, rest) := by
  unfold Piece.read
  rw [stringTail?_eq_some h]
  rfl

theorem read_digit (hc : isDigit c) : Piece.read c rest =
    (⟨.token .number, c :: (numberTail rest).1⟩, (numberTail rest).2) := by
  have hl := lookups_eq_none (.inl hc)
  have hb : c ∉ blanks := by
    intro hb
    exact (blanks_apart c hb).2.2.1 hc
  have hs : c ≠ '/' := by
    rintro rfl
    exact slash_apart.1 hc
  have hq : c ≠ '"' := by
    rintro rfl
    exact quote_apart.1 hc
  unfold Piece.read
  rw [hl.1, hl.2]
  simp_all [blanks]

theorem read_letter (hc : isLetter c) : Piece.read c rest =
    (⟨.token (kindOfWord (c :: rest.takeWhile isWordChar)), c :: rest.takeWhile isWordChar⟩,
      rest.dropWhile isWordChar) := by
  have hl := lookups_eq_none (.inr (.inl hc))
  have hb : c ∉ blanks := by
    intro hb
    exact (blanks_apart c hb).2.2.2 hc
  have hs : c ≠ '/' := by
    rintro rfl
    exact slash_apart.2 hc
  have hq : c ≠ '"' := by
    rintro rfl
    exact quote_apart.2 hc
  have hd : ¬ isDigit c := by
    intro hd
    exact not_isLetter_of_isDigit hd hc
  unfold Piece.read
  rw [hl.1, hl.2]
  simp_all [blanks]

/-! ## Reading a token -/

theorem numberTail_numeral (h : Numeral (c :: w)) (hr : ∀ d ∈ rest.head?, ¬ isDigit d ∧ d ≠ '.') :
    numberTail (w ++ rest) = (w, rest) := by
  obtain ⟨y, hy⟩ := numberTail_longest h (List.prefix_append w rest)
  have happ := numberTail_append (w ++ rest)
  rw [← hy, List.append_assoc] at happ
  have hrest := List.append_cancel_left happ
  cases y with
  | nil => exact Prod.ext (by simpa using hy.symm) hrest
  | cons d y =>
    have hd := hr d (by rw [← hrest]; rfl)
    have hn := numeral_numberTail (numeral_head h) (w ++ rest)
    rcases numeral_chars hn d (by rw [← hy]; simp) with h' | h'
    · exact absurd h' hd.1
    · exact absurd h' hd.2

/-- A token before a blank, or at the end, is read as itself. -/
theorem read_lexeme (h : Lexeme (c :: w) k v) (rest : List Char)
    (hr : ∀ d ∈ rest.head?, d ∈ blanks) :
    Piece.read c (w ++ rest) = (⟨.token k, c :: w⟩, rest) := by
  have hstop : ∀ d ∈ rest.head?, ¬ isWordChar d ∧ ¬ isDigit d ∧ d ∉ ['=', '/', '.'] := by
    have hb : ∀ d ∈ blanks, ¬ isWordChar d ∧ ¬ isDigit d ∧ d ∉ ['=', '/', '.'] := by
      simp [blanks, isWordChar, isDigit, isLetter]
    intro d hd
    exact hb d (hr d hd)
  generalize hu : c :: w = u at h
  cases h with
  | punctuation h =>
    cases hu
    simp [Piece.read, lookup_punctuation.2 h]
  | operator h =>
    cases hu
    have hne : rest.head? ≠ some '=' := by
      intro he
      exact (hstop '=' he).2.2 (by decide)
    rw [List.nil_append, read_operator h hne]
  | operatorEqual h =>
    cases hu
    exact read_operatorEqual h
  | slash =>
    cases hu
    have hne : rest.head? ≠ some '/' := by
      intro he
      exact (hstop '/' he).2.2 (by decide)
    rw [List.nil_append, read_slash hne]
  | string h =>
    cases hu
    rw [List.append_assoc, List.singleton_append, read_quote h]
  | number hn =>
    subst hu
    have hend : ∀ d ∈ rest.head?, ¬ isDigit d ∧ d ≠ '.' := by
      intro d hd
      obtain ⟨-, hdigit, hne⟩ := hstop d hd
      refine ⟨hdigit, ?_⟩
      rintro rfl
      exact hne (by decide)
    rw [read_digit (numeral_head hn), numberTail_numeral hn hend]
  | word hc hw hk =>
    cases hu
    have hs : ∀ d ∈ rest.head?, ¬ isWordChar d := fun d hd => (hstop d hd).1
    rw [read_letter hc, takeWhile_stop hw rest hs, dropWhile_stop hw rest hs, wordKind_iff.1 hk]

/-- A text is a token in one way only. -/
theorem lexeme_unique (h : Lexeme u k v) (h' : Lexeme u k' v') : k = k' ∧ v = v' := by
  cases u with
  | nil => exact absurd rfl (formed_ne_nil h.formed)
  | cons c w =>
    have hr := read_lexeme h [] (by simp)
    rw [read_lexeme h' [] (by simp)] at hr
    cases hr
    exact ⟨rfl, (literal_of_lexeme h).symm.trans (literal_of_lexeme h')⟩

/-- What is skipped is no token. -/
theorem not_skipped (h : Lexeme u k v) : ¬ Skipped u := by
  intro hs
  cases hs with
  | blank hb =>
    have hr := read_lexeme h [] (by simp)
    rw [List.append_nil, read_blank hb] at hr
    cases hr
  | @comment body =>
    have hr := read_lexeme h [] (by simp)
    cases hr

end Trellis
