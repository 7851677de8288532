import Trellis.Proofs.Lexeme

/-!
# The first piece of a text

The scanner cuts the longest piece of a known form off the front of a text. Where no form fits, it cuts
off the whole rest from an opening quote on, or else a single character.

* `FirstPiece`: that rule, said of a text and the piece it begins with;
* `read_firstPiece`: the scanner follows it;
* `read_describes`: the form that the scanner gives to a piece is that of its text;
* `Valued`, `literal_of_lexeme`: what value a token has, and that the scanner gives it that value.
-/

namespace Trellis

variable {c : Char} {w u rest : List Char} {k : TokenKind} {v : Value}

/-- The piece that a text begins with. -/
inductive FirstPiece (text : List Char) : List Char → Prop where
  | formed {u : List Char} (hu : Formed u) (hp : u <+: text)
      (longest : ∀ w, Formed w → w <+: text → w.length ≤ u.length) : FirstPiece text u
  | unclosed (none : ∀ w, Formed w → ¬ w <+: text) (hq : text.head? = some '"') :
      FirstPiece text text
  | stray {c : Char} (none : ∀ w, Formed w → ¬ w <+: text) (hc : text.head? = some c)
      (hq : c ≠ '"') : FirstPiece text [c]

/-- What a form says of the text of a piece. -/
def Form.Describes (u : List Char) : Form → Prop
  | .token k => ∃ v, Lexeme u k v
  | .layout => Skipped u
  | .stray => ∃ c, u = [c] ∧ c ≠ '"'
  | .unclosed => ∃ body, u = '"' :: body ∧ '"' ∉ body

/-! ## Values -/

theorem symbol_kinds : (∀ p ∈ punctuation, p.2 ∉ [.number, .string]) ∧
    (∀ p ∈ operators, p.2.1 ∉ [.number, .string] ∧ p.2.2 ∉ [.number, .string]) ∧
    ∀ p ∈ keywords, p.2 ∉ [.number, .string] := by decide

theorem literal_symbol (h : k ∉ [.number, .string]) : (⟨.token k, u⟩ : Piece).literal = .null := by
  cases k <;> first | rfl | exact absurd h (by decide)

/-- A string holds what is between its quotes and a number the value of its numeral; no other token has
a value. -/
inductive Valued : List Char → TokenKind → Value → Prop
  | string {body : List Char} (h : '"' ∉ body) :
      Valued ('"' :: (body ++ ['"'])) .string (.text (String.ofList body))
  | number {u : List Char} {x : Number} (hu : Numeral u)
      (hx : Number.ofText? (String.ofList u) = some x) : Valued u .number (.number x)
  | symbol {u : List Char} {k : TokenKind} (hk : k ∉ [.number, .string]) : Valued u k .null

theorem valued_of_lexeme (h : Lexeme u k v) : Valued u k v := by
  obtain ⟨hp, ho, hw⟩ := symbol_kinds
  cases h with
  | punctuation h => exact .symbol (hp _ h)
  | operator h => exact .symbol (ho _ h).1
  | operatorEqual h => exact .symbol (ho _ h).2
  | slash => exact .symbol (by decide)
  | string h => exact .string h
  | number hu hx => exact .number hu hx
  | word _ _ hk =>
    rcases hk with hk | ⟨rfl, -⟩
    · exact .symbol (hw _ hk)
    · exact .symbol (by decide)

/-- The scanner gives a token the value that its text stands for. -/
theorem literal_of_lexeme (h : Lexeme u k v) : (⟨.token k, u⟩ : Piece).literal = v := by
  cases valued_of_lexeme h with
  | string => simp [Piece.literal]
  | number hu hx =>
    rw [ofText?_numeral hu] at hx
    cases hx
    rfl
  | symbol hk => exact literal_symbol hk

/-! ## Strings -/

theorem stringTail?_eq_some {body after : List Char} (h : '"' ∉ body) :
    stringTail? (body ++ '"' :: after) = some (body ++ ['"'], after) := by
  have hb := all_ne_of_not_mem h
  have ht := takeWhile_stop hb ('"' :: after) (by simp)
  have hd := dropWhile_stop hb ('"' :: after) (by simp)
  simp only [stringTail?, hd, ht]

theorem stringTail?_cases (rest : List Char) :
    '"' ∉ rest ∧ stringTail? rest = none ∨
    ∃ body after, '"' ∉ body ∧ rest = body ++ '"' :: after ∧
      stringTail? rest = some (body ++ ['"'], after) := by
  by_cases h : '"' ∈ rest
  · obtain ⟨body, after, rfl, hb⟩ := List.eq_append_cons_of_mem h
    exact .inr ⟨body, after, hb, rfl, stringTail?_eq_some hb⟩
  · refine .inl ⟨h, ?_⟩
    have hd : rest.dropWhile (· ≠ '"') = [] := dropWhile_all (all_ne_of_not_mem h)
    simp only [stringTail?, hd]

/-! ## The form of the first piece -/

theorem read_describes (c : Char) (rest : List Char) :
    (Piece.read c rest).1.form.Describes (Piece.read c rest).1.text := by
  fun_cases Piece.read c rest
  case case1 k h => exact ⟨_, .punctuation (lookup_punctuation.1 h)⟩
  case case2 k k' h _ after => exact ⟨_, .operatorEqual (lookup_operators.1 h)⟩
  case case3 k k' h _ _ => exact ⟨_, .operator (lookup_operators.1 h)⟩
  case case4 =>
    apply Skipped.comment
    intro h
    have := mem_takeWhile h
    simp at this
  case case5 hc _ =>
    subst hc
    exact ⟨_, .slash⟩
  case case6 hc => exact .blank (by simpa [blanks] using hc)
  case case7 hc tail after h =>
    obtain ⟨-, hn⟩ | ⟨body, after', hb, -, hs⟩ := stringTail?_cases rest
    · rw [h] at hn
      cases hn
    · rw [h] at hs
      cases hs
      subst hc
      exact ⟨_, .string hb⟩
  case case8 hc h =>
    obtain ⟨hq, -⟩ | ⟨body, after, -, -, hs⟩ := stringTail?_cases rest
    · exact ⟨rest, by rw [hc], hq⟩
    · rw [h] at hs
      cases hs
  case case9 hc =>
    have hn := numeral_numberTail hc rest
    exact ⟨_, .number hn (ofText?_numeral hn)⟩
  case case10 hc word => exact ⟨_, .word hc (fun d => mem_takeWhile) (wordKind_iff.2 rfl)⟩
  case case11 hq _ _ => exact ⟨c, rfl, hq⟩

/-! ## The longest piece -/

/-- No form begins a text that the scanner finds an error at. -/
theorem not_formed_of_read (hf : (Piece.read c rest).1.form = .stray ∨
    (Piece.read c rest).1.form = .unclosed) (hp : w <+: rest) : ¬ Formed (c :: w) := by
  revert hf
  fun_cases Piece.read c rest
  case case8 hc hs =>
    intro _
    subst hc
    rw [formed_quote]
    rintro ⟨body, rfl, hb⟩
    obtain ⟨after, rfl⟩ := hp
    rw [List.append_assoc, List.singleton_append, stringTail?_eq_some hb] at hs
    cases hs
  case case11 ho hp hs hb hq hd hl =>
    intro _
    have ho' : ∀ k, (c, k) ∉ operators := by
      intro k hk
      simp [lookup_operators.2 hk] at ho
    have hp' : ∀ k, (c, k) ∉ punctuation := by
      intro k hk
      simp [lookup_punctuation.2 hk] at hp
    grind [formed_cons, numeral_head, blanks]
  all_goals simp

/-- Every form that a text begins with lies within the piece that the scanner reads. -/
theorem read_longest (h : Formed (c :: w)) (hp : w <+: rest) :
    c :: w <+: (Piece.read c rest).1.text := by
  have hf := mt (fun hf => not_formed_of_read hf hp) (not_not_intro h)
  revert hf
  fun_cases Piece.read c rest <;> intro hf
  case case1 k hk =>
    obtain rfl := (formed_punctuation (lookup_punctuation.1 hk)).1 h
    exact List.prefix_rfl
  case case2 k k' hk _ after =>
    rcases (formed_operator (lookup_operators.1 hk)).1 h with rfl | rfl
    · exact ⟨['='], rfl⟩
    · exact List.prefix_rfl
  case case3 k k' hk _ hr =>
    rcases (formed_operator (lookup_operators.1 hk)).1 h with rfl | rfl
    · exact List.prefix_rfl
    · obtain ⟨after, rfl⟩ := hp
      exact (hr after rfl).elim
  case case4 hc after =>
    subst hc
    rcases formed_slash.1 h with rfl | ⟨body, rfl, hb⟩
    · exact ⟨_, rfl⟩
    · have hp' := prefix_takeWhile ((List.prefix_cons_inj _).1 hp) (all_ne_of_not_mem hb)
      exact (List.prefix_cons_inj _).2 ((List.prefix_cons_inj _).2 hp')
  case case5 hc hr =>
    subst hc
    rcases formed_slash.1 h with rfl | ⟨body, rfl, hb⟩
    · exact List.prefix_rfl
    · obtain ⟨after, rfl⟩ := hp
      exact (hr _ rfl).elim
  case case6 hc =>
    obtain rfl := (formed_blank (by simpa [blanks] using hc)).1 h
    exact List.prefix_rfl
  case case7 hc tail after hs =>
    subst hc
    obtain ⟨body, rfl, hb⟩ := formed_quote.1 h
    obtain ⟨more, rfl⟩ := hp
    rw [List.append_assoc, List.singleton_append, stringTail?_eq_some hb] at hs
    cases hs
    exact List.prefix_rfl
  case case8 => exact (List.prefix_cons_inj c).2 hp
  case case9 hc =>
    exact (List.prefix_cons_inj c).2 (numberTail_longest ((formed_digit hc).1 h) hp)
  case case10 hc word =>
    exact (List.prefix_cons_inj c).2 (prefix_takeWhile hp ((formed_letter hc).1 h))
  case case11 => exact absurd (.inl rfl) hf

theorem text_of_stray (h : (Piece.read c rest).1.form = .stray) : (Piece.read c rest).1.text = [c] := by
  revert h
  fun_cases Piece.read c rest <;> simp

theorem text_of_unclosed (h : (Piece.read c rest).1.form = .unclosed) :
    (Piece.read c rest).1.text = c :: rest := by
  revert h
  fun_cases Piece.read c rest <;> simp

theorem formed_beginning (h : Formed u) (hp : u <+: c :: rest) : ∃ w, u = c :: w ∧ w <+: rest := by
  rcases List.prefix_cons_iff.1 hp with rfl | h'
  · exact absurd rfl (formed_ne_nil h)
  · exact h'

/-- The scanner cuts off the piece that a text begins with. -/
theorem read_firstPiece (c : Char) (rest : List Char) :
    FirstPiece (c :: rest) (Piece.read c rest).1.text := by
  have hd := read_describes c rest
  have hbegin : (Piece.read c rest).1.text <+: c :: rest := ⟨_, Piece.read_text_append c rest⟩
  have hlong : ∀ u, Formed u → u <+: c :: rest → u.length ≤ (Piece.read c rest).1.text.length := by
    intro u hu hp
    obtain ⟨w, rfl, hw⟩ := formed_beginning hu hp
    exact (read_longest hu hw).length_le
  have hnone : (Piece.read c rest).1.form = .stray ∨ (Piece.read c rest).1.form = .unclosed →
      ∀ u, Formed u → ¬ u <+: c :: rest := by
    intro hf u hu hp
    obtain ⟨w, rfl, hw⟩ := formed_beginning hu hp
    exact not_formed_of_read hf hw hu
  cases hf : (Piece.read c rest).1.form with
  | token k =>
    rw [hf] at hd
    obtain ⟨v, hd⟩ := hd
    exact .formed hd.formed hbegin hlong
  | layout =>
    rw [hf] at hd
    exact .formed (.inr hd) hbegin hlong
  | stray =>
    rw [hf, text_of_stray hf] at hd
    obtain ⟨d, hd, hq⟩ := hd
    cases hd
    rw [text_of_stray hf]
    exact .stray (hnone (.inl hf)) rfl hq
  | unclosed =>
    rw [hf, text_of_unclosed hf] at hd
    obtain ⟨body, hd, -⟩ := hd
    rw [text_of_unclosed hf]
    exact .unclosed (hnone (.inr hf)) (by rw [hd]; rfl)

end Trellis
