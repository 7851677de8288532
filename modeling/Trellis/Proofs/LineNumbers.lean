import Trellis.Proofs.CharacterSteps

/-!
# Line numbers

A scan counts line ends as it goes along: those between tokens, and those inside strings, while a comment
stops before one. A token has the line on which its piece began, and an error the line that the scan has
reached. Each of these lines is that of an offset, and is told by the text and the offset alone.

* `lineAt`: the line of an offset; only `\n` ends a line;
* `standing`: pieces with the offsets at which they stand;
* `Picks`: what is found at those elements of a list that have a property;
* `Scanner.lines_exact`: every token and every error has the line of its offset.
-/

namespace Trellis

variable {text u : List Char} {us : List (List Char)} {line n : Nat} {ts : List Token}
  {es : List LexicalError}

/-! ## Lines and offsets -/

/-- The line of an offset: one more than the line ends before it. -/
def lineAt (text : List Char) (offset : Nat) : Nat := 1 + (text.take offset).count '\n'

/-- Characters that end a line elsewhere, but not in source text. -/
def otherLineEnds : List Char := ['\r', '\x85', '\u2028', '\u2029']

theorem lineAt_zero (text : List Char) : lineAt text 0 = 1 := by simp [lineAt]

theorem lineAt_of_le (h : text.length ≤ n) : lineAt text n = lineAt text text.length := by
  rw [lineAt, lineAt, List.take_of_length_le h, List.take_length]

theorem lineAt_add (h : u <+: text.drop n) :
    lineAt text (n + u.length) = lineAt text n + u.count '\n' := by
  rw [lineAt, lineAt, List.take_add, List.count_append, ← List.prefix_iff_eq_take.1 h, Nat.add_assoc]

/-- Behind a character, the line is the same or, if that was a line end, the next. -/
theorem lineAt_succ {c : Char} (h : text[n]? = some c) :
    lineAt text (n + 1) = lineAt text n + [c].count '\n' := by
  obtain ⟨hn, rfl⟩ := List.getElem?_eq_some_iff.1 h
  refine lineAt_add (u := [text[n]]) ?_
  rw [List.drop_eq_getElem_cons hn]
  exact ⟨_, rfl⟩

/-! ## Pieces and offsets -/

/-- Pieces that stand one after another, with the offset of each. -/
def standing (offset : Nat) : List (List Char) → List (List Char × Nat)
  | [] => []
  | u :: us => (u, offset) :: standing (offset + u.length) us

/-- What is found at those elements of a list that have a property, in their order. -/
inductive Picks {α β : Type} (P : α → Prop) (R : α → β → Prop) : List α → List β → Prop where
  | nil : Picks P R [] []
  | hit {a : α} {b : β} {as : List α} {bs : List β} (hp : P a) (hr : R a b) (h : Picks P R as bs) :
      Picks P R (a :: as) (b :: bs)
  | skip {a : α} {as : List α} {bs : List β} (hp : ¬ P a) (h : Picks P R as bs) :
      Picks P R (a :: as) bs

/-- A token is made from the piece at an offset, and has its line. -/
structure TokenAt (text : List Char) (p : List Char × Nat) (t : Token) : Prop where
  lies : p.1 <+: text.drop p.2
  lexeme : t.lexeme = String.ofList p.1
  form : Lexeme p.1 t.kind t.literal
  line : t.line = lineAt text p.2

/-- An error is that of the piece at an offset: a stray character has the line of its offset, and a
string that is not closed, which is the whole rest of the text, that of the end. -/
def ErrorAt (text : List Char) (p : List Char × Nat) (e : LexicalError) : Prop :=
  match e.fault with
  | .strayCharacter c => p.1 = [c] ∧ text[p.2]? = some c ∧ e.line = lineAt text p.2
  | .unclosedString => p.1 = text.drop p.2 ∧ e.line = lineAt text text.length

/-- The piece is a token. -/
def IsToken (p : List Char × Nat) : Prop := ∃ k v, Lexeme p.1 k v

/-- The piece has no form. -/
def IsFault (p : List Char × Nat) : Prop := ¬ Formed p.1

theorem Skipped.not_isToken (h : Skipped u) : ¬ IsToken (u, n) := by
  rintro ⟨k, v, hl⟩
  exact not_skipped hl h

theorem not_isToken_of_not_formed (h : ¬ Formed u) : ¬ IsToken (u, n) := fun ht => h (.inl ht)

theorem not_isFault (h : Formed u) : ¬ IsFault (u, n) := not_not_intro h

/-! ## The lines of a scan -/

/-- The first piece of what stands from an offset on, and the rest from the offset behind it on. -/
theorem tiling_tail (h : Tiling (text.drop n) (u :: us)) : u <+: text.drop n ∧
    Tiling (text.drop (n + u.length)) us ∧
    lineAt text (n + u.length) = lineAt text n + u.count '\n' := by
  generalize ht : text.drop n = t at h
  cases h with
  | cons _ hr =>
    have hu : u <+: text.drop n := ⟨_, ht.symm⟩
    refine ⟨⟨_, rfl⟩, ?_, lineAt_add hu⟩
    rwa [← List.drop_drop, ht, List.drop_left]

/-- A string that is not closed is the whole rest of the text. -/
theorem tiling_unclosed {body : List Char} (h : Tiling text (('"' :: body) :: us)) (hb : '"' ∉ body) :
    text = '"' :: body ∧ us = [] := by
  generalize hu : '"' :: body = u at h
  have hn : ¬ Formed u := hu ▸ not_formed_unclosed hb
  cases h with
  | @cons _ rest _ hf hr =>
    have hrest : rest = [] := by
      generalize ht : u ++ rest = t at hf
      cases hf with
      | formed hu' => exact absurd hu' hn
      | unclosed =>
        exact List.append_right_eq_self.1 ht
      | stray _ _ hq =>
        cases hu
        exact absurd rfl hq
    subst hrest
    refine ⟨List.append_nil u, ?_⟩
    cases us with
    | nil => rfl
    | cons v vs => exact absurd (tiling_flatten hr) (by simp [tiling_ne_nil hr v])

/-- The tokens and errors of pieces that stand from an offset on. -/
theorem picks_of_yields (h : Yields line us ts es) (ht : Tiling (text.drop n) us)
    (hline : line = lineAt text n) :
    (∃ ts', ts = ts' ++ [endToken (lineAt text text.length)] ∧
      Picks IsToken (TokenAt text) (standing n us) ts') ∧
    Picks IsFault (ErrorAt text) (standing n us) es := by
  induction h generalizing n with
  | done =>
    have hn : text.length ≤ n := List.drop_eq_nil_iff.1 (tiling_flatten ht).symm
    rw [hline, lineAt_of_le hn]
    exact ⟨⟨[], rfl, .nil⟩, .nil⟩
  | @token line u k v us ts es hl _ ih =>
    obtain ⟨hu, hr, hl'⟩ := tiling_tail ht
    obtain ⟨⟨ts', rfl, hts⟩, hes⟩ := ih hr (hline ▸ hl'.symm)
    have htoken : TokenAt text (u, n) ⟨k, String.ofList u, v, line⟩ :=
      ⟨hu, rfl, hl, congrArg Nat.cast hline⟩
    exact ⟨⟨_ :: ts', rfl, .hit ⟨_, _, hl⟩ htoken hts⟩, .skip (not_isFault hl.formed) hes⟩
  | skipped hs _ ih =>
    obtain ⟨hu, hr, hl'⟩ := tiling_tail ht
    obtain ⟨⟨ts', rfl, hts⟩, hes⟩ := ih hr (hline ▸ hl'.symm)
    exact ⟨⟨ts', rfl, .skip hs.not_isToken hts⟩, .skip (not_isFault (.inr hs)) hes⟩
  | @stray line c us ts es hf hq _ ih =>
    obtain ⟨hu, hr, hl'⟩ := tiling_tail ht
    rw [newlines_of_stray hf, Nat.add_zero] at hl'
    obtain ⟨⟨ts', rfl, hts⟩, hes⟩ := ih hr (hline.trans hl'.symm)
    refine ⟨⟨ts', rfl, .skip (not_isToken_of_not_formed hf) hts⟩, .hit hf ⟨rfl, ?_, ?_⟩ hes⟩
    · obtain ⟨after, hafter⟩ := hu
      rw [← List.head?_drop, ← hafter]
      rfl
    · rw [hline]
  | @unclosed line body us ts es hb _ ih =>
    obtain ⟨hu, hr, hl'⟩ := tiling_tail ht
    obtain ⟨hall, rfl⟩ := tiling_unclosed ht hb
    have hf := not_formed_unclosed hb
    have hcount : ('"' :: body).count '\n' = body.count '\n' := by simp
    rw [hcount] at hl'
    obtain ⟨⟨ts', rfl, hts⟩, hes⟩ := ih hr (hline ▸ hl'.symm)
    refine ⟨⟨ts', rfl, .skip (not_isToken_of_not_formed hf) hts⟩, .hit hf ⟨hall.symm, ?_⟩ hes⟩
    have hend : text.length ≤ n + ('"' :: body).length :=
      List.drop_eq_nil_iff.1 (tiling_flatten hr).symm
    rw [hline, ← hl', lineAt_of_le hend]

theorem lines_from {k : Nat} (h : ∀ t ∈ ts, ((line + k : Nat) : Int) ≤ t.line) :
    ∀ t ∈ ts, (line : Int) ≤ t.line := by
  intro t ht
  have := h t ht
  omega

/-- Lines never decrease along the tokens. -/
theorem yields_pairwise (h : Yields line us ts es) :
    (∀ t ∈ ts, (line : Int) ≤ t.line) ∧ ts.Pairwise (·.line ≤ ·.line) := by
  induction h with
  | done => simp [endToken]
  | token _ _ ih =>
    have hrest := lines_from ih.1
    refine ⟨?_, .cons hrest ih.2⟩
    rintro t (_ | ⟨_, ht⟩)
    · exact Int.le_refl _
    · exact hrest t ht
  | skipped _ _ ih => exact ⟨lines_from ih.1, ih.2⟩
  | stray _ _ _ ih => exact ih
  | unclosed _ _ ih => exact ⟨lines_from ih.1, ih.2⟩

/-- **Line numbers are exact.** The tokens but for the last one, and the errors, are in order the pieces
that are tokens and those of no form, each with the line of its offset; the token of the end of input, a
string that is not closed and the scanner itself have the line of the end. -/
theorem Scanner.lines_exact (s : Scanner) :
    let text := s.source.toList
    let last := lineAt text text.length
    s.rescan = some s.tokenize ∧ s.tokenize.line = last ∧
    (∃ us ts, Tiling text us ∧ s.tokenize.tokens = ts ++ [endToken last] ∧
      Picks IsToken (TokenAt text) (standing 0 us) ts ∧
      Picks IsFault (ErrorAt text) (standing 0 us) s.tokenize.errors) ∧
    s.tokenize.tokens.Pairwise (·.line ≤ ·.line) ∧
    ∀ c ∈ otherLineEnds, ∀ o, text[o]? = some c → lineAt text (o + 1) = lineAt text o := by
  intro text last
  obtain ⟨us, -, -, ht, hy, -⟩ := s.tokenize_tiling
  obtain ⟨⟨ts, hts, htokens⟩, herrors⟩ := picks_of_yields (n := 0) hy ht (lineAt_zero text).symm
  refine ⟨s.rescan_eq, ?_, ⟨us, ts, ht, hts, htokens, herrors⟩, (yields_pairwise hy).2, ?_⟩
  · simp [last, Scanner.tokenize, lastLine, lineAt, text]
  · intro c hc o ho
    have hne : c ≠ '\n' := by
      rintro rfl
      simp [otherLineEnds] at hc
    have hcount : [c].count '\n' = 0 := by simp [hne]
    rw [lineAt_succ ho, hcount, Nat.add_zero]

end Trellis
