import Trellis.Proofs.ReadBack
import Trellis.Proofs.Sink
import Trellis.Scan.Session

/-!
# Scanning tiles the source text

Scanning cuts the whole source text into pieces, each the longest that the rest of the text begins with.
The tokens are the pieces that are tokens, in order and with their lines, and the errors are the pieces
of no form.

* `Tiling`: a text cut into its pieces; `tiling_unique`: there is one way to do it;
* `Yields`: the tokens and errors of given pieces; `yields_unique`: they are told by the pieces;
* `Scanner.tokenize_tiling`: scanning yields the tokens and errors of the source text's tiling.
-/

namespace Trellis

variable {line : Nat} {text : List Char} {us : List (List Char)} {ts : List Token}
  {es : List LexicalError}

/-- A text cut into pieces, each the one that the rest of the text begins with. -/
inductive Tiling : List Char → List (List Char) → Prop where
  | nil : Tiling [] []
  | cons {u rest : List Char} {us : List (List Char)} (h : FirstPiece (u ++ rest) u)
      (hr : Tiling rest us) : Tiling (u ++ rest) (u :: us)

/-- The tokens and errors of pieces that stand one after another from a line on. The tokens end with
that of the end of input, on the last line. -/
inductive Yields : Nat → List (List Char) → List Token → List LexicalError → Prop where
  | done {line : Nat} : Yields line [] [endToken line] []
  | token {line : Nat} {u : List Char} {k : TokenKind} {v : Value} {us : List (List Char)}
      {ts : List Token} {es : List LexicalError} (h : Lexeme u k v)
      (hr : Yields (line + u.count '\n') us ts es) :
      Yields line (u :: us) (⟨k, String.ofList u, v, line⟩ :: ts) es
  | skipped {line : Nat} {u : List Char} {us : List (List Char)} {ts : List Token}
      {es : List LexicalError} (h : Skipped u) (hr : Yields (line + u.count '\n') us ts es) :
      Yields line (u :: us) ts es
  | stray {line : Nat} {c : Char} {us : List (List Char)} {ts : List Token}
      {es : List LexicalError} (h : ¬ Formed [c]) (hq : c ≠ '"') (hr : Yields line us ts es) :
      Yields line ([c] :: us) ts (⟨.strayCharacter c, line⟩ :: es)
  | unclosed {line : Nat} {body : List Char} {us : List (List Char)} {ts : List Token}
      {es : List LexicalError} (h : '"' ∉ body) (hr : Yields (line + body.count '\n') us ts es) :
      Yields line (('"' :: body) :: us) ts (⟨.unclosedString, (line + body.count '\n' : Nat)⟩ :: es)

/-! ## One tiling -/

theorem firstPiece_ne_nil {u : List Char} (h : FirstPiece text u) : u ≠ [] := by
  cases h with
  | formed hu => exact formed_ne_nil hu
  | unclosed _ hq =>
    rintro rfl
    cases hq
  | stray => simp

/-- A text begins with one piece. -/
theorem firstPiece_unique {u u' : List Char} (h : FirstPiece text u) (h' : FirstPiece text u') :
    u = u' := by
  cases h with
  | formed hu hp hl =>
    cases h' with
    | formed hu' hp' hl' =>
      have hlen := Nat.le_antisymm (hl' _ hu hp) (hl _ hu' hp')
      exact (List.prefix_of_prefix_length_le hp hp' (Nat.le_of_eq hlen)).eq_of_length hlen
    | unclosed hn => exact absurd hp (hn _ hu)
    | stray hn => exact absurd hp (hn _ hu)
  | unclosed hn hq =>
    cases h' with
    | formed hu' hp' => exact absurd hp' (hn _ hu')
    | unclosed => rfl
    | stray _ hc' hq' =>
      rw [hq] at hc'
      cases hc'
      exact absurd rfl hq'
  | stray hn hc hq =>
    cases h' with
    | formed hu' hp' => exact absurd hp' (hn _ hu')
    | unclosed _ hq' =>
      rw [hc] at hq'
      cases hq'
      exact absurd rfl hq
    | stray _ hc' =>
      rw [hc] at hc'
      cases hc'
      rfl

/-- There is one way to cut a text into its pieces. -/
theorem tiling_unique {us' : List (List Char)} (h : Tiling text us) (h' : Tiling text us') :
    us = us' := by
  induction h generalizing us' with
  | nil =>
    generalize ht : ([] : List Char) = t at h'
    cases h' with
    | nil => rfl
    | cons hf => simp [firstPiece_ne_nil hf] at ht
  | @cons u rest us hf hr ih =>
    generalize ht : u ++ rest = t at h'
    cases h' with
    | nil => simp [firstPiece_ne_nil hf] at ht
    | cons hf' hr' =>
      rw [ht] at hf
      obtain rfl := firstPiece_unique hf hf'
      obtain rfl := List.append_cancel_left ht
      rw [ih hr']

theorem tiling_ne_nil (h : Tiling text us) : ∀ u ∈ us, u ≠ [] := by
  induction h with
  | nil => simp
  | cons hf _ ih =>
    rintro u (_ | ⟨_, hu⟩)
    · exact firstPiece_ne_nil hf
    · exact ih u hu

theorem tiling_flatten (h : Tiling text us) : us.flatten = text := by
  induction h with
  | nil => rfl
  | cons _ _ ih => rw [List.flatten_cons, ih]

theorem not_formed_unclosed {body : List Char} (h : '"' ∉ body) : ¬ Formed ('"' :: body) := by
  rw [formed_quote]
  rintro ⟨w, rfl, -⟩
  exact h (by simp)

/-- The pieces tell the tokens and the errors. -/
theorem yields_unique {ts' : List Token} {es' : List LexicalError} (h : Yields line us ts es)
    (h' : Yields line us ts' es') : ts = ts' ∧ es = es' := by
  induction h generalizing ts' es' with
  | done =>
    cases h'
    exact ⟨rfl, rfl⟩
  | token hl _ ih =>
    cases h' with
    | token hl' hr' =>
      obtain ⟨rfl, rfl⟩ := lexeme_unique hl hl'
      obtain ⟨rfl, rfl⟩ := ih hr'
      exact ⟨rfl, rfl⟩
    | skipped hs => exact absurd hs (not_skipped hl)
    | stray hf => exact absurd hl.formed hf
    | unclosed hb => exact absurd hl.formed (not_formed_unclosed hb)
  | skipped hs _ ih =>
    cases h' with
    | token hl => exact absurd hs (not_skipped hl)
    | skipped _ hr' => exact ih hr'
    | stray hf => exact absurd (.inr hs) hf
    | unclosed hb => exact absurd (.inr hs) (not_formed_unclosed hb)
  | stray hf hq _ ih =>
    cases h' with
    | token hl => exact absurd hl.formed hf
    | skipped hs => exact absurd (.inr hs) hf
    | stray _ _ hr' =>
      obtain ⟨rfl, rfl⟩ := ih hr'
      exact ⟨rfl, rfl⟩
    | unclosed => exact absurd rfl hq
  | unclosed hb _ ih =>
    cases h' with
    | token hl => exact absurd hl.formed (not_formed_unclosed hb)
    | skipped hs => exact absurd (.inr hs) (not_formed_unclosed hb)
    | stray _ hq => exact absurd rfl hq
    | unclosed _ hr' =>
      obtain ⟨rfl, rfl⟩ := ih hr'
      exact ⟨rfl, rfl⟩

/-! ## The scanner's tiling -/

theorem tiling_pieces (text : List Char) : Tiling text ((pieces text).map Piece.text) := by
  fun_induction pieces text with
  | case1 => exact .nil
  | case2 c rest ih =>
    have hf := read_firstPiece c rest
    have h := Piece.read_text_append c rest
    rw [List.map_cons, ← h]
    rw [← h] at hf
    exact .cons hf ih

/-- A stray character is no line end. -/
theorem newlines_of_stray {c : Char} (h : ¬ Formed [c]) : [c].count '\n' = 0 := by
  have hc : c ≠ '\n' := by
    rintro rfl
    exact h (.inr (.blank (by decide)))
  simp [hc]

/-- What one placed piece adds to the tokens and errors of those behind it. -/
theorem yields_piece {p : Piece} (hd : p.form.Describes p.text)
    (hs : p.form = .stray → ¬ Formed p.text) (offset : Nat)
    (h : Yields (line + p.newlines) us ts es) :
    Yields line (p.text :: us) ((Placed.token? ⟨p, offset, line⟩).toList ++ ts)
      ((Placed.error? ⟨p, offset, line⟩).toList ++ es) := by
  obtain ⟨form, text⟩ := p
  cases form with
  | token k =>
    obtain ⟨v, hl⟩ := hd
    have hv : (⟨.token k, text⟩ : Piece).literal = v := literal_of_lexeme hl
    simp only [Placed.token?, Placed.error?, hv, Option.toList_some, Option.toList_none]
    exact .token hl h
  | layout => exact .skipped hd h
  | stray =>
    obtain ⟨c, rfl, hq⟩ := hd
    have hn := newlines_of_stray (hs rfl)
    have h' : Yields line us ts es := by simpa [Piece.newlines, hn] using h
    exact .stray (hs rfl) hq h'
  | unclosed =>
    obtain ⟨body, rfl, hb⟩ := hd
    have hn : ('"' :: body).count '\n' = body.count '\n' := by simp
    simp only [Placed.token?, Placed.error?, Piece.newlines, hn, Option.toList_some,
      Option.toList_none] at h ⊢
    exact .unclosed hb h

theorem filterMap_cons_toList {α β : Type} (f : α → Option β) (a : α) (l : List α) :
    (a :: l).filterMap f = (f a).toList ++ l.filterMap f := by
  rw [List.filterMap_cons]
  cases f a <;> rfl

theorem yields_pieces (text : List Char) (offset line : Nat) :
    Yields line ((pieces text).map Piece.text)
      ((place offset line (pieces text)).filterMap Placed.token? ++
        [endToken (line + text.count '\n' : Nat)])
      ((place offset line (pieces text)).filterMap Placed.error?) := by
  fun_induction pieces text generalizing offset line with
  | case1 => exact .done
  | case2 c rest ih =>
    generalize hp : (Piece.read c rest).1 = p at ih ⊢
    have hd : p.form.Describes p.text := hp ▸ read_describes c rest
    have hs : p.form = .stray → ¬ Formed p.text := by
      intro hf
      rw [← hp, text_of_stray (hp ▸ hf)]
      exact not_formed_of_read (.inl (hp ▸ hf)) List.nil_prefix
    have hcount : (c :: rest).count '\n' = p.newlines + (Piece.read c rest).2.count '\n' := by
      rw [← Piece.read_text_append c rest, List.count_append, hp, Piece.newlines]
    have h := yields_piece hd hs offset (ih (offset + p.text.length) (line + p.newlines))
    rw [hcount, ← Nat.add_assoc, List.map_cons, place, filterMap_cons_toList,
      filterMap_cons_toList, List.append_assoc]
    exact h

/-! ## The scanner -/

/-- **Scanning is a lossless maximal-munch tiling.** -/
theorem Scanner.tokenize_tiling (s : Scanner) : ∃ us, us.flatten = s.source.toList ∧
    (∀ u ∈ us, u ≠ []) ∧ Tiling s.source.toList us ∧
    Yields 1 us s.tokenize.tokens s.tokenize.errors ∧
    s.tokenize.sink.diagnostics =
      s.sink.diagnostics ++ s.tokenize.errors.map LexicalError.diagnostic := by
  have ht := tiling_pieces s.source.toList
  refine ⟨_, tiling_flatten ht, tiling_ne_nil ht, ht, ?_, ?_⟩
  · exact yields_pieces s.source.toList 0 1
  · simp [Scanner.tokenize, Scan.reportTo]

end Trellis
