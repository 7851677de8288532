import Trellis.Proofs.Tiling

/-!
# Lexemes with spaces between them

A text of lexemes with a space between any two is scanned as these lexemes, whatever they are, since
no token goes on past a space.

* `TokensOf`: the tokens of lexemes that stand one after another from a line on;
* `scan_spaced`: the scan of such a text finds its tokens and no error.
-/

namespace Trellis

variable {line : Nat} {u rest : List Char} {k : TokenKind} {v : Value} {us vs : List (List Char)}
  {ts ss : List Token}

/-- Lexemes with a space between any two. -/
def spaced (us : List (List Char)) : List Char := [' '].intercalate us

/-- The tokens of lexemes that stand one after another from a line on. -/
inductive TokensOf : Nat → List (List Char) → List Token → Prop where
  | nil {line : Nat} : TokensOf line [] []
  | cons {line : Nat} {u : List Char} {k : TokenKind} {v : Value} {us : List (List Char)}
      {ts : List Token} (h : Lexeme u k v) (hr : TokensOf (line + u.count '\n') us ts) :
      TokensOf line (u :: us) (⟨k, String.ofList u, v, line⟩ :: ts)

theorem TokensOf.append (h : TokensOf line us ts)
    (h' : TokensOf (line + us.flatten.count '\n') vs ss) : TokensOf line (us ++ vs) (ts ++ ss) := by
  induction h with
  | nil => simpa using h'
  | cons hl _ ih =>
    refine .cons hl (ih ?_)
    simpa [Nat.add_assoc] using h'

/-! ## One lexeme -/

theorem firstPiece_lexeme (h : Lexeme u k v) (rest : List Char) (hr : ∀ d ∈ rest.head?, d ∈ blanks) :
    FirstPiece (u ++ rest) u := by
  cases u with
  | nil => exact absurd rfl (formed_ne_nil h.formed)
  | cons c w =>
    have hf := read_firstPiece c (w ++ rest)
    rwa [read_lexeme h rest hr] at hf

theorem firstPiece_blank {c : Char} (h : c ∈ blanks) (rest : List Char) :
    FirstPiece (c :: rest) [c] := by
  have hf := read_firstPiece c rest
  rwa [read_blank h] at hf

/-- Behind two slashes all is a comment, up to the line end. -/
theorem firstPiece_slashes (rest : List Char) :
    FirstPiece ('/' :: '/' :: rest) ('/' :: '/' :: rest.takeWhile (· ≠ '\n')) :=
  read_firstPiece '/' ('/' :: rest)

/-- A comment ends before its line end, or at the end of the text. -/
theorem firstPiece_comment {body : List Char} (h : '\n' ∉ body) (hr : ∀ d ∈ rest.head?, d = '\n') :
    FirstPiece ('/' :: '/' :: (body ++ rest)) ('/' :: '/' :: body) := by
  have hstop : ∀ d ∈ rest.head?, ¬ decide (d ≠ '\n') := by
    intro d hd
    simp [hr d hd]
  have hf := firstPiece_slashes (body ++ rest)
  rwa [takeWhile_stop (all_ne_of_not_mem h) rest hstop] at hf

/-- Only strings reach over a line end. -/
theorem newlines_of_lexeme (h : Lexeme u k v) (hk : k ≠ .string) : '\n' ∉ u := by
  have hp : ∀ p ∈ punctuation, p.1 ≠ '\n' := by decide
  have ho : ∀ p ∈ operators, p.1 ≠ '\n' := by decide
  cases h with
  | punctuation h => simpa using (hp _ h).symm
  | operator h => simpa using (ho _ h).symm
  | operatorEqual h => simpa using (ho _ h).symm
  | slash => decide
  | string => exact absurd rfl hk
  | number hn =>
    intro hc
    rcases numeral_chars hn _ hc with hc | hc <;> exact absurd hc (by decide)
  | word hc hw =>
    intro h
    rcases List.mem_cons.1 h with rfl | h
    · exact absurd hc (by decide)
    · exact absurd (hw _ h) (by decide)

/-! ## A row of lexemes -/

theorem tiling_spaced (h : TokensOf line us ts) : Tiling (spaced us) (us.intersperse [' ']) := by
  induction h with
  | nil => exact .nil
  | @cons line u k v us ts hl hr ih =>
    cases us with
    | nil =>
      have hf := firstPiece_lexeme hl [] (by simp)
      simpa [spaced, List.intercalate] using Tiling.cons hf .nil
    | cons u' us =>
      have hf := firstPiece_lexeme hl (' ' :: spaced (u' :: us)) (by simp [blanks])
      have hb := firstPiece_blank (c := ' ') (by decide) (spaced (u' :: us))
      have ht : Tiling (' ' :: spaced (u' :: us)) ([' '] :: (u' :: us).intersperse [' ']) :=
        .cons (u := [' ']) hb ih
      simpa [spaced, List.intercalate] using Tiling.cons hf ht

theorem yields_spaced (h : TokensOf line us ts) : Yields line (us.intersperse [' '])
    (ts ++ [endToken (line + us.flatten.count '\n' : Nat)]) [] := by
  induction h with
  | nil => exact .done
  | @cons line u k v us ts hl hr ih =>
    rw [List.flatten_cons, List.count_append, ← Nat.add_assoc]
    cases us with
    | nil => exact .token hl ih
    | cons u' us => exact .token hl (.skipped (.blank (by decide)) ih)

/-! ## The scan -/

theorem exists_tiling (source : String) : ∃ us, Tiling source.toList us ∧
    Yields 1 us (scan source).tokens (scan source).errors :=
  ⟨_, tiling_pieces source.toList, yields_pieces source.toList 0 1⟩

theorem scan_of_tiling {text : String} {es : List LexicalError} (ht : Tiling text.toList us)
    (hy : Yields 1 us ts es) : scan text = ⟨ts, es⟩ := by
  obtain ⟨us', ht', hy'⟩ := exists_tiling text
  obtain rfl := tiling_unique ht ht'
  obtain ⟨rfl, rfl⟩ := yields_unique hy hy'
  rfl

/-- Lexemes with a space between any two are scanned as their tokens. -/
theorem scan_spaced (h : TokensOf 1 us ts) : scan (String.ofList (spaced us)) =
    ⟨ts ++ [endToken (1 + us.flatten.count '\n' : Nat)], []⟩ := by
  refine scan_of_tiling ?_ (yields_spaced h)
  rw [String.toList_ofList]
  exact tiling_spaced h

end Trellis
