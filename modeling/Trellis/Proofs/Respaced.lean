import Mathlib.Data.List.Forall2
import Trellis.Proofs.Sentence

/-!
# Scanning what a scan has found

A scan leaves out what stands between the tokens. Their lexemes alone, written with a space between any
two, are scanned as the same tokens again, for each lexeme is found as if nothing else were there.

* `IsLexeme`: the text of a token; `isLexeme_iff`: what is one token where it is scanned alone;
* `Token.word`: a token without its line;
* `scan_respaced`: **scanning the lexemes of a scan gives its tokens back**.
-/

namespace Trellis

variable {line : Nat} {us : List (List Char)} {ts : List Token} {es : List LexicalError}

/-- The text of a token. -/
def IsLexeme (u : String) : Prop := ∃ k v, Lexeme u.toList k v

/-- The scan of a text alone finds one token, which is all of the text. -/
structure ScannedAlone (u : String) (t : Token) : Prop where
  lexeme : t.lexeme = u
  alone : scan u = ⟨[{ t with line := 1 }, endToken (lastLine u)], []⟩

/-- What a token is apart from its line. -/
def Token.word (t : Token) : TokenKind × String × Value := (t.kind, t.lexeme, t.literal)

/-- The tokens of a scan without their lines. -/
def Scan.words (s : Scan) : List (TokenKind × String × Value) := s.tokens.map Token.word

/-! ## One lexeme -/

theorem scannedAlone {u : List Char} {k : TokenKind} {v : Value} (h : Lexeme u k v) (line : Int) :
    ScannedAlone (String.ofList u) ⟨k, String.ofList u, v, line⟩ := by
  refine ⟨rfl, ?_⟩
  have hscan := scan_spaced (.cons h .nil)
  simpa [spaced, lastLine] using hscan

/-- The tokens of a scan, but for the last, are those of lexemes. -/
theorem lexemes_of_yields (h : Yields line us ts es) : ∃ xs last,
    ts = xs ++ [endToken last] ∧ ∀ t ∈ xs, Lexeme t.lexeme.toList t.kind t.literal := by
  induction h with
  | @done line => exact ⟨[], line, rfl, by simp⟩
  | token hl _ ih =>
    obtain ⟨xs, last, rfl, hxs⟩ := ih
    refine ⟨_ :: xs, last, rfl, List.forall_mem_cons.2 ⟨?_, hxs⟩⟩
    rwa [String.toList_ofList]
  | skipped _ _ ih | stray _ _ _ ih | unclosed _ _ ih => exact ih

theorem lexemes_of_scan (source : String) : ∃ ts last, (scan source).tokens = ts ++ [endToken last] ∧
    ∀ t ∈ ts, Lexeme t.lexeme.toList t.kind t.literal := by
  obtain ⟨us, -, hyields⟩ := exists_tiling source
  exact lexemes_of_yields hyields

/-- The text of a token is what is one token where it is scanned alone. -/
theorem isLexeme_iff (u : String) : IsLexeme u ↔ ∃ t, ScannedAlone u t := by
  constructor
  · rintro ⟨k, v, h⟩
    have halone := scannedAlone h 1
    rw [String.ofList_toList] at halone
    exact ⟨_, halone⟩
  · rintro ⟨t, rfl, halone⟩
    obtain ⟨ts, last, htokens, hlexemes⟩ := lexemes_of_scan t.lexeme
    rw [halone] at htokens
    change [{ t with line := 1 }] ++ [endToken _] = ts ++ [endToken last] at htokens
    obtain ⟨rfl, -⟩ := List.append_inj' htokens rfl
    exact ⟨_, _, hlexemes { t with line := 1 } List.mem_cons_self⟩

/-! ## A row of lexemes -/

theorem exists_tokensOf (h : ∀ u ∈ us, ∃ k v, Lexeme u k v) (line : Nat) :
    ∃ ts, TokensOf line us ts := by
  induction us generalizing line with
  | nil => exact ⟨[], .nil⟩
  | cons u us ih =>
    obtain ⟨⟨k, v, hl⟩, hus⟩ := List.forall_mem_cons.1 h
    obtain ⟨ts, hts⟩ := ih hus (line + u.count '\n')
    exact ⟨_, .cons hl hts⟩

/-- Each token of a row is that of its lexeme alone. -/
theorem alone_of_tokensOf (h : TokensOf line us ts) :
    List.Forall₂ ScannedAlone (us.map String.ofList) ts := by
  induction h with
  | nil => exact .nil
  | cons hl _ ih => exact .cons (scannedAlone hl _) ih

/-- Lexemes tell the tokens of a row but for their lines. -/
theorem words_unique {xs : List Token} (h : TokensOf line us ts)
    (hxs : ∀ t ∈ xs, Lexeme t.lexeme.toList t.kind t.literal)
    (hus : us = xs.map fun t => t.lexeme.toList) : ts.map Token.word = xs.map Token.word := by
  induction h generalizing xs with
  | nil =>
    obtain rfl := List.map_eq_nil_iff.1 hus.symm
    rfl
  | cons hl _ ih =>
    obtain ⟨x, xs, rfl, rfl, rfl⟩ := List.map_eq_cons_iff.1 hus.symm
    obtain ⟨hx, hxs⟩ := List.forall_mem_cons.1 hxs
    obtain ⟨rfl, rfl⟩ := lexeme_unique hl hx
    rw [List.map_cons, List.map_cons, ih hxs rfl, Token.word, String.ofList_toList]
    rfl

theorem intercalate_space (us : List String) :
    " ".intercalate us = String.ofList (spaced (us.map String.toList)) := by
  have h : (" ".intercalate us).toList = spaced (us.map String.toList) := String.toList_intercalate
  rw [← h, String.ofList_toList]

/-! ### With a space behind the last -/

theorem spaced_concat_nil (us : List (List Char)) :
    spaced (us ++ [[]]) = us.flatMap (· ++ [' ']) := by
  induction us with
  | nil => rfl
  | cons u us ih =>
    rw [List.flatMap_cons, ← ih]
    cases us <;> simp [spaced, List.intercalate]

theorem tiling_closed (h : TokensOf line us ts) :
    Tiling (us.flatMap (· ++ [' '])) (us.flatMap ([·, [' ']])) := by
  induction h with
  | nil => exact .nil
  | @cons line u k v us ts hl _ ih =>
    have hb := firstPiece_blank (c := ' ') (by decide) (us.flatMap (· ++ [' ']))
    have hf := firstPiece_lexeme hl (' ' :: us.flatMap (· ++ [' '])) (by simp [blanks])
    simpa using Tiling.cons hf (.cons (u := [' ']) hb ih)

theorem yields_closed (h : TokensOf line us ts) : Yields line (us.flatMap ([·, [' ']]))
    (ts ++ [endToken (line + us.flatten.count '\n' : Nat)]) [] := by
  induction h with
  | nil => exact .done
  | cons hl _ ih =>
    rw [List.flatten_cons, List.count_append, ← Nat.add_assoc]
    exact .token hl (.skipped (.blank (by decide)) ih)

/-- Lexemes with a space behind each are scanned as their tokens. -/
theorem scan_closed (h : TokensOf 1 us ts) : scan (String.ofList (spaced (us ++ [[]]))) =
    ⟨ts ++ [endToken (1 + us.flatten.count '\n' : Nat)], []⟩ := by
  refine scan_of_tiling ?_ (yields_closed h)
  rw [String.toList_ofList, spaced_concat_nil]
  exact tiling_closed h

/-! ## The scan of what was scanned -/

/-- **Scanning the lexemes of a scan gives its tokens back.** Texts that are each one token where they
are scanned alone are scanned, with a space between any two, as these tokens and without an error. So
the lexemes of the scan of any text, with or without the empty one at its end, are scanned as the same
tokens but for the lines. -/
theorem scan_respaced :
    (∀ u, IsLexeme u ↔ ∃ t, ScannedAlone u t) ∧
    (∀ us, (∀ u ∈ us, IsLexeme u) → ∃ ts last,
      scan (" ".intercalate us) = ⟨ts ++ [endToken last], []⟩ ∧ List.Forall₂ ScannedAlone us ts) ∧
    ∀ source us, us = (scan source).tokens.map Token.lexeme ∨
        us = (scan source).tokens.dropLast.map Token.lexeme →
      (scan (" ".intercalate us)).words = (scan source).words ∧
        (scan (" ".intercalate us)).errors = [] := by
  refine ⟨isLexeme_iff, ?_, ?_⟩
  · intro us hus
    have hlexemes : ∀ u ∈ us.map String.toList, ∃ k v, Lexeme u k v := by
      simpa [IsLexeme] using hus
    obtain ⟨ts, hts⟩ := exists_tokensOf hlexemes 1
    have halone := alone_of_tokensOf hts
    have hback : (us.map String.toList).map String.ofList = us := by simp [Function.comp_def]
    rw [hback] at halone
    rw [intercalate_space, scan_spaced hts]
    exact ⟨ts, _, rfl, halone⟩
  · intro source us hus
    obtain ⟨xs, last, htokens, hxs⟩ := lexemes_of_scan source
    have hlexemes : ∀ u ∈ xs.map fun t => t.lexeme.toList, ∃ k v, Lexeme u k v :=
      List.forall_mem_map.2 fun t ht => ⟨_, _, hxs t ht⟩
    obtain ⟨ts, hts⟩ := exists_tokensOf hlexemes 1
    have hwords := words_unique hts hxs rfl
    have hscan : ∃ last', scan (" ".intercalate us) = ⟨ts ++ [endToken last'], []⟩ := by
      rw [htokens] at hus
      rw [intercalate_space]
      rcases hus with rfl | rfl
      · rw [List.map_append, List.map_append, List.map_map]
        exact ⟨_, scan_closed hts⟩
      · rw [List.dropLast_concat, List.map_map]
        exact ⟨_, scan_spaced hts⟩
    obtain ⟨last', hscan⟩ := hscan
    rw [hscan, Scan.words, Scan.words, htokens, List.map_append, List.map_append, hwords]
    exact ⟨rfl, rfl⟩

/-- Two slashes stay apart, and so do a number and a point; the slashes in a string are no comment. -/
theorem slashes_respaced :
    let us := ["/", "/", "1", ".", "\"\n//\""]
    let source := "1.//\n@\"a\nb\""
    (∀ u ∈ us, IsLexeme u) ∧
    (∃ ts last, scan (" ".intercalate us) = ⟨ts ++ [endToken last], []⟩ ∧
      List.Forall₂ ScannedAlone us ts) ∧
    (scan (" ".intercalate ((scan source).tokens.map Token.lexeme))).words = (scan source).words ∧
      (scan (" ".intercalate ((scan source).tokens.map Token.lexeme))).errors = [] := by
  intro us source
  have hone : Numeral ['1'] := .whole (by simp) (List.forall_mem_singleton.2 (by decide))
  have hus : ∀ u ∈ us, IsLexeme u := by
    have hstring : '"' ∉ ['\n', '/', '/'] := by decide
    simp only [us, List.forall_mem_cons]
    exact ⟨⟨_, _, .slash⟩, ⟨_, _, .slash⟩, ⟨_, _, .number hone (ofText?_numeral hone)⟩,
      ⟨.dot, _, .punctuation (by decide)⟩, ⟨_, _, .string hstring⟩, by simp⟩
  exact ⟨hus, scan_respaced.2.1 us hus, scan_respaced.2.2 source _ (.inl rfl)⟩

end Trellis
