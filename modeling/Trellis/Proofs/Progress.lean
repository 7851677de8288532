import Mathlib.Logic.ExistsUnique
import Trellis.Proofs.Call
import Trellis.Proofs.EarliestError

/-!
# Repeated parsing

Parse calls are made one after another until no token is left. Each call moves the cursor on, and what
the calls pass are the tokens that were left, each of them once.

* `call_progress`: one call moves the cursor forward, and not beyond the last token;
* `call_contributes`: it gives a tree, or records an error at a token that it passes;
* `Parser.afterCalls`: the parser after some calls;
* `Parser.Covers`: so many calls read the tokens to their end, each token in one of them;
* `calls_cover`: from every state with tokens left there are such calls, at most one for each token.
-/

namespace Trellis

open Phase

/-- An error is reported at the next token, or at the one just read. -/
theorem found_of_reports {limit : Nat} {endLine : Int} {w : List Token} {m : Phase} {f : Failure}
    (h : Reports limit endLine w m f) :
    f.error.found = f.rest.head? ∨ ∃ v t, w = v ++ [t] ∧ f.error.found = some t := by
  cases h with
  | operandExpected | missingParen => exact .inl rfl
  | nestedTooDeeply => exact .inr ⟨_, _, rfl, rfl⟩

namespace Parser

/-- One parse call gives a tree and records nothing, or it gives none and records one error; the token
of the error, if there is one, is among those that the call passes. -/
inductive Contributes (p : Parser) : Prop where
  | tree {e : Expr} {k : Nat} (gives : p.CallGives (some e) k [])
  | error {err : ParseError} {k : Nat} (gives : p.CallGives none k [err])
      (inside : ∀ t ∈ err.found,
        ∃ i, p.current ≤ i ∧ i < p.parse.2.current ∧ p.tokens[i]? = some t)

/-- The parser after a number of parse calls. -/
def afterCalls (p : Parser) : Nat → Parser
  | 0 => p
  | n + 1 => p.parse.2.afterCalls n

/-- The first `n` parse calls read the tokens from the cursor on to their end. Every one of these tokens
is passed by one of the calls, and every call contributes a tree or an error. -/
structure Covers (p : Parser) (n : Nat) : Prop where
  bound : n ≤ p.tokens.length - p.current
  unfinished : ∀ m < n, (p.afterCalls m).current < p.tokens.length
  finished : (p.afterCalls n).current = p.tokens.length
  once : ∀ i, p.current ≤ i → i < p.tokens.length →
    ∃! m, m < n ∧ (p.afterCalls m).current ≤ i ∧ i < (p.afterCalls (m + 1)).current
  contributes : ∀ m < n, (p.afterCalls m).Contributes

variable {p : Parser} {f : Failure} {w us : List Token}

/-! ## One call -/

/-- A failing call moves on: if nothing is left to discard, it has read what there was. -/
theorem error_progress (h : p.current < p.tokens.length) (hw : p.rest = w ++ f.rest) :
    0 < w.length + discarded f.rest := by
  have hlen := length_eq_of_rest (Nat.le_of_lt h) hw
  cases hf : f.rest with
  | nil =>
    rw [hf] at hlen
    simp only [List.length_nil] at hlen
    omega
  | cons t us =>
    simp only [discarded]
    omega

/-- A call passes tokens that are left, and at least one if there is one. -/
theorem call_passes (hc : p.current ≤ p.tokens.length) :
    ∃ tree k errs, p.CallGives tree k errs ∧ p.current + k ≤ p.tokens.length ∧
      (p.current < p.tokens.length → 0 < k) := by
  rcases p.call_cases with ⟨e, w, us, hw, hne, hr⟩ | ⟨f, w, hw, hr⟩
  · have hlen := length_eq_of_rest hc hw
    exact ⟨_, _, _, callGives_of_ok hc hw hr, by omega, fun _ => List.length_pos_iff.2 hne⟩
  · have hlen := length_eq_of_rest hc hw
    have hle := discarded_le f.rest
    exact ⟨_, _, _, callGives_of_error hc hw hr, by omega, fun h => error_progress h hw⟩

/-- One call moves the cursor forward, and not beyond the last token. -/
theorem call_progress (h : p.current < p.tokens.length) :
    p.current < p.parse.2.current ∧ p.parse.2.current ≤ p.tokens.length := by
  obtain ⟨tree, k, errs, hgives, hle, hpos⟩ := call_passes (Nat.le_of_lt h)
  have hk := hpos h
  rw [hgives.cursor]
  omega

theorem getElem?_rest (p : Parser) (i : Nat) : p.tokens[p.current + i]? = p.rest[i]? := by
  rw [rest, List.getElem?_drop]

/-- The token of an error lies in what the failing call passes. -/
theorem found_inside (hc : p.current ≤ p.tokens.length) (hw : p.rest = w ++ f.rest)
    (hr : Reads p.endLine (.rule .expression) 0 p.rest (.error f)) {t : Token}
    (ht : t ∈ f.error.found) : ∃ i, p.current ≤ i ∧ i < p.parse.2.current ∧ p.tokens[i]? = some t := by
  obtain ⟨m, -, hrep⟩ := ends_of_reads hr hw
  rw [(callGives_of_error hc hw hr).cursor]
  rcases found_of_reports hrep with hf | ⟨v, u, rfl, hf⟩
  · rw [hf] at ht
    refine ⟨p.current + w.length, Nat.le_add_right _ _, ?_, ?_⟩
    · cases hrest : f.rest with
      | nil =>
        rw [hrest] at ht
        cases ht
      | cons u us =>
        simp only [discarded]
        omega
    · rw [getElem?_rest, hw, List.getElem?_append_right (Nat.le_refl _), Nat.sub_self,
        ← List.head?_eq_getElem?]
      exact ht
  · rw [hf] at ht
    cases ht
    refine ⟨p.current + v.length, Nat.le_add_right _ _, ?_, ?_⟩
    · simp only [List.length_append, List.length_singleton]
      omega
    · rw [getElem?_rest, hw]
      simp

theorem call_contributes (h : p.current < p.tokens.length) : p.Contributes := by
  have hc := Nat.le_of_lt h
  rcases p.call_cases with ⟨e, w, us, hw, -, hr⟩ | ⟨f, w, hw, hr⟩
  · exact .tree (callGives_of_ok hc hw hr)
  · exact .error (callGives_of_error hc hw hr) fun t ht => found_inside hc hw hr ht

/-! ## Calls one after another -/

theorem covers_zero (h : p.current = p.tokens.length) : p.Covers 0 := by
  constructor
  · exact Nat.zero_le _
  · intro m hm
    exact absurd hm (Nat.not_lt_zero m)
  · exact h
  · intro i hi hlt
    omega
  · intro m hm
    exact absurd hm (Nat.not_lt_zero m)

theorem length_tokens_parse (hc : p.current ≤ p.tokens.length) :
    p.parse.2.tokens.length = p.tokens.length := by
  obtain ⟨tree, k, errs, hgives, -⟩ := call_passes hc
  rw [hgives.tokens]

/-- The cursor never moves back, and never beyond the last token. -/
theorem current_afterCalls (hc : p.current ≤ p.tokens.length) (m : Nat) :
    p.current ≤ (p.afterCalls m).current ∧ (p.afterCalls m).current ≤ p.tokens.length := by
  induction m generalizing p with
  | zero => exact ⟨Nat.le_refl _, hc⟩
  | succ m ih =>
    obtain ⟨tree, k, errs, hgives, hle, -⟩ := call_passes hc
    have hcur := hgives.cursor
    have hlen := length_tokens_parse hc
    have hrest := ih (p := p.parse.2) (by omega)
    simp only [afterCalls]
    omega

/-- A first call, and the calls that read what it leaves. -/
theorem covers_succ {n : Nat} (h : p.current < p.tokens.length) (hn : p.parse.2.Covers n) :
    p.Covers (n + 1) := by
  obtain ⟨hlt, hle⟩ := call_progress h
  have hlen := length_tokens_parse (Nat.le_of_lt h)
  have hbound := hn.bound
  constructor
  · omega
  · intro m hm
    cases m with
    | zero => exact h
    | succ m => exact hlen ▸ hn.unfinished m (Nat.lt_of_succ_lt_succ hm)
  · exact hlen ▸ hn.finished
  · intro i hi hi'
    by_cases hfirst : i < p.parse.2.current
    · -- later calls begin behind what the first one passes
      refine ⟨0, ⟨Nat.zero_lt_succ n, hi, hfirst⟩, ?_⟩
      rintro m ⟨-, hm, -⟩
      cases m with
      | zero => rfl
      | succ m =>
        have hge := (current_afterCalls (p := p.parse.2) (by omega) m).1
        simp only [afterCalls] at hm
        omega
    · obtain ⟨m, ⟨hm, hin⟩, hunique⟩ := hn.once i (by omega) (by omega)
      refine ⟨m + 1, ⟨Nat.succ_lt_succ hm, hin⟩, ?_⟩
      rintro m' ⟨hm', hge, hlt'⟩
      cases m' with
      | zero => exact absurd hlt' hfirst
      | succ m' => rw [hunique m' ⟨Nat.lt_of_succ_lt_succ hm', hge, hlt'⟩]
  · intro m hm
    cases m with
    | zero => exact call_contributes h
    | succ m => exact hn.contributes m (Nat.lt_of_succ_lt_succ hm)

theorem exists_covers (hc : p.current ≤ p.tokens.length) : ∃ n, p.Covers n := by
  generalize hd : p.tokens.length - p.current = left
  induction left using Nat.strongRecOn generalizing p with
  | ind left ih =>
    by_cases h : p.current < p.tokens.length
    · obtain ⟨hlt, hle⟩ := call_progress h
      have hlen := length_tokens_parse hc
      obtain ⟨n, hn⟩ := ih _ (by omega) (p := p.parse.2) (by omega) rfl
      exact ⟨n + 1, covers_succ h hn⟩
    · exact ⟨0, covers_zero (by omega)⟩

/-- **Repeated parsing makes progress and passes every token once.** One parse call moves the cursor
forward and not beyond the last token. So calls that are made while tokens are left come to an end after
at most as many calls as there were tokens; each token is passed by one of them, and each call gives one
tree or records one error, at a token that it passes or at the end. -/
theorem calls_cover (p : Parser) (h : p.current < p.tokens.length) :
    (p.current < p.parse.2.current ∧ p.parse.2.current ≤ p.tokens.length) ∧ ∃ n, p.Covers n :=
  ⟨call_progress h, exists_covers (Nat.le_of_lt h)⟩

/-- Three of five tokens, an end of input among them, at a depth left over. -/
theorem end_among_the_rest :
    let semicolon : Token := { kind := .semicolon, lexeme := ";", line := 1 }
    let stop : Token := { kind := .endOfInput, lexeme := "", line := 1 }
    let opening : Token := { kind := .leftParen, lexeme := "(", line := 2 }
    let p : Parser :=
      { tokens := [opening, semicolon, opening, stop, semicolon], current := 2, depth := 101 }
    p.current < p.tokens.length ∧ p.current < p.parse.2.current ∧ ∃ n, p.Covers n := by
  intro semicolon stop opening p
  have h : p.current < p.tokens.length := by decide
  have hcover := calls_cover p h
  exact ⟨h, hcover.1.1, hcover.2⟩

end Parser

end Trellis
