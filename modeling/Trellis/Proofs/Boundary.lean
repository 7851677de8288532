import Mathlib.Order.Bounds.Defs
import Trellis.Proofs.WalkReading

/-!
# Where recovery stops

Recovery discards one token in any case, and then goes on to the first boundary: the end of the tokens, an
end of input, the place behind a semicolon or the place before a word that begins a statement. It looks at
the token before the cursor and at the next one in turn, but no order of the two lets it pass a boundary.

* `Boundary`: the places where recovery may stop;
* `isLeast_countToBoundary`: from a token on, it stops at the first of these behind the token;
* `synchronize_first_boundary`: **recovery stops at the first boundary, and nowhere else**.
-/

namespace Trellis

/-- A place behind so many tokens where recovery may stop. -/
inductive Boundary (ts : List Token) : Nat → Prop
  | listEnd : Boundary ts ts.length
  | endOfInput {j : Nat} {t : Token} (next : ts[j]? = some t) (kind : t.kind = .endOfInput) :
      Boundary ts j
  | semicolon {j : Nat} {t : Token} (last : ts[j]? = some t) (kind : t.kind = .semicolon) :
      Boundary ts (j + 1)
  | statement {j : Nat} {t : Token} (next : ts[j]? = some t)
      (kind : t.kind ∈
        [.kwClass, .kwFun, .kwVar, .kwFor, .kwIf, .kwWhile, .kwPrint, .kwReturn]) : Boundary ts j

variable {t u : Token} {ts us : List Token} {j k : Nat} {p : Parser}

/-! ## Boundaries behind a token -/

/-- What is asked at a place behind a token: of the next token twice, and of the last one once. -/
theorem boundary_succ : Boundary ts (j + 1) ↔
    j + 1 = ts.length ∨ (∃ t ∈ ts[j + 1]?, t.kind = .endOfInput) ∨
      (∃ t ∈ ts[j]?, t.kind ∈ statementEnds) ∨ ∃ t ∈ ts[j + 1]?, t.kind ∈ statementStarts := by
  constructor
  · generalize hi : j + 1 = i
    intro h
    cases h with
    | listEnd => exact .inl rfl
    | endOfInput next kind => exact .inr (.inl ⟨_, next, kind⟩)
    | semicolon last kind =>
      obtain rfl := Nat.succ.inj hi
      exact .inr (.inr (.inl ⟨_, last, List.mem_singleton.2 kind⟩))
    | statement next kind => exact .inr (.inr (.inr ⟨_, next, kind⟩))
  · rintro (hend | ⟨t, next, kind⟩ | ⟨t, last, kind⟩ | ⟨t, next, kind⟩)
    · exact hend ▸ .listEnd
    · exact .endOfInput next kind
    · exact .semicolon last (List.mem_singleton.1 kind)
    · exact .statement next kind

/-- Behind the second token, boundaries do not depend on the first. -/
theorem boundary_cons : Boundary (t :: us) (j + 2) ↔ Boundary us (j + 1) := by
  rw [boundary_succ, boundary_succ]
  simp only [List.length_cons, List.getElem?_cons_succ, Nat.add_right_cancel_iff]

/-- The place behind the first of several tokens. -/
theorem boundary_behind_first : Boundary (t :: u :: us) 1 ↔
    u.kind = .endOfInput ∨ t.kind ∈ statementEnds ∨ u.kind ∈ statementStarts := by
  rw [boundary_succ]
  simp

/-- Behind the tokens that are dropped, boundaries do not depend on them. -/
theorem boundary_drop {i : Nat} (hi : i ≤ ts.length) :
    Boundary (ts.drop i) (j + 1) ↔ Boundary ts (i + (j + 1)) := by
  induction i generalizing ts with
  | zero => rw [List.drop_zero, Nat.zero_add]
  | succ i ih =>
    cases ts with
    | nil => exact absurd hi (Nat.not_succ_le_zero i)
    | cons t us =>
      have hplace : i + 1 + (j + 1) = i + j + 2 := by omega
      rw [List.drop_succ_cons, ih (Nat.le_of_succ_le_succ hi), hplace, boundary_cons, Nat.add_assoc]

/-- Behind the token `t`, the first boundary is where the count ends. -/
theorem isLeast_countToBoundary (t : Token) (us : List Token) :
    IsLeast {j | 0 < j ∧ Boundary (t :: us) j} (countToBoundary t us + 1) := by
  induction us generalizing t with
  | nil =>
    refine ⟨⟨Nat.zero_lt_one, .listEnd⟩, ?_⟩
    rintro j ⟨hpos, -⟩
    exact hpos
  | cons u us ih =>
    obtain ⟨⟨-, hstop⟩, hleast⟩ := ih u
    rw [countToBoundary]
    by_cases hfirst : u.kind = .endOfInput ∨ t.kind ∈ statementEnds ∨ u.kind ∈ statementStarts
    · rw [if_pos hfirst]
      refine ⟨⟨Nat.zero_lt_one, boundary_behind_first.2 hfirst⟩, ?_⟩
      rintro j ⟨hpos, -⟩
      exact hpos
    · rw [if_neg hfirst]
      refine ⟨⟨Nat.succ_pos _, boundary_cons.2 hstop⟩, ?_⟩
      rintro j ⟨hpos, hj⟩
      match j with
      | 0 => exact absurd hpos (Nat.lt_irrefl 0)
      | 1 => exact absurd (boundary_behind_first.1 hj) hfirst
      | j + 2 => exact Nat.succ_le_succ (hleast ⟨Nat.succ_pos j, boundary_cons.1 hj⟩)

/-! ## Recovery -/

/-- While tokens are left, recovery stops at the first boundary behind the next one. -/
theorem isLeast_synchronize (h : p.current < p.tokens.length) :
    IsLeast {j | p.current < j ∧ Boundary p.tokens j} p.synchronize.current := by
  have hle := Nat.le_of_lt h
  have hcur : p.synchronize.current = p.current + discarded p.rest := by rw [Parser.synchronize_eq]
  obtain ⟨t, us, hrest⟩ : ∃ t us, p.rest = t :: us := by
    apply List.exists_cons_of_length_pos
    rw [Parser.length_rest]
    omega
  obtain ⟨⟨-, hstop⟩, hleast⟩ := isLeast_countToBoundary t us
  rw [← hrest] at hstop hleast
  rw [hcur, hrest, discarded]
  refine ⟨⟨by omega, (boundary_drop hle).1 hstop⟩, ?_⟩
  rintro j ⟨hlt, hj⟩
  obtain ⟨k, rfl⟩ : ∃ k, j = p.current + (k + 1) := ⟨j - p.current - 1, by omega⟩
  exact Nat.add_le_add_left (hleast ⟨Nat.succ_pos k, (boundary_drop hle).2 hj⟩) _

/-- Recovery changes nothing but the cursor. -/
theorem synchronize_cursor (p : Parser) :
    p.synchronize = { p with current := p.synchronize.current } := by
  rw [Parser.synchronize_eq]

theorem synchronize_at_end (h : p.current = p.tokens.length) :
    p.synchronize.current = p.tokens.length := by
  have hle := discarded_le p.rest
  rw [Parser.length_rest] at hle
  rw [Parser.synchronize_eq]
  simp only
  omega

/-- A token that recovery discards is no semicolon unless it is the last one discarded, and but for the
first of them it neither ends the input nor begins a statement. -/
theorem discarded_token (hle : p.current ≤ k) (hk : k < p.synchronize.current)
    (ht : p.tokens[k]? = some t) :
    (t.kind = .semicolon → k + 1 = p.synchronize.current) ∧
      (p.current < k → t.kind ≠ .endOfInput ∧ t.kind ∉ statementStarts) := by
  have hlen : k < p.tokens.length := (List.getElem?_eq_some_iff.1 ht).1
  obtain ⟨-, hleast⟩ := isLeast_synchronize (Nat.lt_of_le_of_lt hle hlen)
  have hbehind : ∀ j, p.current < j → Boundary p.tokens j → p.synchronize.current ≤ j :=
    fun j hlt hj => hleast ⟨hlt, hj⟩
  refine ⟨?_, fun hlt => ⟨?_, ?_⟩⟩
  · intro kind
    exact Nat.le_antisymm hk (hbehind _ (Nat.lt_succ_of_le hle) (.semicolon ht kind))
  · intro kind
    exact absurd (hbehind k hlt (.endOfInput ht kind)) (Nat.not_le.2 hk)
  · intro kind
    exact absurd (hbehind k hlt (.statement ht kind)) (Nat.not_le.2 hk)

/-- **Recovery stops at the first boundary, and nowhere else.** Carried out in steps of the cursor it never
misuses the cursor, and it moves nothing but the cursor: not at all behind the last token, and otherwise to
the first boundary behind the next one. So apart from the token that it discards in any case, it discards
neither an end of input nor the beginning of a statement, and it never passes a semicolon. -/
theorem synchronize_first_boundary (hc : p.current ≤ p.tokens.length) :
    ∃ j, Walk.synchronize p = some (.ok (), { p with current := j }) ∧
      p.synchronize = { p with current := j } ∧
      (p.current = p.tokens.length → j = p.tokens.length) ∧
      (p.current < p.tokens.length → IsLeast {j | p.current < j ∧ Boundary p.tokens j} j) ∧
      ∀ k t, p.current ≤ k → k < j → p.tokens[k]? = some t →
        (t.kind = .semicolon → k + 1 = j) ∧
        (p.current < k → t.kind ≠ .endOfInput ∧ t.kind ∉ statementStarts) := by
  have hcursor := synchronize_cursor p
  have hwalk := Walk.synchronize_eq hc
  rw [hcursor] at hwalk
  exact ⟨p.synchronize.current, hwalk, hcursor, synchronize_at_end, isLeast_synchronize,
    fun k t hle hk ht => discarded_token hle hk ht⟩

/-- A semicolon is discarded, and a word behind it that begins a statement is not; the same word is, where
it is the next token. -/
theorem word_behind_semicolon :
    let word : Token := { kind := .kwPrint, lexeme := "print", line := 1 }
    let one : Token := { kind := .number, lexeme := "1", literal := .number .one, line := 1 }
    let semicolon : Token := { kind := .semicolon, lexeme := ";", line := 1 }
    let p : Parser := { tokens := [word, one, semicolon, word, one], depth := 7 }
    p.current ≤ p.tokens.length ∧
      Walk.synchronize p = some (.ok (), { p with current := 3 }) ∧
      IsLeast {j | 0 < j ∧ Boundary p.tokens j} 3 := by
  intro word one semicolon p
  have hc : p.current ≤ p.tokens.length := Nat.zero_le _
  obtain ⟨j, hwalk, hcursor, -, hleast, -⟩ := synchronize_first_boundary hc
  have hplace : p.synchronize.current = 3 := by decide
  obtain rfl : 3 = j := by rw [← hplace, hcursor]
  exact ⟨hc, hwalk, hleast (by decide)⟩

end Trellis
