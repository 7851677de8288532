import Trellis.Proofs.Session

/-!
# What a rule accepts

A rule that runs on a parser reads from its cursor on. `runRule_accepts`: it returns a tree and moves
past some tokens exactly if it accepts them as that tree, and in every other case it fails.
-/

namespace Trellis.Parser

variable {p : Parser} {r : Rule}

/-- The next `k` tokens derive the tree, the token after them does not go on with it, and the tree's
groups and prefix operators fit below the nesting limit at the parser's depth. -/
structure Accepts (p : Parser) (r : Rule) (e : Expr) (k : Nat) : Prop where
  bound : p.current + k ≤ p.tokens.length
  derives : Derives r ((p.tokens.drop p.current).take k) e
  ends : ∀ t, p.tokens[p.current + k]? = some t → ¬ r.Continues t
  nesting : e.nesting = 0 ∨ p.depth + e.nesting ≤ maxNestingDepth

/-- A rule accepts the tokens that it reads. -/
theorem accepts_iff_reads {e : Expr} {k : Nat} :
    p.Accepts r e k ↔ p.current + k ≤ p.tokens.length ∧
      Reads p.endLine (.rule r) p.depth p.rest (.ok (e, p.rest.drop k)) := by
  have hend : (∀ t, p.tokens[p.current + k]? = some t → ¬ r.Continues t) ↔
      r.EndsBefore (p.rest.drop k) := by
    simp only [Rule.EndsBefore, rest, List.drop_drop, List.head?_drop, Option.mem_def]
  rw [reads_ok_iff]
  constructor
  · intro h
    exact ⟨h.bound, p.rest.take k, (List.take_append_drop k _).symm, h.derives, hend.1 h.ends,
      h.nesting⟩
  · rintro ⟨hb, w, hw, hd, he, hn⟩
    have hw' : w ++ p.rest.drop k = p.rest.take k ++ p.rest.drop k := by
      rw [List.take_append_drop, ← hw]
    obtain rfl := List.append_cancel_right hw'
    exact ⟨hb, hd, hend.2 he, hn⟩

theorem reads_of_runRule_ok {e : Expr} (h : (p.runRule r).1 = .ok e) :
    ∃ us, Reads p.endLine (.rule r) p.depth p.rest (.ok (e, us)) := by
  rcases p.reads_cases r with ⟨e', us, hr⟩ | ⟨f, hr⟩
  · rw [runRule_of_ok hr] at h
    cases h
    exact ⟨us, hr⟩
  · rw [runRule_of_error hr] at h
    cases h

theorem accepts_of_runRule_ok {e : Expr} (h : (p.runRule r).1 = .ok e) :
    ∃ k, (p.runRule r).2.current = p.current + k ∧ p.Accepts r e k := by
  obtain ⟨us, hr⟩ := reads_of_runRule_ok h
  obtain ⟨w, hw, hd, -⟩ := reads_ok_iff.1 hr
  have hlen := p.length_rest
  have hpos := List.length_pos_iff.2 (derives_ne_nil hd)
  have hsum : p.rest.length = w.length + us.length := by rw [hw, List.length_append]
  have hdrop : p.rest.drop w.length = us := by rw [hw, List.drop_left]
  refine ⟨w.length, ?_, accepts_iff_reads.2 ⟨by omega, hdrop ▸ hr⟩⟩
  rw [runRule_of_ok hr]
  simp only
  omega

theorem runRule_of_accepts {e : Expr} {k : Nat} (h : p.Accepts r e k) :
    (p.runRule r).1 = .ok e ∧ (p.runRule r).2.current = p.current + k := by
  obtain ⟨hb, hr⟩ := accepts_iff_reads.1 h
  have hlen := p.length_rest
  rw [runRule_of_ok hr]
  refine ⟨rfl, ?_⟩
  simp only [List.length_drop]
  omega

/-- **The rules accept exactly their grammar.** A rule returns a tree and leaves the cursor `k` tokens
further on exactly if it accepts these tokens as the tree; if it accepts no tokens as any tree, it
fails. -/
theorem runRule_accepts (p : Parser) (r : Rule) :
    (∀ e k, ((p.runRule r).1 = .ok e ∧ (p.runRule r).2.current = p.current + k) ↔
      p.Accepts r e k) ∧
    ((∀ e k, ¬ p.Accepts r e k) → ∃ err, (p.runRule r).1 = .error err) := by
  constructor
  · intro e k
    constructor
    · rintro ⟨hok, hcur⟩
      obtain ⟨k', hcur', h⟩ := accepts_of_runRule_ok hok
      obtain rfl : k = k' := by omega
      exact h
    · exact runRule_of_accepts
  · intro hno
    cases hok : (p.runRule r).1 with
    | error err => exact ⟨err, rfl⟩
    | ok e =>
      obtain ⟨k, -, h⟩ := accepts_of_runRule_ok hok
      exact absurd h (hno e k)

end Trellis.Parser
