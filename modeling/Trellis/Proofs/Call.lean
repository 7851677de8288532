import Trellis.Proofs.Extension
import Trellis.Proofs.Session

/-!
# One parse call

What a single parse call does, told from what there is to read from the cursor on. A call that reads a
tree passes its tokens. A call that fails passes the tokens before the error and those that recovery
discards; it records and reports one error.

* `Parser.CallGives`: the tree, the number of tokens passed and the errors of one call;
* `callGives_of_ok`, `callGives_of_error`: the two ways in which a call ends;
* `callGives_of_rest`: a call depends on the tokens that are left.
-/

namespace Trellis

/-- How many tokens recovery discards: the next one, and those after it up to a statement boundary. -/
def discarded : List Token → Nat
  | [] => 0
  | t :: rest => countToBoundary t rest + 1

theorem countToBoundary_le (t : Token) (rest : List Token) : countToBoundary t rest ≤ rest.length := by
  induction rest generalizing t with
  | nil => exact Nat.le_refl _
  | cons u rest ih =>
    unfold countToBoundary
    split
    · exact Nat.zero_le _
    · exact Nat.succ_le_succ (ih u)

theorem discarded_le (rest : List Token) : discarded rest ≤ rest.length := by
  cases rest with
  | nil => exact Nat.le_refl _
  | cons t rest => exact Nat.succ_le_succ (countToBoundary_le t rest)

namespace Parser

/-- A parse call gives a tree or none, passes `k` tokens, and records and reports the errors. -/
structure CallGives (p : Parser) (tree : Option Expr) (k : Nat) (errs : List ParseError) : Prop where
  tree : p.parse.1 = tree
  tokens : p.parse.2.tokens = p.tokens
  cursor : p.parse.2.current = p.current + k
  recorded : p.parse.2.errors = p.errors ++ errs
  reported : p.parse.2.sink.diagnostics = p.sink.diagnostics ++ errs.map ParseError.diagnostic

/-- The tokens that the next parse call passes. -/
def passed (p : Parser) : List Token := p.rest.take (p.parse.2.current - p.current)

variable {p q : Parser} {e : Expr} {f : Failure} {w us : List Token}

theorem CallGives.passed {tree : Option Expr} {k : Nat} {errs : List ParseError}
    (h : p.CallGives tree k errs) : p.passed = p.rest.take k := by
  rw [Parser.passed, h.cursor, Nat.add_sub_cancel_left]

theorem CallGives.rest {tree : Option Expr} {k : Nat} {errs : List ParseError}
    (h : p.CallGives tree k errs) : p.parse.2.rest = p.rest.drop k := by
  rw [Parser.rest, Parser.rest, h.tokens, h.cursor, List.drop_drop]

theorem synchronize_eq (p : Parser) :
    p.synchronize = { p with current := p.current + discarded p.rest } := by
  unfold synchronize
  split <;> rename_i h
  · simp [h, discarded]
  · simp only [h, discarded]
    congr 1
    omega

theorem length_eq_of_rest (hc : p.current ≤ p.tokens.length) (h : p.rest = w ++ us) :
    p.tokens.length = p.current + w.length + us.length := by
  have hlen := p.length_rest
  rw [h, List.length_append] at hlen
  omega

theorem drop_of_rest (h : p.rest = w ++ us) : p.tokens.drop (p.current + w.length) = us := by
  rw [← List.drop_drop]
  change p.rest.drop w.length = us
  rw [h, List.drop_left]

theorem callGives_of_ok (hc : p.current ≤ p.tokens.length) (h : p.rest = w ++ us)
    (hr : Reads p.endLine (.rule .expression) 0 p.rest (.ok (e, us))) :
    p.CallGives (some e) w.length [] := by
  have hlen := length_eq_of_rest hc h
  have hp := parse_of_ok hr
  constructor
  · rw [hp]
  · rw [hp]
  · rw [hp]
    simp only
    omega
  · simp [hp]
  · simp [hp]

theorem parse_error_eq (hc : p.current ≤ p.tokens.length) (h : p.rest = w ++ f.rest)
    (hr : Reads p.endLine (.rule .expression) 0 p.rest (.error f)) :
    p.parse = (none,
      { p with
        current := p.current + (w.length + discarded f.rest)
        depth := f.depth
        errors := p.errors ++ [f.error]
        sink := (p.sink.add f.error.diagnostic).trace "crumble.parser.parser"
          ("parse failed: " ++ f.error.diagnostic.headline) }) := by
  have hlen := length_eq_of_rest hc h
  have hrun := runRule_of_error (p := { p with depth := 0 }) hr
  have hcur : p.tokens.length - f.rest.length = p.current + w.length := by omega
  unfold parse
  rw [hrun, hcur]
  simp only [reportError, synchronize_eq, rest, drop_of_rest h, Nat.add_assoc]

theorem callGives_of_error (hc : p.current ≤ p.tokens.length) (h : p.rest = w ++ f.rest)
    (hr : Reads p.endLine (.rule .expression) 0 p.rest (.error f)) :
    p.CallGives none (w.length + discarded f.rest) [f.error] := by
  have hp := parse_error_eq hc h hr
  constructor <;> simp [hp]

/-- A call reads an expression or fails; either way it has passed the tokens before some place. -/
theorem call_cases (p : Parser) :
    (∃ e w us, p.rest = w ++ us ∧ w ≠ [] ∧
      Reads p.endLine (.rule .expression) 0 p.rest (.ok (e, us))) ∨
    ∃ f w, p.rest = w ++ f.rest ∧ Reads p.endLine (.rule .expression) 0 p.rest (.error f) := by
  rcases p.parse_cases with ⟨e, us, hr⟩ | ⟨f, hr⟩
  · obtain ⟨w, hw, hd, -⟩ := reads_ok_iff.1 hr
    exact .inl ⟨e, w, us, hw, derives_ne_nil hd, hr⟩
  · obtain ⟨w, hw, -⟩ := extends_of_reads_error hr
    exact .inr ⟨f, w, hw, hr⟩

theorem current_lt_of_rest_ne_nil (h : p.rest ≠ []) : p.current < p.tokens.length := by
  have hpos := List.length_pos_iff.2 h
  rw [length_rest] at hpos
  omega

/-- While tokens are left, the line for errors past them is that of the last one left. -/
theorem endLine_of_rest_ne_nil (h : p.rest ≠ []) :
    p.endLine = (p.rest.getLast?.map (·.line)).getD 1 := by
  have hlast : p.rest.getLast? = p.tokens.getLast? := by
    simp [rest, List.getLast?_drop, Nat.not_le.2 (current_lt_of_rest_ne_nil h)]
  rw [endLine, hlast]

/-- Two parsers that have the same tokens left, and at least one, do the same in their next call. -/
theorem callGives_of_rest (hrest : p.rest = q.rest) (hne : q.rest ≠ []) :
    ∃ tree k errs, p.CallGives tree k errs ∧ q.CallGives tree k errs := by
  have hp := Nat.le_of_lt (current_lt_of_rest_ne_nil (hrest ▸ hne))
  have hq := Nat.le_of_lt (current_lt_of_rest_ne_nil hne)
  have hend : p.endLine = q.endLine := by
    rw [endLine_of_rest_ne_nil (hrest ▸ hne), endLine_of_rest_ne_nil hne, hrest]
  rcases p.call_cases with ⟨e, w, us, hw, -, hr⟩ | ⟨f, w, hw, hr⟩
  · have hr' : Reads q.endLine (.rule .expression) 0 q.rest (.ok (e, us)) := hrest ▸ hend ▸ hr
    exact ⟨_, _, _, callGives_of_ok hp hw hr, callGives_of_ok hq (hrest ▸ hw) hr'⟩
  · have hr' : Reads q.endLine (.rule .expression) 0 q.rest (.error f) := hrest ▸ hend ▸ hr
    exact ⟨_, _, _, callGives_of_error hp hw hr, callGives_of_error hq (hrest ▸ hw) hr'⟩

/-- A tree is derived by the tokens that the call passes, and fits below the nesting limit. -/
theorem derives_passed (h : p.parse.1 = some e) :
    Derives .expression p.passed e ∧ e.nesting ≤ maxNestingDepth := by
  rcases p.parse_cases with ⟨e', us, hr⟩ | ⟨f, hr⟩
  · rw [parse_of_ok hr] at h
    cases h
    obtain ⟨w, hw, hd, -, hfit⟩ := reads_ok_iff.1 hr
    have hne : p.rest ≠ [] := by simp [hw, derives_ne_nil hd]
    have hc := Nat.le_of_lt (current_lt_of_rest_ne_nil hne)
    have hle := Expr.fits_le hfit
    rw [(callGives_of_ok hc hw hr).passed, hw, List.take_left]
    exact ⟨hd, by omega⟩
  · rw [(parse_of_error hr).1] at h
    cases h

end Parser

end Trellis
