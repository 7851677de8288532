import Trellis.Proofs.Call

/-!
# What a parse call depends on

A parse call looks at nothing but the tokens that are left: not at those before the cursor, at the depth
that failed rules left behind, at errors recorded earlier or at the sink.

* `CallGives.length_errors`: a call records one error exactly if it gives no tree;
* `callGives_of_rest_eq_nil`: what a call does where no token is left;
* `parse_remaining`: **a parse call depends only on what is left to read**.
-/

namespace Trellis.Parser

variable {p : Parser} {tree : Option Expr} {k : Nat} {errs : List ParseError}

/-- What a call gives, passes and records is told by the parser. -/
theorem CallGives.unique {tree' : Option Expr} {k' : Nat} {errs' : List ParseError}
    (h : p.CallGives tree k errs) (h' : p.CallGives tree' k' errs') :
    tree = tree' ∧ k = k' ∧ errs = errs' := by
  refine ⟨h.tree.symm.trans h'.tree, ?_, ?_⟩
  · exact Nat.add_left_cancel (h.cursor.symm.trans h'.cursor)
  · exact List.append_cancel_left (h.recorded.symm.trans h'.recorded)

/-- A call records one error exactly if it gives no tree. -/
theorem CallGives.length_errors (hc : p.current ≤ p.tokens.length) (h : p.CallGives tree k errs) :
    errs.length = if tree.isSome then 0 else 1 := by
  rcases p.call_cases with ⟨e, w, us, hw, -, hr⟩ | ⟨f, w, hw, hr⟩
  · obtain ⟨rfl, -, rfl⟩ := h.unique (callGives_of_ok hc hw hr)
    rfl
  · obtain ⟨rfl, -, rfl⟩ := h.unique (callGives_of_error hc hw hr)
    rfl

/-- Where no token is left, an operand is missing at the end. -/
theorem callGives_of_rest_eq_nil (hc : p.current ≤ p.tokens.length) (h : p.rest = []) :
    p.CallGives none 0 [⟨.operandExpected, none, p.endLine⟩] := by
  let f := Rule.failAt .operandExpected p.endLine 0 []
  have operand : Reads p.endLine (.rule .unary) 0 p.rest (.error f) := by
    rw [h]
    exact .primary (by simp) (.operandExpected (by simp))
  have hfails := Reads.expression (.leftFails (.leftFails (.leftFails (.leftFails operand))))
  exact callGives_of_error (w := []) (f := f) hc h hfails

/-- **A parse call depends only on what is left to read.** With tokens left, it gives the tree, passes
the tokens and adds the errors that the first call of a new parser over these tokens does, and at most
one error; what was recorded and reported before stays. With no token left, it reports that an operand
is missing, at the line of the last token or else the first, and moves nowhere. -/
theorem parse_remaining (p : Parser) :
    (p.current < p.tokens.length → ∀ sink : Sink, ∃ tree k errs, p.CallGives tree k errs ∧
      Parser.CallGives { tokens := p.tokens.drop p.current, sink } tree k errs ∧
      errs.length = if tree.isSome then 0 else 1) ∧
    (p.current = p.tokens.length → ∃ err, p.CallGives none 0 [err] ∧ err.fault.code = "P005" ∧
      err.diagnostic.line = (p.tokens.getLast?.map (·.line)).getD 1) := by
  constructor
  · intro h sink
    have hne : p.tokens.drop p.current ≠ [] := by simpa using h
    obtain ⟨tree, k, errs, hgives, hfresh⟩ :=
      callGives_of_rest (p := p) (q := { tokens := p.tokens.drop p.current, sink }) rfl hne
    exact ⟨tree, k, errs, hgives, hfresh, hgives.length_errors (Nat.le_of_lt h)⟩
  · intro h
    have hrest : p.rest = [] := by simp [rest, h]
    exact ⟨_, callGives_of_rest_eq_nil (Nat.le_of_eq h) hrest, rfl, rfl⟩

/-- Behind a failed call, with one token left and with none. -/
theorem one_token_left :
    let closing : Token := { kind := .rightParen, lexeme := ")", line := 4 }
    let one : Token := { kind := .number, lexeme := "1", literal := .number .one, line := 5 }
    let err : ParseError := ⟨.operandExpected, some closing, 4⟩
    let p : Parser :=
      { tokens := [closing, one], current := 1, depth := 101, errors := [err]
        sink := ({} : Sink).add err.diagnostic }
    let q := p.setCurrent 2
    p.current < p.tokens.length ∧ q.current = q.tokens.length ∧
      (∃ tree k errs, p.CallGives tree k errs ∧ Parser.CallGives { tokens := [one] } tree k errs) ∧
      ∃ err', q.CallGives none 0 [err'] ∧ err'.diagnostic.line = 5 := by
  intro closing one err p q
  have hp : p.current < p.tokens.length := by decide
  have hq : q.current = q.tokens.length := by decide
  obtain ⟨tree, k, errs, hgives, hfresh, -⟩ := (parse_remaining p).1 hp {}
  obtain ⟨err', hend, -, hline⟩ := (parse_remaining q).2 hq
  exact ⟨hp, hq, ⟨tree, k, errs, hgives, hfresh⟩, err', hend, hline⟩

end Trellis.Parser
