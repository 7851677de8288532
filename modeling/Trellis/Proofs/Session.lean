import Trellis.Parse.Session
import Trellis.Proofs.Reading
import Trellis.Proofs.Sink

/-!
# The parser's steps in terms of reading

What a rule and a whole parse do to a parser, once it is known what there is to read from the cursor
on. Recovery moves the cursor and reports nothing.
-/

namespace Trellis

namespace Parser

variable {p : Parser} {r : Rule} {e : Expr} {us : List Token} {f : Failure}

theorem length_rest (p : Parser) : p.rest.length = p.tokens.length - p.current := by
  simp [rest]

theorem runRule_of_ok (h : Reads p.endLine (.rule r) p.depth p.rest (.ok (e, us))) :
    p.runRule r = (.ok e, { p with current := p.tokens.length - us.length }) := by
  have ho := reads_iff.1 h
  unfold runRule
  split <;> rename_i heq <;> rw [heq] at ho <;> cases ho
  rfl

theorem runRule_of_error (h : Reads p.endLine (.rule r) p.depth p.rest (.error f)) :
    p.runRule r = (.error f.error,
      { p with current := p.tokens.length - f.rest.length, depth := f.depth }.reportError f.error) := by
  have ho := reads_iff.1 h
  unfold runRule
  split <;> rename_i heq <;> rw [heq] at ho <;> cases ho
  rfl

/-- Every rule reads something or fails. -/
theorem reads_cases (p : Parser) (r : Rule) :
    (∃ e us, Reads p.endLine (.rule r) p.depth p.rest (.ok (e, us))) ∨
      ∃ f, Reads p.endLine (.rule r) p.depth p.rest (.error f) := by
  have h := reads_parse p.endLine r p.depth p.rest
  cases ho : Outcome.ofParsed (r.parse p.endLine p.depth p.rest) with
  | error f => exact Or.inr ⟨f, ho ▸ h⟩
  | ok found => exact Or.inl ⟨found.1, found.2, ho ▸ h⟩

/-- A parse reads an expression at depth zero or fails. -/
theorem parse_cases (p : Parser) :
    (∃ e us, Reads p.endLine (.rule .expression) 0 p.rest (.ok (e, us))) ∨
      ∃ f, Reads p.endLine (.rule .expression) 0 p.rest (.error f) :=
  ({ p with depth := 0 } : Parser).reads_cases .expression

theorem parse_of_ok (h : Reads p.endLine (.rule .expression) 0 p.rest (.ok (e, us))) :
    p.parse = (some e, { p with current := p.tokens.length - us.length, depth := 0 }) := by
  have hr := runRule_of_ok (p := { p with depth := 0 }) h
  unfold parse
  rw [hr]

@[simp] theorem sink_synchronize (p : Parser) : p.synchronize.sink = p.sink := by
  unfold synchronize
  split <;> rfl

theorem parse_of_error (h : Reads p.endLine (.rule .expression) 0 p.rest (.error f)) :
    p.parse.1 = none ∧
      p.parse.2.sink.diagnostics = p.sink.diagnostics ++ [f.error.diagnostic] := by
  have hr := runRule_of_error (p := { p with depth := 0 }) h
  unfold parse
  rw [hr]
  simp [reportError]

end Parser

/-- Tokens that read as an expression are parsed to it, and nothing is reported. -/
theorem parseTokens_of_reads {ts us : List Token} {e : Expr}
    (h : ∀ endLine, Reads endLine (.rule .expression) 0 ts (.ok (e, us))) (sink : Sink) :
    parseTokens ts sink = (some e, sink) := by
  have hp := Parser.parse_of_ok (p := { tokens := ts, sink }) (h _)
  unfold parseTokens
  rw [hp]

end Trellis
