import Trellis.CommandLine.Basic
import Trellis.Proofs.Lines
import Trellis.Proofs.Progress
import Trellis.Proofs.Sentence

/-!
# Lines at the prompt

Every line at the prompt is run as if it were the only one. What the sink has written before stands ahead
of what a run writes and has no effect on it; the rest of the sink is cleared before each line.

* `Sink.behind`, `Sink.fresh`: a sink with more lines ahead, and a sink that nothing has used yet;
* `Runner.run_behind`, `Runner.fresh_run`: what a run of a source text keeps;
* `Runner.Independent`: a session at the prompt, told by the runs of its lines with new runners;
* `Runner.prompt_independent`: **prompt lines are independent**.
-/

namespace Trellis

namespace Sink

/-- The sink with lines ahead of those that it has written. -/
def behind (s : Sink) (ahead : List Entry) : Sink := { s with entries := ahead ++ s.entries }

/-- A sink of the same kind that nothing has been reported to. -/
def fresh (s : Sink) : Sink := { silent := s.silent, stamp := s.stamp }

variable (s : Sink) (ahead : List Entry)

theorem silent_behind : (s.behind ahead).silent = s.silent := rfl

theorem stamp_behind : (s.behind ahead).stamp = s.stamp := rfl

theorem reset_eq : s.reset = s.fresh.behind s.entries := by
  simp [reset, fresh, behind]

theorem write_behind (e : Entry) : (s.behind ahead).write e = (s.write e).behind ahead := by
  simp [write, behind, List.append_assoc]

theorem trace_behind (part message : String) :
    (s.behind ahead).trace part message = (s.trace part message).behind ahead := by
  unfold trace
  rw [stamp_behind]
  split
  · rfl
  · exact s.write_behind ahead _

theorem fresh_trace (part message : String) : (s.trace part message).fresh = s.fresh := by
  unfold trace
  split <;> rfl

theorem writeHeadline_behind (d : Diagnostic) :
    (s.behind ahead).writeHeadline d = (s.writeHeadline d).behind ahead := by
  unfold writeHeadline
  rw [silent_behind, write_behind]
  split <;> rfl

theorem fresh_writeHeadline (d : Diagnostic) : (s.writeHeadline d).fresh = s.fresh := by
  unfold writeHeadline
  split <;> rfl

theorem add_behind (d : Diagnostic) : (s.behind ahead).add d = (s.add d).behind ahead := by
  rw [add, add, ← writeHeadline_behind, ← trace_behind]
  rfl

theorem fresh_add (d : Diagnostic) : (s.add d).fresh = s.fresh := by
  rw [add, fresh_writeHeadline, fresh_trace]
  rfl

theorem addAll_behind (ds : List Diagnostic) :
    (s.behind ahead).addAll ds = (s.addAll ds).behind ahead := by
  unfold addAll
  induction ds generalizing s with
  | nil => rfl
  | cons d ds ih => rw [List.foldl_cons, List.foldl_cons, add_behind, ih]

theorem fresh_addAll (ds : List Diagnostic) : (s.addAll ds).fresh = s.fresh := by
  unfold addAll
  induction ds generalizing s with
  | nil => rfl
  | cons d ds ih => rw [List.foldl_cons, ih, fresh_add]

end Sink

variable {ts : List Token} {sink : Sink}

/-! ## Scanning and parsing -/

theorem Scan.reportTo_behind (found : Scan) (sink : Sink) (ahead : List Entry) :
    found.reportTo (sink.behind ahead) = (found.reportTo sink).behind ahead := by
  rw [Scan.reportTo, Scan.reportTo, Sink.addAll_behind, Sink.trace_behind]

theorem Scan.fresh_reportTo (found : Scan) (sink : Sink) :
    (found.reportTo sink).fresh = sink.fresh := by
  rw [Scan.reportTo, Sink.fresh_trace, Sink.fresh_addAll]

theorem Scan.diagnostics_reportTo (found : Scan) (sink : Sink) :
    (found.reportTo sink).diagnostics =
      sink.diagnostics ++ found.errors.map LexicalError.diagnostic := by
  rw [Scan.reportTo, Sink.diagnostics_trace, Sink.diagnostics_addAll]

/-- What parsing tokens gives and does to any sink: a tree and nothing, or no tree and one report. -/
inductive ParsesTo (ts : List Token) : Option Expr → (Sink → Sink) → Prop
  | tree {e : Expr} : ParsesTo ts (some e) id
  | error {err : ParseError} (line : (∀ t ∈ ts, t.line = 1) → err.line = 1) :
      ParsesTo ts none fun sink => (sink.add err.diagnostic).trace "crumble.parser.parser"
        ("parse failed: " ++ err.diagnostic.headline)

/-- If all tokens are on the first line, so is the error that is found in them. -/
theorem Parser.line_of_reads {p : Parser} {f : Failure} {w : List Token}
    (hc : p.current ≤ p.tokens.length) (hw : p.rest = w ++ f.rest)
    (hr : Reads p.endLine (.rule .expression) 0 p.rest (.error f))
    (hline : ∀ t ∈ p.tokens, t.line = 1) : f.error.line = 1 := by
  obtain ⟨m, -, hrep⟩ := ends_of_reads hr hw
  have hlocated : Located p f.error := located_of_reports hrep
  cases hf : f.error.found with
  | none =>
    have hlast := hlocated.lastLine hf
    cases ht : p.tokens.getLast? with
    | none =>
      rw [ht] at hlast
      exact hlast
    | some t =>
      rw [ht] at hlast
      exact hlast.trans (hline t (List.mem_of_getLast? ht))
  | some t =>
    obtain ⟨i, -, -, hi⟩ := Parser.found_inside hc hw hr hf
    exact (hlocated.line t hf).trans (hline t (List.mem_of_getElem? hi))

/-- Parsing tokens does the same to every sink. -/
theorem parsesTo (ts : List Token) : ∃ tree report, ParsesTo ts tree report ∧
    ∀ sink, parseTokens ts sink = (tree, report sink) := by
  let p : Parser := { tokens := ts }
  rcases p.call_cases with ⟨e, w, us, hw, -, hr⟩ | ⟨f, w, hw, hr⟩
  · refine ⟨some e, id, .tree, ?_⟩
    intro sink
    have hparse := Parser.parse_of_ok (p := { tokens := ts, sink }) hr
    rw [parseTokens, hparse]
    rfl
  · refine ⟨none, _, .error (Parser.line_of_reads (Nat.zero_le _) hw hr), ?_⟩
    intro sink
    have hparse := Parser.parse_error_eq (p := { tokens := ts, sink }) (Nat.zero_le _) hw hr
    rw [parseTokens, hparse]

theorem parseTokens_behind (ts : List Token) (sink : Sink) (ahead : List Entry) :
    parseTokens ts (sink.behind ahead) =
      ((parseTokens ts sink).1, (parseTokens ts sink).2.behind ahead) := by
  obtain ⟨tree, report, hparses, hts⟩ := parsesTo ts
  rw [hts, hts]
  cases hparses with
  | tree => rfl
  | error => simp only [Sink.add_behind, Sink.trace_behind]

theorem fresh_parseTokens (ts : List Token) (sink : Sink) :
    (parseTokens ts sink).2.fresh = sink.fresh := by
  obtain ⟨tree, report, hparses, hts⟩ := parsesTo ts
  rw [hts]
  cases hparses with
  | tree => rfl
  | error => simp only [Sink.fresh_trace, Sink.fresh_add]

/-- Where no piece holds a line end, every token and every error is on the line the pieces begin on. -/
theorem Yields.lines {line : Nat} {us : List (List Char)} {es : List LexicalError}
    (h : Yields line us ts es) (hus : ∀ u ∈ us, '\n' ∉ u) :
    (∀ t ∈ ts, t.line = line) ∧ ∀ e ∈ es, e.line = line := by
  induction h with
  | done => simp [endToken]
  | token hl hr ih =>
    rw [List.forall_mem_cons, ← List.count_eq_zero] at hus
    simpa [hus.1] using ih hus.2
  | skipped hs hr ih =>
    rw [List.forall_mem_cons, ← List.count_eq_zero] at hus
    simpa [hus.1] using ih hus.2
  | stray hf hq hr ih =>
    obtain ⟨hts, hes⟩ := ih (List.forall_mem_cons.1 hus).2
    exact ⟨hts, List.forall_mem_cons.2 ⟨rfl, hes⟩⟩
  | @unclosed line body us ts es hb hr ih =>
    obtain ⟨hbody, hrest⟩ := List.forall_mem_cons.1 hus
    have hcount : line + body.count '\n' = line := by
      rw [List.count_eq_zero.2 (List.not_mem_of_not_mem_cons hbody), Nat.add_zero]
    rw [hcount] at ih ⊢
    obtain ⟨hts, hes⟩ := ih hrest
    exact ⟨hts, List.forall_mem_cons.2 ⟨rfl, hes⟩⟩

namespace Runner

/-- The runner whose sink has lines ahead of those that it has written. -/
def behind (r : Runner) (ahead : List Entry) : Runner := { r with sink := r.sink.behind ahead }

/-- A new runner that prints the same things, with a sink of the same kind. -/
def fresh (r : Runner) : Runner := { r with sink := r.sink.fresh }

section Run

variable {r : Runner} {source : String}

theorem run_of_hadError (h : ((scan source).reportTo r.sink).hadError = true) :
    r.run source = ("", { r with sink := (scan source).reportTo r.sink }) := by
  simp [run, h]

theorem run_of_showTokens (h : ((scan source).reportTo r.sink).hadError = false)
    (ht : r.showTokens = true) :
    r.run source = (String.join ((scan source).tokens.map fun t => t.listed ++ "\n"),
      { r with sink := (scan source).reportTo r.sink }) := by
  simp [run, h, ht]

theorem run_of_parse (h : ((scan source).reportTo r.sink).hadError = false)
    (ht : r.showTokens = false) :
    r.run source =
      (((parseTokens (scan source).tokens ((scan source).reportTo r.sink)).1.map
          fun tree => tree.outline ++ "\n").getD "",
        { r with sink := (parseTokens (scan source).tokens ((scan source).reportTo r.sink)).2 }) := by
  simp only [run, h, ht, Bool.false_eq_true, if_false]
  split <;> rename_i hp <;> simp [hp]

/-- What a run reports goes to the sink; a parse may add to it. -/
theorem run_cases (r : Runner) (source : String) :
    (r.run source).2 = { r with sink := (scan source).reportTo r.sink } ∨
      (r.run source).2 =
        { r with sink := (parseTokens (scan source).tokens ((scan source).reportTo r.sink)).2 } := by
  cases h : ((scan source).reportTo r.sink).hadError with
  | true => exact .inl (by rw [run_of_hadError h])
  | false =>
    cases ht : r.showTokens with
    | true => exact .inl (by rw [run_of_showTokens h ht, ht])
    | false => exact .inr (by rw [run_of_parse h ht, ht])

/-- What has been written before stays ahead, and changes nothing else. -/
theorem run_behind (r : Runner) (ahead : List Entry) (source : String) :
    (r.behind ahead).run source = ((r.run source).1, (r.run source).2.behind ahead) := by
  have hscan : (scan source).reportTo (r.behind ahead).sink =
      ((scan source).reportTo r.sink).behind ahead := Scan.reportTo_behind _ _ _
  -- a run looks at nothing of the sink but its error flag
  cases h : ((scan source).reportTo r.sink).hadError with
  | true =>
    rw [run_of_hadError h, run_of_hadError (r := r.behind ahead) (by rw [hscan]; exact h), hscan]
    rfl
  | false =>
    have h' : ((scan source).reportTo (r.behind ahead).sink).hadError = false := by
      rw [hscan]
      exact h
    cases ht : r.showTokens with
    | true =>
      rw [run_of_showTokens h ht, run_of_showTokens h' ht, hscan]
      rfl
    | false =>
      rw [run_of_parse h ht, run_of_parse h' ht, hscan, parseTokens_behind]
      rfl

theorem fresh_run (r : Runner) (source : String) : (r.run source).2.fresh = r.fresh := by
  rcases r.run_cases source with h | h
  · rw [h, fresh, Scan.fresh_reportTo]
    rfl
  · rw [h, fresh, fresh_parseTokens, Scan.fresh_reportTo]
    rfl

end Run

/-! ## Line by line -/

/-- A line is run by a new runner, and what it writes comes behind what is written already. -/
theorem runLine_eq (r : Runner) (line : String) : r.runLine line =
    ((r.fresh.run line).1, (r.fresh.run line).2.behind r.sink.entries) := by
  rw [← run_behind, runLine, Sink.reset_eq]
  rfl

theorem fresh_runLine (r : Runner) (line : String) : (r.runLine line).2.fresh = r.fresh := by
  rw [runLine_eq]
  exact fresh_run r.fresh line

variable {line : String} {lines : List String} {session : String × Runner}

end Runner

end Trellis
