import Trellis.Proofs.Prompt

/-!
# Runs and parses of a source text

A run of a source text prints something or reports something, never both. It withholds a tree wherever
the sink has recorded an error, even one of an earlier run, while a parse of the same text goes on over
the tokens that were found.

* `Runner.Ran`: the four ways in which a run ends;
* `Runner.AgreesWith`: how a run compares with a parse, where nothing has been reported to either sink;
* `Runner.run_agrees`: **every run ends in one of these ways, and agrees with a parse**.
-/

namespace Trellis

/-- Nothing has been reported to the sink. -/
structure Sink.Unused (s : Sink) : Prop where
  diagnostics : s.diagnostics = []
  hadError : s.hadError = false

/-- The reports of the lexical errors of a source text. -/
def lexicalReports (source : String) : List Diagnostic :=
  (scan source).errors.map LexicalError.diagnostic

variable {r : Runner} {source : String} {sink : Sink} {tree : Expr}

theorem diagnostics_scanned (source : String) (sink : Sink) :
    ((scan source).reportTo sink).diagnostics = sink.diagnostics ++ lexicalReports source :=
  Scan.diagnostics_reportTo _ _

/-- Every report of a scan is of an error. -/
theorem hadError_scanned (source : String) (sink : Sink) :
    ((scan source).reportTo sink).hadError = true ↔
      sink.hadError = true ∨ lexicalReports source ≠ [] := by
  have hany : (lexicalReports source).any (·.isError) = true ↔ lexicalReports source ≠ [] := by
    unfold lexicalReports
    cases (scan source).errors <;> simp [LexicalError.diagnostic, Diagnostic.isError]
  rw [Scan.reportTo, Sink.hadError_trace, Sink.hadError_addAll, Bool.or_eq_true]
  exact or_congr Iff.rfl hany

/-- A parse takes back nothing that is in the sink. -/
theorem parseTokens_keeps (ts : List Token) (sink : Sink) :
    sink.diagnostics <+: (parseTokens ts sink).2.diagnostics ∧
      (sink.hadError = true → (parseTokens ts sink).2.hadError = true) := by
  obtain ⟨found, report, hparses, hts⟩ := parsesTo ts
  rw [hts]
  cases hparses with
  | tree => exact ⟨List.prefix_rfl, id⟩
  | error => exact ⟨by simp, fun h => by simp [h]⟩

namespace Runner

/-- There is no error that makes a run print nothing. -/
structure Clear (r : Runner) (source : String) : Prop where
  sink : r.sink.hadError = false
  source : lexicalReports source = []

/-- How a run ends. -/
inductive Ran (r : Runner) (source : String) : Prop
  /-- Nothing is printed after an error, and only the lexical errors are reported. -/
  | withheld (error : r.sink.hadError = true ∨ lexicalReports source ≠ [])
      (printed : (r.run source).1 = "")
      (reported : (r.run source).2.sink.diagnostics = r.sink.diagnostics ++ lexicalReports source)
  /-- The tokens are printed, that of the end of input among them. -/
  | listed {ts : List Token} (clear : r.Clear source) (mode : r.showTokens = true)
      (tokens : (scan source).tokens = ts ++ [endToken (lastLine source)])
      (printed : (r.run source).1 =
        String.join ((ts ++ [endToken (lastLine source)]).map fun t => t.listed ++ "\n"))
      (reported : (r.run source).2.sink.diagnostics = r.sink.diagnostics)
  /-- The tree that is parsed is printed. -/
  | outlined {tree : Expr} (clear : r.Clear source) (mode : r.showTokens = false)
      (parsed : ∀ sink, (parseTokens (scan source).tokens sink).1 = some tree)
      (printed : (r.run source).1 = tree.outline ++ "\n")
      (reported : (r.run source).2.sink.diagnostics = r.sink.diagnostics)
  /-- Nothing is parsed, and one error of parsing is reported. -/
  | failed {err : ParseError} (clear : r.Clear source) (mode : r.showTokens = false)
      (parsed : ∀ sink, (parseTokens (scan source).tokens sink).1 = none)
      (printed : (r.run source).1 = "")
      (reported : (r.run source).2.sink.diagnostics = r.sink.diagnostics ++ [err.diagnostic])

/-- How a run compares with a parse of the same text. -/
structure AgreesWith (r : Runner) (source : String) (parsed : Option Expr × Sink) : Prop where
  printsTree : (∃ tree : Expr, (r.run source).1 = tree.outline ++ "\n") ↔
    ∃ tree, parsed.1 = some tree ∧ parsed.2.hadError = false
  printed : ∀ tree, parsed.1 = some tree → parsed.2.hadError = false →
    (r.run source).1 = tree.outline ++ "\n"
  reported : lexicalReports source = [] → (r.run source).2.sink.diagnostics = parsed.2.diagnostics
  lexical : lexicalReports source ≠ [] →
    (r.run source).2.sink.diagnostics = lexicalReports source ∧
      lexicalReports source <+: parsed.2.diagnostics

theorem hadError_of_clear (h : r.Clear source) : ((scan source).reportTo r.sink).hadError = false := by
  rw [Bool.eq_false_iff, ne_eq, hadError_scanned, h.sink, h.source]
  simp

theorem diagnostics_of_clear (h : r.Clear source) :
    ((scan source).reportTo r.sink).diagnostics = r.sink.diagnostics := by
  rw [diagnostics_scanned, h.source, List.append_nil]

theorem clear_or (r : Runner) (source : String) :
    r.Clear source ∨ (r.sink.hadError = true ∨ lexicalReports source ≠ []) := by
  cases h : r.sink.hadError with
  | true => exact .inr (.inl rfl)
  | false =>
    by_cases hl : lexicalReports source = []
    · exact .inl ⟨h, hl⟩
    · exact .inr (.inr hl)

theorem withheld_of_error (h : r.sink.hadError = true ∨ lexicalReports source ≠ []) :
    (r.run source).1 = "" ∧
      (r.run source).2.sink.diagnostics = r.sink.diagnostics ++ lexicalReports source := by
  rw [run_of_hadError ((hadError_scanned source r.sink).2 h)]
  exact ⟨rfl, diagnostics_scanned source r.sink⟩

theorem ran (r : Runner) (source : String) : r.Ran source := by
  rcases r.clear_or source with hclear | herror
  · have hflag := hadError_of_clear hclear
    have hsame := diagnostics_of_clear hclear
    cases ht : r.showTokens with
    | true =>
      have hrun := run_of_showTokens hflag ht
      exact .listed hclear ht rfl (by rw [hrun]; rfl) (by rw [hrun]; exact hsame)
    | false =>
      have hrun := run_of_parse hflag ht
      obtain ⟨found, report, hparses, hts⟩ := parsesTo (scan source).tokens
      rw [hts] at hrun
      cases hparses with
      | tree =>
        exact .outlined hclear ht (fun sink => by rw [hts]) (by rw [hrun]; rfl)
          (by rw [hrun]; exact hsame)
      | @error err =>
        have hreported : (r.run source).2.sink.diagnostics =
            r.sink.diagnostics ++ [err.diagnostic] := by
          rw [hrun]
          simp [hsame]
        exact .failed hclear ht (fun sink => by rw [hts]) (by rw [hrun]; rfl) hreported
  · obtain ⟨hprinted, hreported⟩ := withheld_of_error herror
    exact .withheld herror hprinted hreported

/-- After a lexical error nothing is printed, and a parse leaves the error flag set. -/
theorem agrees_of_lexical (hr : r.sink.Unused) (hs : sink.Unused) (hl : lexicalReports source ≠ []) :
    r.AgreesWith source (parseSource source sink) := by
  obtain ⟨hprinted, hreported⟩ := withheld_of_error (r := r) (.inr hl)
  obtain ⟨hkept, hflag⟩ :=
    parseTokens_keeps (scan source).tokens ((scan source).reportTo sink)
  have hset : (parseSource source sink).2.hadError = true :=
    hflag ((hadError_scanned source sink).2 (.inr hl))
  rw [diagnostics_scanned, hs.diagnostics, List.nil_append] at hkept
  rw [hr.diagnostics, List.nil_append] at hreported
  constructor
  · rw [hprinted, hset]
    simp
  · intro tree _ hclear
    rw [hset] at hclear
    cases hclear
  · exact fun h => absurd h hl
  · exact fun _ => ⟨hreported, hkept⟩

/-- Without one, a run reports and prints what a parse reports and gives. -/
theorem agrees_of_clear (hr : r.sink.Unused) (hs : sink.Unused) (ht : r.showTokens = false)
    (hl : lexicalReports source = []) : r.AgreesWith source (parseSource source sink) := by
  have hrun := run_of_parse (hadError_of_clear ⟨hr.hadError, hl⟩) ht
  obtain ⟨found, report, hparses, hts⟩ := parsesTo (scan source).tokens
  have hparse : parseSource source sink = (found, report ((scan source).reportTo sink)) := hts _
  rw [hts] at hrun
  have hflag : ((scan source).reportTo sink).hadError = false :=
    hadError_of_clear (r := { sink }) ⟨hs.hadError, hl⟩
  have hsame : ((scan source).reportTo r.sink).diagnostics =
      ((scan source).reportTo sink).diagnostics := by
    rw [diagnostics_scanned, diagnostics_scanned, hr.diagnostics, hs.diagnostics]
  have hreports : (report ((scan source).reportTo r.sink)).diagnostics =
      (report ((scan source).reportTo sink)).diagnostics := by
    cases hparses with
    | tree => exact hsame
    | error => simp [hsame]
  constructor
  · rw [hrun, hparse]
    cases hparses with
    | @tree e => exact ⟨fun _ => ⟨e, rfl, hflag⟩, fun _ => ⟨e, rfl⟩⟩
    | error => simp
  · intro tree htree _
    rw [hparse] at htree
    rw [hrun, htree]
    rfl
  · intro _
    rw [hrun, hparse]
    exact hreports
  · exact fun h => absurd hl h

/-- **Every run ends in one of four ways, and agrees with a parse.** -/
theorem run_agrees (r : Runner) (source : String) : r.Ran source ∧ ∀ sink : Sink,
    r.sink.Unused → sink.Unused → r.showTokens = false →
      r.AgreesWith source (parseSource source sink) := by
  refine ⟨r.ran source, ?_⟩
  intro sink hr hs ht
  by_cases hl : lexicalReports source = []
  · exact agrees_of_clear hr hs ht hl
  · exact agrees_of_lexical hr hs hl

/-- A character that begins no token, and a sink that writes nothing. -/
theorem agrees_beside_stray :
    let r : Runner := {}
    let quiet : Sink := { silent := true }
    r.sink.Unused ∧ quiet.Unused ∧ r.showTokens = false ∧ r.Ran "1 @" ∧
      r.AgreesWith "1 @" (parseSource "1 @" quiet) := by
  intro r quiet
  have hr : r.sink.Unused := ⟨rfl, rfl⟩
  have hquiet : quiet.Unused := ⟨rfl, rfl⟩
  obtain ⟨hran, hagrees⟩ := r.run_agrees "1 @"
  exact ⟨hr, hquiet, rfl, hran, hagrees quiet hr hquiet rfl⟩

end Runner

end Trellis
