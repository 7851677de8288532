import Trellis.Proofs.CharacterSteps
import Trellis.Proofs.Prompt

/-!
# Scanning with one scanner again and again

A scan takes back what an earlier one has left behind, but for the line of the last piece, which stays until
the first character is read. That line is written over before it is read. So each scan finds and reports what
a scan with a new scanner would.

* `Scanner.act`, `Scanner.actAll`: what is done with a scanner, where a scan is carried out in character
  steps; `Scanner.currentSource`: the source text that it was given last;
* `Scanner.ScansAlike`: two scans that end, find the same and report the same;
* `scansAlike_of_source`: scans of one text are alike, whatever else the scanners hold;
* `scans_afresh`: **after any actions, a scan is like one with a new scanner**.
-/

namespace Trellis.Scanner

/-- What can be done with a scanner. -/
inductive Action where
  | tokenize
  | setSource (source : String)
  | resetSink

/-- Carries out an action. A scan goes from character to character, and might be refused a step. -/
def act (s : Scanner) : Action → Option Scanner
  | .tokenize => s.rescan
  | .setSource source => some (s.setSource source)
  | .resetSink => some s.resetSink

/-- Carries out actions one after another. -/
def actAll (s : Scanner) : List Action → Option Scanner
  | [] => some s
  | a :: as => (s.act a).bind (·.actAll as)

/-- The source text of a scanner after an action. -/
def Action.source (before : String) : Action → String
  | .setSource source => source
  | .tokenize | .resetSink => before

/-- The source text after some actions: the one that was given last, or else the first one. -/
def currentSource (first : String) (as : List Action) : String := as.foldl Action.source first

/-- A scan with `s` leaves `t` behind and one with `s'` leaves `t'`. They find the same and end at the same
place, and add the same diagnostics to their sinks. -/
structure ScansAlike (s s' t t' : Scanner) : Prop where
  ends : s.rescan = some t
  ends' : s'.rescan = some t'
  tokens : t.tokens = t'.tokens
  errors : t.errors = t'.errors
  pos : t.pos = t'.pos
  start : t.start = t'.start
  line : t.line = t'.line
  reported : ∃ ds, t.sink.diagnostics = s.sink.diagnostics ++ ds ∧
    t'.sink.diagnostics = s'.sink.diagnostics ++ ds
  /-- Equal sinks stay equal, down to what is written. -/
  sink : s.sink = s'.sink → t.sink = t'.sink

variable {s s' : Scanner}

/-- Scans of one source text are alike, whatever else the two scanners hold. -/
theorem scansAlike_of_source (h : s.source = s'.source) :
    ScansAlike s s' s.tokenize s'.tokenize := by
  constructor
  · exact s.rescan_eq
  · exact s'.rescan_eq
  · simp only [tokenize, h]
  · simp only [tokenize, h]
  · simp only [tokenize, h]
  · simp only [tokenize, h]
  · simp only [tokenize, h]
  · refine ⟨(scan s.source).errors.map LexicalError.diagnostic, ?_, ?_⟩
    · exact Scan.diagnostics_reportTo _ _
    · rw [h]
      exact Scan.diagnostics_reportTo _ _
  · intro hsink
    simp only [tokenize, h, hsink]

/-- An action is never refused. -/
theorem act_eq (s : Scanner) (a : Action) :
    ∃ t, s.act a = some t ∧ t.source = a.source s.source := by
  cases a with
  | tokenize => exact ⟨s.tokenize, s.rescan_eq, rfl⟩
  | setSource source => exact ⟨s.setSource source, rfl, rfl⟩
  | resetSink => exact ⟨s.resetSink, rfl, rfl⟩

theorem actAll_eq (s : Scanner) (as : List Action) :
    ∃ t, s.actAll as = some t ∧ t.source = currentSource s.source as := by
  induction as generalizing s with
  | nil => exact ⟨s, rfl, rfl⟩
  | cons a as ih =>
    obtain ⟨t, ht, hsource⟩ := s.act_eq a
    obtain ⟨u, hu, hlast⟩ := ih t
    refine ⟨u, ?_, ?_⟩
    · rw [actAll, ht, Option.bind_some, hu]
    · rw [hlast, hsource, currentSource, currentSource, List.foldl_cons]

/-- **After any actions, a scan is like one with a new scanner.** Whatever has been scanned before, and
however that ended, a scan finds and reports what a new scanner does that is given the current source text
and any sink. The line of the last piece, which a scan does not take back, changes nothing of it. -/
theorem scans_afresh (source : String) (sink : Sink) (as : List Action) :
    ∃ s t, ({ source, sink } : Scanner).actAll as = some s ∧
      (∀ sink', ∃ t', ScansAlike s { source := currentSource source as, sink := sink' } t t') ∧
      ∀ n, ∃ t', ScansAlike s { s with startLine := n } t t' := by
  obtain ⟨s, hs, hsource⟩ := ({ source, sink } : Scanner).actAll_eq as
  refine ⟨s, s.tokenize, hs, ?_, ?_⟩
  · intro sink'
    let fresh : Scanner := { source := currentSource source as, sink := sink' }
    have halike : ScansAlike s fresh s.tokenize fresh.tokenize := scansAlike_of_source hsource
    exact ⟨_, halike⟩
  · intro n
    let later : Scanner := { s with startLine := n }
    have halike : ScansAlike s later s.tokenize later.tokenize := scansAlike_of_source rfl
    exact ⟨_, halike⟩

/-- An unclosed string leaves its line behind, which a scan of an empty text keeps and does not use. -/
example :
    let s := ({ source := "\n\n\"ab\n" : Scanner }.tokenize.setSource "").tokenize
    s.startLine = 3 ∧ s.tokens = [endToken 1] ∧ s.line = 1 := by decide +kernel

end Trellis.Scanner
