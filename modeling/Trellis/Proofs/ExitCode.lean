import Trellis.Proofs.Coherence
import Trellis.Proofs.Run

/-!
# Exit codes and output

The exit code of the command and the two texts that it prints tell one story. A script is either right,
and then something is printed, or wrong, and then something is reported; never both and never neither.

* `Rejected`: there is something wrong with a source text;
* `Runner.run_verdict`: a run reports errors and prints nothing, or it prints something and reports
  nothing;
* `Outcome.Succeeds`, `Outcome.Fails`: the two outcomes of a script that can be read;
* `exit_code_told`: **which outcome the command has**.
-/

namespace Trellis

/-- There is something wrong with a source text: a lexical error, or tokens that cannot be parsed where
they are to be parsed and not just listed. -/
def Rejected (showTokens : Bool) (source : String) : Prop :=
  (scan source).errors ≠ [] ∨ showTokens = false ∧ (parseTokens (scan source).tokens {}).1 = none

theorem lexicalReports_ne_nil_iff {source : String} :
    lexicalReports source ≠ [] ↔ (scan source).errors ≠ [] := by
  simp [lexicalReports]

/-- Lines that are written one after another are no empty text, if there is a line. -/
theorem join_lines_ne_empty {α : Type} (line : α → String) {as : List α} (h : as ≠ []) :
    String.join (as.map fun a => line a ++ "\n") ≠ "" := by
  cases as with
  | nil => exact absurd rfl h
  | cons a as => simp [String.append_eq_empty_iff]

/-! ## One run -/

namespace Runner

variable {r : Runner} {source : String}

/-- A run by a new runner. It prints something and reports nothing, or it prints nothing and reports
errors and nothing else. -/
inductive Verdict (r : Runner) (source : String) : Prop
  | accepted (right : ¬ Rejected r.showTokens source) (printed : (r.run source).1 ≠ "")
      (reported : (r.run source).2.sink.diagnostics = [])
  | rejected (wrong : Rejected r.showTokens source) (printed : (r.run source).1 = "")
      (reported : (r.run source).2.sink.diagnostics ≠ [])
      (errors : ∀ d ∈ (r.run source).2.sink.diagnostics, d.isError = true)

theorem run_verdict (hr : r.sink.Unused) : r.Verdict source := by
  cases r.ran source with
  | withheld error printed reported =>
    rw [hr.diagnostics, List.nil_append] at reported
    have hl : lexicalReports source ≠ [] := by
      rcases error with error | error
      · rw [hr.hadError] at error
        cases error
      · exact error
    refine .rejected (.inl (lexicalReports_ne_nil_iff.1 hl)) printed (reported ▸ hl) ?_
    rw [reported]
    exact List.forall_mem_map.2 fun e _ => rfl
  | listed clear mode _ printed reported =>
    have hl : (scan source).errors = [] := by simpa [lexicalReports] using clear.source
    refine .accepted ?_ ?_ (reported.trans hr.diagnostics)
    · rintro (h | ⟨h, -⟩)
      · exact h hl
      · rw [mode] at h
        cases h
    · rw [printed]
      exact join_lines_ne_empty Token.listed (by simp)
  | outlined clear mode parsed printed reported =>
    have hl : (scan source).errors = [] := by simpa [lexicalReports] using clear.source
    refine .accepted ?_ ?_ (reported.trans hr.diagnostics)
    · rintro (h | ⟨-, h⟩)
      · exact h hl
      · rw [parsed] at h
        cases h
    · rw [printed]
      simp [String.append_eq_empty_iff]
  | failed clear mode parsed printed reported =>
    rw [hr.diagnostics, List.nil_append] at reported
    refine .rejected (.inr ⟨mode, parsed _⟩) printed ?_ ?_
    · rw [reported]
      simp
    · rw [reported]
      simp [ParseError.diagnostic, Diagnostic.isError]

end Runner

/-! ## The command -/

namespace CommandLine

/-- The script is right: something is printed, and nothing on standard error. -/
structure Outcome.Succeeds (o : Outcome) : Prop where
  exitCode : o.exitCode = 0
  out : o.out ≠ ""
  err : o.err = ""

/-- The script is wrong: nothing is printed but on standard error. -/
structure Outcome.Fails (o : Outcome) : Prop where
  exitCode : o.exitCode = 65
  out : o.out = ""
  err : o.err ≠ ""

theorem not_succeeds_and_fails (o : Outcome) : ¬ (o.Succeeds ∧ o.Fails) := by
  rintro ⟨hs, hf⟩
  exact absurd (hs.exitCode.symm.trans hf.exitCode) (by decide)

variable {r : Runner} {path source : String} {content : Option ByteArray}

theorem runScript_verdict (hr : r.sink.Unused) (hsilent : r.sink.silent = false)
    (hstamp : r.sink.stamp = none) (hentries : r.sink.entries = [])
    (hread : readSource content = .ok source) :
    ∃ o, runScript r path content = .ok o ∧
      (o.Succeeds ∧ ¬ Rejected r.showTokens source ∨ o.Fails ∧ Rejected r.showTokens source) := by
  obtain ⟨ds, hadds⟩ := r.adds_run source
  have hds : (r.run source).2.sink.diagnostics = ds := by
    rw [hadds.diagnostics, hr.diagnostics, List.nil_append]
  have hflag : (r.run source).2.sink.hadError = ds.any (·.isError) := by
    rw [hadds.hadError, hr.hadError, Bool.false_or]
  have hnew : r.sink.Told [] := by
    rw [Sink.Told, hentries]
    exact .nil
  have hquiet : (r.run source).2.sink.silent = false := (Sink.silent_of_fresh hadds.fresh).trans hsilent
  have htold : (r.run source).2.sink.Told ds := hadds.told hnew
  have htext : (r.run source).2.sink.console = Sink.headlines ds := by
    rw [htold.console ((Sink.stamp_of_fresh hadds.fresh).trans hstamp), htold.written, hquiet]
    rfl
  refine ⟨_, by rw [runScript, hread], ?_⟩
  have hverdict : r.Verdict source := r.run_verdict hr
  cases hverdict with
  | accepted right printed reported =>
    rw [hds] at reported
    subst reported
    exact .inl ⟨⟨by simp [hflag], printed, by simp [htext, Sink.headlines]⟩, right⟩
  | rejected wrong printed reported errors =>
    rw [hds] at reported errors
    obtain ⟨d, hd⟩ := List.exists_mem_of_ne_nil ds reported
    have hany : ds.any (·.isError) = true := List.any_eq_true.2 ⟨d, hd, errors d hd⟩
    refine .inr ⟨⟨by simp [hflag, hany], printed, ?_⟩, wrong⟩
    rw [htext]
    exact join_lines_ne_empty Diagnostic.headline reported

section

variable {options : Options} {arguments : List String} (stamp : String)
  (files : String → Option ByteArray) (input : Input)

theorem execute_of_scripts (h : Invocation.ofArguments arguments = .run options)
    (hlength : 2 ≤ options.scripts.length) :
    execute stamp arguments files input = .ok ⟨64, oneScriptText, ""⟩ := by
  unfold execute Plan.ofArguments
  match hscripts : options.scripts with
  | [] | [_] => simp [hscripts] at hlength
  | _ :: _ :: _ => simp only [h, hscripts]

theorem execute_of_script (h : Invocation.ofArguments arguments = .run options)
    (hpath : options.scripts = [path]) :
    execute stamp arguments files input = runScript (runnerFor stamp options) path (files path) := by
  unfold execute Plan.ofArguments
  simp only [h, hpath]

/-- **The exit code and the two outputs tell one story.** Of two scripts or more, none is looked at. One
that cannot be opened is named on standard error. One that can be read is either right or wrong; it is
wrong exactly if something is wrong with its text. -/
theorem exit_code_told (h : Invocation.ofArguments arguments = .run options)
    (hlevel : options.logLevel ≠ .debug) :
    let result := execute stamp arguments files input
    (2 ≤ options.scripts.length → result = .ok ⟨64, "Usage: crumble [script]\n", ""⟩) ∧
    ∀ path, options.scripts = [path] →
      (files path = none → result = .ok ⟨66, "", "Error reading file: " ++ path ++ "\n"⟩) ∧
      ∀ bytes text, files path = some bytes → String.fromUTF8? bytes = some text →
        ∃ o, result = .ok o ∧ (o.Succeeds ∨ o.Fails) ∧ ¬ (o.Succeeds ∧ o.Fails) ∧
          (o.exitCode = 65 ↔ Rejected options.showTokens (Text.unifyNewlines text)) := by
  intro result
  refine ⟨execute_of_scripts stamp files input h, ?_⟩
  intro path hpath
  have hresult : result = runScript (runnerFor stamp options) path (files path) :=
    execute_of_script stamp files input h hpath
  rw [hresult]
  constructor
  · intro hnone
    rw [hnone]
    rfl
  · intro bytes text hbytes htext
    have hread : readSource (files path) = .ok (Text.unifyNewlines text) := by
      simp only [readSource, hbytes, htext]
    have hstamp : (runnerFor stamp options).sink.stamp = none := if_neg hlevel
    have hunused : (runnerFor stamp options).sink.Unused := ⟨rfl, rfl⟩
    obtain ⟨o, ho, hverdict⟩ := runScript_verdict hunused rfl hstamp rfl hread
    refine ⟨o, ho, hverdict.imp And.left And.left, not_succeeds_and_fails o, ?_⟩
    rcases hverdict with ⟨hs, hright⟩ | ⟨hf, hwrong⟩
    · refine iff_of_false ?_ hright
      rw [hs.exitCode]
      decide
    · exact iff_of_true hf.exitCode hwrong

end

/-- Two scripts, one that is absent, and one with a character that begins no token. -/
theorem stray_in_script :
    let files : String → Option ByteArray := fun path =>
      if path = "a.cr" then some "1 @".toUTF8 else none
    let input : Input := { text := "" }
    execute "0" ["a.cr", "b.cr"] files input = .ok ⟨64, "Usage: crumble [script]\n", ""⟩ ∧
    execute "0" ["b.cr"] files input = .ok ⟨66, "", "Error reading file: b.cr\n"⟩ ∧
    ∃ o, execute "0" ["--tokens", "a.cr"] files input = .ok o ∧ o.Fails := by
  intro files input
  have htwo : Invocation.ofArguments ["a.cr", "b.cr"] = .run { scripts := ["a.cr", "b.cr"] } := by
    decide +kernel
  have habsent : Invocation.ofArguments ["b.cr"] = .run { scripts := ["b.cr"] } := by
    decide +kernel
  have hlisted : Invocation.ofArguments ["--tokens", "a.cr"] =
      .run { scripts := ["a.cr"], showTokens := true } := by
    decide +kernel
  have htext : String.fromUTF8? "1 @".toUTF8 = some "1 @" := by decide +kernel
  have hwrong : Rejected true (Text.unifyNewlines "1 @") := .inl (by decide +kernel)
  refine ⟨?_, ?_, ?_⟩
  · exact (exit_code_told "0" files input htwo (by decide)).1 (by decide)
  · exact ((exit_code_told "0" files input habsent (by decide)).2 "b.cr" rfl).1 rfl
  · obtain ⟨-, hread⟩ := (exit_code_told "0" files input hlisted (by decide)).2 "a.cr" rfl
    obtain ⟨o, ho, hone, -, hcode⟩ := hread _ _ rfl htext
    refine ⟨o, ho, hone.resolve_left ?_⟩
    intro hs
    exact absurd (hs.exitCode.symm.trans (hcode.2 hwrong)) (by decide)

end CommandLine

end Trellis
