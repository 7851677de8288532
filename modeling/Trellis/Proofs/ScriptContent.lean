import Trellis.Proofs.ExitCode

/-!
# Script content

Whatever bytes a script holds, running it ends in one of three ways. A script that cannot be opened is
named on standard error. One that is UTF-8 text ends with the exit code of a run. One that is not has no
outcome at all: the mistake is not caught, so that there is neither an exit code nor a report.

* `readSource_text`, `readSource_notText`: the source text in the content of a file;
* `invocation_of_script`: which arguments name a script, whatever the script holds;
* `script_content`: **how a script ends**, by what it holds;
* `undecodable_script`: one byte that is no text.
-/

namespace Trellis

variable {bytes : ByteArray}

theorem readSource_text (h : bytes.IsValidUTF8) :
    readSource (some bytes) = .ok (Text.unifyNewlines (String.fromUTF8 bytes h)) := by
  simp only [readSource, String.fromUTF8?, dif_pos h]

theorem readSource_notText (h : ¬ bytes.IsValidUTF8) : readSource (some bytes) = .error .notText := by
  simp only [readSource, String.fromUTF8?, dif_neg h]

namespace CommandLine

variable {path : String} (stamp : String) (files : String → Option ByteArray) (input : Input)

/-- An argument that does not begin with a dash names a script. -/
theorem invocation_of_script (path : String) (h : path.toList.head? ≠ some '-') :
    Invocation.ofArguments [path] = .run { scripts := [path] } := by
  have hword : Word.ofArgument path = .ok (.operand path) := by
    unfold Word.ofArgument
    split
    · rename_i heq
      rw [heq] at h
      exact absurd rfl h
    · rfl
  have hdashes : path ≠ "--" := by
    rintro rfl
    exact h (by decide)
  have htake : [path].takeWhile (· ≠ "--") = [path] := by simp [hdashes]
  have hdrop : [path].dropWhile (· ≠ "--") = [] := by simp [hdashes]
  have hwords : [path].mapM Word.ofArgument = .ok [.operand path] := by
    simp only [List.mapM_cons, List.mapM_nil, hword]
    rfl
  rw [Invocation.ofArguments, htake, hdrop, hwords]
  rfl

/-- **How a script ends.** The command has an outcome for a script that cannot be opened and for one that
is text, and for no other. -/
theorem script_content (h : Invocation.ofArguments [path] = .run { scripts := [path] }) :
    let result := execute stamp [path] files input
    (files path = none → result = .ok ⟨66, "", "Error reading file: " ++ path ++ "\n"⟩) ∧
    ∀ bytes, files path = some bytes →
      (bytes.IsValidUTF8 → ∃ o, result = .ok o ∧ (o.exitCode = 0 ∨ o.exitCode = 65)) ∧
      (¬ bytes.IsValidUTF8 → result = .error .notText) := by
  intro result
  have hresult : result = runScript (runnerFor stamp { scripts := [path] }) path (files path) :=
    execute_of_script stamp files input h rfl
  rw [hresult]
  constructor
  · intro hnone
    rw [hnone]
    rfl
  · intro bytes hbytes
    rw [hbytes]
    constructor
    · intro htext
      have hunused : (runnerFor stamp { scripts := [path] }).sink.Unused := ⟨rfl, rfl⟩
      obtain ⟨o, ho, hverdict⟩ : ∃ o, runScript _ path (some bytes) = .ok o ∧ _ :=
        runScript_verdict hunused rfl rfl rfl (readSource_text htext)
      exact ⟨o, ho, hverdict.imp (·.1.exitCode) (·.1.exitCode)⟩
    · intro htext
      rw [runScript, readSource_notText htext]

theorem not_text : ¬ (⟨#[0xff]⟩ : ByteArray).IsValidUTF8 := by
  decide +kernel

/-- A script with a character that begins no token has the exit code of an error, and one with a byte
that is no text has none. -/
theorem stray_and_undecodable :
    let files : String → Option ByteArray := fun path =>
      if path = "stray.cr" then some "@".toUTF8
      else if path = "bad.cr" then some ⟨#[0xff]⟩ else none
    let input : Input := { text := "" }
    execute "0" ["none.cr"] files input = .ok ⟨66, "", "Error reading file: none.cr\n"⟩ ∧
    (∃ o, execute "0" ["stray.cr"] files input = .ok o ∧ (o.exitCode = 0 ∨ o.exitCode = 65)) ∧
    execute "0" ["bad.cr"] files input = .error .notText := by
  intro files input
  have hnone := invocation_of_script "none.cr" (by decide)
  have hstray := invocation_of_script "stray.cr" (by decide)
  have hbad := invocation_of_script "bad.cr" (by decide)
  refine ⟨?_, ?_, ?_⟩
  · exact (script_content "0" files input hnone).1 rfl
  · exact ((script_content "0" files input hstray).2 "@".toUTF8 rfl).1 (String.isValidUTF8 "@")
  · exact ((script_content "0" files input hbad).2 ⟨#[0xff]⟩ rfl).2 not_text

/-- A script that is no text is not reported as one that cannot be read. -/
theorem undecodable_script :
    let files : String → Option ByteArray := fun path =>
      if path = "bad.cr" then some ⟨#[0xff]⟩ else none
    execute "0" ["bad.cr"] files { text := "" } ≠
      .ok ⟨66, "", "Error reading file: bad.cr\n"⟩ := by
  intro files
  have hbad := invocation_of_script "bad.cr" (by decide)
  have hbytes : files "bad.cr" = some ⟨#[0xff]⟩ := rfl
  rw [execute_of_script "0" files _ hbad rfl, hbytes, runScript, readSource_notText not_text]
  rintro ⟨⟩

end CommandLine

end Trellis
