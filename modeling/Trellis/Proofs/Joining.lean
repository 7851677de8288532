import Trellis.Proofs.Sentence

/-!
# One text below another

Only a string goes on past a line end. So a text whose strings are all closed is cut into the same pieces
where a line end and another text follow it, and the other text is cut as if it stood alone. What is found
in the other text is found again, that many lines further down.

* `Token.shifted`, `LexicalError.shifted`: the same, some lines further down;
* `tiling_joined`, `yields_joined`: the pieces of two texts and what they yield;
* `scan_joined`: **scanning is compositional over lines**.
-/

namespace Trellis

/-- The token, some lines further down. -/
def Token.shifted (lines : Nat) (t : Token) : Token := { t with line := t.line + lines }

/-- The error, some lines further down. -/
def LexicalError.shifted (lines : Nat) (e : LexicalError) : LexicalError :=
  { e with line := e.line + lines }

variable {line : Nat} {c : Char} {w u text rest : List Char} {us vs : List (List Char)}
  {ts ss : List Token} {es fs : List LexicalError}

/-! ## The pieces of the first text -/

/-- What is formed over a line end is a string that is open there. -/
theorem unclosed_of_formed (h : Formed (c :: (w ++ '\n' :: rest))) :
    Form.unclosed.Describes (c :: w) := by
  have hn : '\n' ∈ w ++ '\n' :: rest := by simp
  -- by the first character: no form but that of a string has a line end behind another character
  rcases formed_cons.1 h with ⟨-, hw⟩ | ⟨-, hw | hw⟩ | ⟨-, hw | ⟨body, hw, hb⟩⟩ | ⟨-, hw⟩ |
    ⟨rfl, body, hw, hb⟩ | hw | ⟨-, hw⟩
  · simp at hw
  · simp at hw
  · rw [hw] at hn
    exact absurd hn (by decide)
  · simp at hw
  · rw [hw] at hn
    rcases List.mem_cons.1 hn with hn | hn
    · exact absurd hn (by decide)
    · exact absurd hn hb
  · simp at hw
  · refine ⟨w, rfl, fun hq => hb ?_⟩
    have hp : w <+: body ++ ['"'] := ⟨_, hw⟩
    rcases List.prefix_concat_iff.1 hp with rfl | hp
    · simp at hw
    · exact hp.subset hq
  · rcases numeral_chars hw '\n' (List.mem_cons_of_mem c hn) with hd | hd
    · exact absurd hd (by decide)
    · exact absurd hd (by decide)
  · exact absurd (hw '\n' hn) (by decide)

/-- An open string is one piece. -/
theorem firstPiece_unclosed (h : Form.unclosed.Describes text) : FirstPiece text text := by
  obtain ⟨body, rfl, hb⟩ := h
  refine .unclosed ?_ rfl
  intro w hw hp
  obtain ⟨v, rfl, hv⟩ := formed_beginning hw hp
  obtain ⟨body', rfl, -⟩ := formed_quote.1 hw
  exact hb (hv.subset (by simp))

/-- Where no piece is formed from a quote on, no quote closes it. -/
theorem not_mem_of_not_formed (h : ∀ v, Formed v → ¬ v <+: '"' :: w) : '"' ∉ w := by
  intro hq
  obtain ⟨body, after, rfl, hb⟩ := List.eq_append_cons_of_mem hq
  exact h _ (formed_quote.2 ⟨body, rfl, hb⟩) ⟨after, by simp⟩

/-- A text begins with the same piece where a line end follows it, unless that is an open string. -/
theorem firstPiece_joined (h : FirstPiece (c :: w) u) (hu : ¬ Form.unclosed.Describes u)
    (rest : List Char) : FirstPiece (c :: w ++ '\n' :: rest) u := by
  have hclosed : ¬ Form.unclosed.Describes (c :: w) := by
    intro ho
    obtain rfl := firstPiece_unique h (firstPiece_unclosed ho)
    exact hu ho
  have hwithin : ∀ v, Formed v → v <+: c :: w ++ '\n' :: rest → v <+: c :: w := by
    intro v hv hp
    rcases List.prefix_or_prefix_of_prefix hp (List.prefix_append (c :: w) _) with hp' | ⟨x, rfl⟩
    · exact hp'
    · cases x with
      | nil => simp
      | cons d x =>
        obtain ⟨rfl, -⟩ := List.cons_prefix_cons.1 ((List.prefix_append_right_inj _).1 hp)
        exact absurd (unclosed_of_formed hv) hclosed
  cases h with
  | formed hf hp longest =>
    exact .formed hf (hp.trans (List.prefix_append _ _)) fun v hv hp' =>
      longest v hv (hwithin v hv hp')
  | unclosed none hq =>
    obtain rfl : c = '"' := Option.some.inj hq
    exact absurd ⟨w, rfl, not_mem_of_not_formed none⟩ hclosed
  | stray none hc hq => exact .stray (fun v hv hp' => none v hv (hwithin v hv hp')) hc hq

/-- A text without open strings and the text below it are cut into their pieces and the line end. -/
theorem tiling_joined (h : Tiling text us) (hu : ∀ u ∈ us, ¬ Form.unclosed.Describes u)
    (h' : Tiling rest vs) : Tiling (text ++ '\n' :: rest) (us ++ ['\n'] :: vs) := by
  induction h with
  | nil => exact .cons (u := ['\n']) (firstPiece_blank (by decide) rest) h'
  | @cons u text us hf _ ih =>
    have hjoined : FirstPiece (u ++ (text ++ '\n' :: rest)) u := by
      rw [← List.append_assoc]
      cases u with
      | nil => exact absurd rfl (firstPiece_ne_nil hf)
      | cons c w => exact firstPiece_joined hf (hu _ List.mem_cons_self) rest
    rw [List.append_assoc]
    exact .cons hjoined (ih fun v hv => hu v (List.mem_cons_of_mem u hv))

/-! ## What the pieces yield -/

/-- An open string is reported. -/
theorem closed_of_yields (h : Yields line us ts es) (he : ∀ e ∈ es, e.fault.code ≠ "L002") :
    ∀ u ∈ us, ¬ Form.unclosed.Describes u := by
  induction h with
  | done => simp
  | token hl _ ih =>
    refine List.forall_mem_cons.2 ⟨?_, ih he⟩
    rintro ⟨body, rfl, hb⟩
    exact not_formed_unclosed hb hl.formed
  | skipped hs _ ih =>
    refine List.forall_mem_cons.2 ⟨?_, ih he⟩
    rintro ⟨body, rfl, hb⟩
    exact not_formed_unclosed hb (.inr hs)
  | stray _ hq _ ih =>
    refine List.forall_mem_cons.2 ⟨?_, ih fun e h => he e (List.mem_cons_of_mem _ h)⟩
    rintro ⟨body, ⟨⟩, -⟩
    exact hq rfl
  | unclosed => exact absurd rfl (he _ List.mem_cons_self)

/-- Pieces yield the same further down. -/
theorem yields_shifted (h : Yields line us ts es) (lines : Nat) : Yields (line + lines) us
    (ts.map (Token.shifted lines)) (es.map (LexicalError.shifted lines)) := by
  induction h with
  | done => exact .done
  | token hl _ ih =>
    rw [Nat.add_right_comm] at ih
    exact .token hl ih
  | skipped hs _ ih =>
    rw [Nat.add_right_comm] at ih
    exact .skipped hs ih
  | stray hf hq _ ih => exact .stray hf hq ih
  | @unclosed line body us ts es hb _ ih =>
    rw [Nat.add_right_comm] at ih
    have hline : (line + lines + body.count '\n' : Nat) = line + body.count '\n' + lines :=
      Nat.add_right_comm _ _ _
    have := Yields.unclosed hb ih
    rw [hline] at this
    exact this

/-- Pieces yield what they yield, and then what those behind them do. -/
theorem yields_joined (h : Yields line us ts es)
    (h' : Yields (line + us.flatten.count '\n') vs ss fs) :
    ∃ xs, ts = xs ++ [endToken (line + us.flatten.count '\n' : Nat)] ∧
      Yields line (us ++ vs) (xs ++ ss) (es ++ fs) := by
  induction h with
  | done => exact ⟨[], rfl, h'⟩
  | token hl _ ih =>
    rw [List.flatten_cons, List.count_append, ← Nat.add_assoc] at h' ⊢
    obtain ⟨xs, rfl, hy⟩ := ih h'
    exact ⟨_ :: xs, rfl, .token hl hy⟩
  | skipped hs _ ih =>
    rw [List.flatten_cons, List.count_append, ← Nat.add_assoc] at h' ⊢
    obtain ⟨xs, rfl, hy⟩ := ih h'
    exact ⟨xs, rfl, .skipped hs hy⟩
  | stray hf hq _ ih =>
    rw [List.flatten_cons, List.count_append, newlines_of_stray hf, Nat.zero_add] at h' ⊢
    obtain ⟨xs, rfl, hy⟩ := ih h'
    exact ⟨xs, rfl, .stray hf hq hy⟩
  | @unclosed line body us ts es hb _ ih =>
    have hn : ('"' :: body).count '\n' = body.count '\n' := by simp
    rw [List.flatten_cons, List.count_append, hn, ← Nat.add_assoc] at h' ⊢
    obtain ⟨xs, rfl, hy⟩ := ih h'
    exact ⟨xs, rfl, .unclosed hb hy⟩

/-! ## The scan of both texts -/

/-- **Scanning is compositional over lines.** If all strings of the text `a` are closed, then `a`, a line
end and `b` are scanned as the tokens of `a` but for the end of input, and those of `b`, which lie as many
lines further down as `a` and the line end take up; and so for the errors. -/
theorem scan_joined (a b : String) (h : ∀ e ∈ (scan a).errors, e.fault.code ≠ "L002") :
    let lines := 1 + a.toList.count '\n'
    ∃ ts, (scan a).tokens = ts ++ [endToken lines] ∧
      (scan (a ++ "\n" ++ b)).tokens = ts ++ (scan b).tokens.map (Token.shifted lines) ∧
      (scan (a ++ "\n" ++ b)).errors =
        (scan a).errors ++ (scan b).errors.map (LexicalError.shifted lines) := by
  intro lines
  obtain ⟨us, hta, hya⟩ := exists_tiling a
  obtain ⟨vs, htb, hyb⟩ := exists_tiling b
  have hlines : lines = 1 + us.flatten.count '\n' := by rw [tiling_flatten hta]
  have hbelow := yields_shifted hyb lines
  rw [Nat.add_comm] at hbelow
  have hbreak : Yields lines (['\n'] :: vs) _ _ := .skipped (.blank (by decide)) hbelow
  rw [hlines] at hbreak
  obtain ⟨ts, hts, hy⟩ := yields_joined hya hbreak
  have ht : Tiling (a ++ "\n" ++ b).toList (us ++ ['\n'] :: vs) := by
    rw [String.toList_append, String.toList_append, List.append_assoc]
    exact tiling_joined hta (closed_of_yields hya h) htb
  rw [scan_of_tiling ht hy, hlines]
  exact ⟨ts, hts, rfl, rfl⟩

/-- Above a text with a stray character, one with a string over two lines, a stray character and a
comment at its end. -/
theorem stray_below_comment :
    let a := "\"x\ny\" @ // 1"
    let b := "2 #"
    (∀ e ∈ (scan a).errors, e.fault.code ≠ "L002") ∧
      (scan (a ++ "\n" ++ b)).errors = [⟨.strayCharacter '@', 2⟩, ⟨.strayCharacter '#', 3⟩] ∧
      ∃ ts, (scan a).tokens = ts ++ [endToken 2] ∧
        (scan (a ++ "\n" ++ b)).tokens = ts ++ (scan b).tokens.map (Token.shifted 2) := by
  intro a b
  have ha : (scan a).errors = [⟨.strayCharacter '@', 2⟩] := by decide +kernel
  have hb : (scan b).errors = [⟨.strayCharacter '#', 1⟩] := by decide +kernel
  have hclosed : ∀ e ∈ (scan a).errors, e.fault.code ≠ "L002" := by
    rw [ha]
    decide
  have hlines : 1 + a.toList.count '\n' = 2 := by decide +kernel
  obtain ⟨ts, hts, htokens, herrors⟩ := scan_joined a b hclosed
  rw [hlines] at hts htokens herrors
  refine ⟨hclosed, ?_, ts, hts, htokens⟩
  rw [herrors, ha, hb]
  decide

end Trellis
