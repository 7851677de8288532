import Trellis.Proofs.Joining
import Trellis.Proofs.Respaced

/-!
# Carriage returns at the line ends

Text that has a carriage return before each line end is scanned as the text without them. The carriage
return is a blank of its own, or the last character of a comment, and it ends every token but a string,
as the line end does. In a string over several lines it is kept, and only there it is found again.

* `crlf`: a text with a carriage return put before each line end;
* `begins_of_prefix`: what such a text begins with;
* `formed_of_crlf`, `skipped_of_cut`: what is formed in it;
* `firstPiece_crlf`, `exists_tiling_crlf`: the pieces of both texts;
* `scan_crlf`: **carriage returns at the line ends change strings at most**.
-/

namespace Trellis

/-- A carriage return before each line end. -/
def crlf (text : List Char) : List Char :=
  text.flatMap fun c => if c = '\n' then ['\r', '\n'] else [c]

/-- The text, with a carriage return before each line end. -/
def crlfText (text : String) : String := String.ofList (crlf text.toList)

/-- The value, with a carriage return before each line end of a text. -/
def Value.crlf : Value → Value
  | .text s => .text (crlfText s)
  | v => v

/-- The token, with a carriage return before each line end of its lexeme and its text. -/
def Token.crlf (t : Token) : Token :=
  { t with lexeme := crlfText t.lexeme, literal := t.literal.crlf }

variable {line : Nat} {c : Char} {u v w text rest : List Char} {us : List (List Char)}
  {k : TokenKind} {x : Value} {ts : List Token} {es : List LexicalError}

/-! ## Texts -/

@[simp] theorem crlf_nil : crlf [] = [] := rfl

@[simp] theorem crlf_newline (w : List Char) : crlf ('\n' :: w) = '\r' :: '\n' :: crlf w := rfl

@[simp] theorem crlf_append (u v : List Char) : crlf (u ++ v) = crlf u ++ crlf v :=
  List.flatMap_append

theorem crlf_cons (h : c ≠ '\n') (w : List Char) : crlf (c :: w) = c :: crlf w := by
  simp [crlf, h]

theorem crlf_singleton (h : c ≠ '\n') : crlf [c] = [c] := crlf_cons h []

theorem mem_crlf {d : Char} (h : d ≠ '\r') : d ∈ crlf w ↔ d ∈ w := by
  induction w with
  | nil => simp
  | cons c w ih =>
    by_cases hc : c = '\n'
    · subst hc
      simp [ih, h]
    · simp [crlf_cons hc, ih]

theorem crlf_of_not_mem (h : '\n' ∉ w) : crlf w = w := by
  induction w with
  | nil => rfl
  | cons c w ih =>
    obtain ⟨hc, hw⟩ := not_or.1 (mt List.mem_cons.2 h)
    rw [crlf_cons (Ne.symm hc), ih hw]

theorem newlines_crlf (w : List Char) : (crlf w).count '\n' = w.count '\n' := by
  induction w with
  | nil => rfl
  | cons c w ih =>
    by_cases hc : c = '\n'
    · subst hc
      simp [ih]
    · simp [crlf_cons hc, ih, List.count_cons]

/-- The text that has the carriage returns begins in this way: with a beginning of the text without
them, which may be followed by the carriage return of the next line end. -/
inductive Begins (text : List Char) : List Char → Prop
  | whole {w : List Char} (h : w <+: text) : Begins text (crlf w)
  | cut {w : List Char} (h : w ++ ['\n'] <+: text) : Begins text (crlf w ++ ['\r'])

theorem begins_cons (h : Begins text v) (c : Char) : Begins (c :: text) (crlf [c] ++ v) := by
  cases h with
  | @whole w h =>
    rw [← crlf_append]
    exact .whole ((List.prefix_cons_inj c).2 h)
  | @cut w h =>
    rw [← List.append_assoc, ← crlf_append]
    exact .cut ((List.prefix_cons_inj c).2 h)

theorem begins_of_prefix (h : v <+: crlf text) : Begins text v := by
  induction text generalizing v with
  | nil =>
    obtain rfl := List.prefix_nil.1 h
    exact .whole List.nil_prefix
  | cons c text ih =>
    by_cases hc : c = '\n'
    · subst hc
      rw [crlf_newline] at h
      rcases List.prefix_cons_iff.1 h with rfl | ⟨v, rfl, hv⟩
      · exact .whole List.nil_prefix
      · rcases List.prefix_cons_iff.1 hv with rfl | ⟨v, rfl, htail⟩
        · exact .cut (w := []) ⟨text, rfl⟩
        · exact begins_cons (ih htail) '\n'
    · rw [crlf_cons hc] at h
      rcases List.prefix_cons_iff.1 h with rfl | ⟨v, rfl, hv⟩
      · exact .whole List.nil_prefix
      · have hbegins := begins_cons (ih hv) c
        rwa [crlf_singleton hc] at hbegins

/-! ## Forms -/

theorem lexeme_crlf (h : Lexeme u k x) : Lexeme (crlf u) k x.crlf := by
  have hline := newlines_of_lexeme h
  cases valued_of_lexeme h with
  | @string body hq =>
    have hu : crlf ('"' :: (body ++ ['"'])) = '"' :: (crlf body ++ ['"']) := by
      rw [crlf_cons (by decide), crlf_append]
      rfl
    have hx : (Value.text (String.ofList body)).crlf = .text (String.ofList (crlf body)) := by
      rw [Value.crlf, crlfText, String.toList_ofList]
    rw [hu, hx]
    exact .string (mt (mem_crlf (by decide)).1 hq)
  | number =>
    rw [crlf_of_not_mem (hline (by decide))]
    exact h
  | symbol hk =>
    rw [crlf_of_not_mem (hline (by rintro rfl; exact hk (by decide)))]
    exact h

/-- A quote at the end was there without the carriage returns. -/
theorem crlf_eq_concat {body : List Char} (h : crlf w = body ++ ['"']) :
    ∃ v, w = v ++ ['"'] ∧ crlf v = body := by
  rcases List.eq_nil_or_concat w with rfl | ⟨v, d, rfl⟩
  · simp at h
  · rw [List.concat_eq_append, crlf_append] at h
    by_cases hd : d = '\n'
    · subst hd
      have hlast := congrArg List.getLast? h
      simp at hlast
    · rw [crlf_cons hd] at h
      obtain ⟨hv, hd⟩ := List.append_inj' h rfl
      cases hd
      exact ⟨v, List.concat_eq_append, hv⟩

/-- What is formed with the carriage returns is formed without them. -/
theorem formed_of_crlf (h : Formed (crlf u)) : Formed u := by
  by_cases hn : '\n' ∈ u
  · cases u with
    | nil => exact absurd hn List.not_mem_nil
    | cons c w =>
      by_cases hc : c = '\n'
      · subst hc
        rw [crlf_newline, formed_blank (by decide)] at h
        cases h
      · rw [crlf_cons hc] at h
        -- over a line end only a string is formed
        obtain ⟨v, rest, rfl⟩ := List.append_of_mem (List.mem_of_ne_of_mem (Ne.symm hc) hn)
        have hsplit : crlf (v ++ '\n' :: rest) = (crlf v ++ ['\r']) ++ '\n' :: crlf rest := by simp
        have hopen := h
        rw [hsplit] at hopen
        obtain ⟨_, hquote, -⟩ := unclosed_of_formed hopen
        cases hquote
        obtain ⟨body, hbody, hq⟩ := formed_quote.1 h
        obtain ⟨body', hw, rfl⟩ := crlf_eq_concat hbody
        exact formed_quote.2 ⟨body', hw, mt (mem_crlf (by decide)).2 hq⟩
  · rwa [crlf_of_not_mem hn] at h

/-- What is formed and ends with the carriage return of a line end is a comment, or that carriage return
alone. So the text without it begins with a comment or a line end. -/
theorem skipped_of_cut (h : Formed (crlf u ++ ['\r'])) (hp : u ++ ['\n'] <+: text) :
    ∃ v, FirstPiece text v ∧ Skipped v := by
  obtain ⟨rest, rfl⟩ := hp
  rw [List.append_assoc, List.singleton_append]
  cases u with
  | nil => exact ⟨['\n'], firstPiece_blank (by decide) rest, .blank (by decide)⟩
  | cons c w =>
    have hc : c ≠ '\n' := by
      rintro rfl
      have hnil := (formed_blank (by decide)).1 h
      simp at hnil
    rw [crlf_cons hc, List.cons_append] at h
    have hr : '\r' ∈ crlf w ++ ['\r'] := by simp
    -- by the first character: no other form goes on with a carriage return
    rcases formed_cons.1 h with ⟨-, hw⟩ | ⟨-, hw | hw⟩ | ⟨rfl, hw | ⟨body, hw, hb⟩⟩ | ⟨-, hw⟩ |
      ⟨-, body, hw, -⟩ | hw | ⟨-, hw⟩
    · simp at hw
    · simp at hw
    · rw [hw] at hr
      exact absurd hr (by decide)
    · simp at hw
    · have hw' : '\n' ∉ w := by
        intro hn
        have hmem : '\n' ∈ crlf w ++ ['\r'] := List.mem_append_left _ ((mem_crlf (by decide)).2 hn)
        rw [hw] at hmem
        exact hb (List.mem_of_ne_of_mem (by decide) hmem)
      rw [crlf_of_not_mem hw'] at hw
      cases w with
      | nil => cases hw
      | cons d w =>
        cases hw
        have hbody : '\n' ∉ w := fun hn => hw' (List.mem_cons_of_mem _ hn)
        exact ⟨_, firstPiece_comment hbody (by simp), .comment hbody⟩
    · simp at hw
    · obtain ⟨-, hw⟩ := List.append_inj' hw rfl
      cases hw
    · rcases numeral_chars hw '\r' (List.mem_cons_of_mem c hr) with hd | hd
      · exact absurd hd (by decide)
      · exact absurd hd (by decide)
    · exact absurd (hw '\r' hr) (by decide)

/-! ## Pieces -/

theorem prefix_crlf (h : u <+: text) : crlf u <+: crlf text := by
  obtain ⟨rest, rfl⟩ := h
  rw [crlf_append]
  exact List.prefix_append _ _

theorem head?_crlf (h : text.head? = some c) (hc : c ≠ '\n') : (crlf text).head? = some c := by
  cases text with
  | nil => cases h
  | cons d w =>
    cases h
    rw [crlf_cons hc]
    rfl

/-- What is not skipped is cut off with its carriage returns. -/
theorem firstPiece_crlf (h : FirstPiece text u) (hu : ¬ Skipped u) :
    FirstPiece (crlf text) (crlf u) := by
  have hwithin : ∀ v, Formed v → v <+: crlf text → ∃ w, v = crlf w ∧ Formed w ∧ w <+: text := by
    intro v hv hp
    cases begins_of_prefix hp with
    | whole hw => exact ⟨_, rfl, formed_of_crlf hv, hw⟩
    | cut hw =>
      obtain ⟨v', hfirst, hskipped⟩ := skipped_of_cut hv hw
      rw [firstPiece_unique h hfirst] at hu
      exact absurd hskipped hu
  have hnone : (∀ w, Formed w → ¬ w <+: text) → ∀ v, Formed v → ¬ v <+: crlf text := by
    intro none v hv hp
    obtain ⟨w, -, hw, hwp⟩ := hwithin v hv hp
    exact none w hw hwp
  cases h with
  | formed hf hp longest =>
    obtain ⟨k, x, hl⟩ := hf.resolve_right hu
    refine .formed (lexeme_crlf hl).formed (prefix_crlf hp) ?_
    intro v hv hpv
    obtain ⟨w, rfl, hw, hwp⟩ := hwithin v hv hpv
    have hwu := List.prefix_of_prefix_length_le hwp hp (longest w hw hwp)
    exact (prefix_crlf hwu).length_le
  | unclosed none hq => exact .unclosed (hnone none) (head?_crlf hq (by decide))
  | @stray c none hc hq =>
    have hn : c ≠ '\n' := by
      rintro rfl
      exact hu (.blank (by decide))
    rw [crlf_singleton hn]
    exact .stray (hnone none) (head?_crlf hc hn) hq

/-- A comment goes on to its line end. -/
theorem head?_behind_comment {body : List Char} (hb : '\n' ∉ body)
    (h : FirstPiece ('/' :: '/' :: (body ++ rest)) ('/' :: '/' :: body)) :
    ∀ d ∈ rest.head?, d = '\n' := by
  have hfirst := firstPiece_slashes (body ++ rest)
  rw [List.takeWhile_append_of_pos (all_ne_of_not_mem hb)] at hfirst
  have hend := firstPiece_unique h hfirst
  simp only [List.cons.injEq, true_and, List.self_eq_append_right] at hend
  cases rest with
  | nil => simp
  | cons d rest =>
    rintro _ ⟨⟩
    by_cases hd : d = '\n'
    · exact hd
    · simp [hd] at hend

theorem yields_behind (h : Yields line (u :: us) ts es) (hu : Skipped u) :
    Yields (line + u.count '\n') us ts es := by
  cases h with
  | skipped _ hr => exact hr
  | token hl => exact absurd hu (not_skipped hl)
  | stray hf => exact absurd (.inr hu) hf
  | unclosed hb => exact absurd (.inr hu) (not_formed_unclosed hb)

theorem newlines_comment {body : List Char} (hb : '\n' ∉ body) :
    ('/' :: '/' :: body).count '\n' = 0 := by
  simpa using List.count_eq_zero.2 hb

/-- A comment takes the carriage return of its line end. -/
theorem exists_tiling_comment {body : List Char} {vs : List (List Char)} (hb : '\n' ∉ body)
    (hend : ∀ d ∈ rest.head?, d = '\n') (ht : Tiling (crlf rest) vs) (hy : Yields line vs ts es) :
    ∃ ws, Tiling ('/' :: '/' :: (body ++ crlf rest)) ws ∧ Yields line ws ts es := by
  cases rest with
  | nil =>
    have hfirst : FirstPiece ('/' :: '/' :: body ++ crlf []) ('/' :: '/' :: body) :=
      firstPiece_comment hb (by simp)
    refine ⟨_, .cons hfirst ht, .skipped (.comment hb) ?_⟩
    rwa [newlines_comment hb]
  | cons d rest =>
    obtain rfl := hend d rfl
    -- the carriage return, a piece of its own behind anything else, goes to the comment
    have hreturn := Tiling.cons (u := ['\r']) (firstPiece_blank (by decide) ('\n' :: crlf rest))
      (tiling_pieces ('\n' :: crlf rest))
    obtain rfl := tiling_unique ht hreturn
    have hbody : '\n' ∉ body ++ ['\r'] := by simpa using hb
    have hfirst : FirstPiece ('/' :: '/' :: (body ++ ['\r']) ++ '\n' :: crlf rest)
        ('/' :: '/' :: (body ++ ['\r'])) := firstPiece_comment hbody (by simp)
    have htiling := Tiling.cons hfirst (tiling_pieces ('\n' :: crlf rest))
    refine ⟨_, by simpa using htiling, .skipped (.comment hbody) ?_⟩
    rw [newlines_comment hbody]
    exact yields_behind hy (.blank (by decide))

theorem exists_tiling_blank {vs : List (List Char)} (hc : c ∈ blanks) (ht : Tiling (crlf rest) vs)
    (hy : Yields (line + [c].count '\n') vs ts es) :
    ∃ ws, Tiling (crlf [c] ++ crlf rest) ws ∧ Yields line ws ts es := by
  by_cases hn : c = '\n'
  · subst hn
    have hline := Tiling.cons (u := ['\n']) (firstPiece_blank hc (crlf rest)) ht
    have hreturn : '\r' ∈ blanks := by decide
    exact ⟨_, .cons (u := ['\r']) (firstPiece_blank hreturn _) hline,
      .skipped (.blank hreturn) (.skipped (.blank hc) hy)⟩
  · rw [crlf_singleton hn]
    exact ⟨_, .cons (u := [c]) (firstPiece_blank hc _) ht, .skipped (.blank hc) hy⟩

/-- Where the text yields tokens and errors, the text with the carriage returns yields the same errors,
and the tokens with their carriage returns. -/
theorem exists_tiling_crlf (ht : Tiling text us) (hy : Yields line us ts es) :
    ∃ vs, Tiling (crlf text) vs ∧ Yields line vs (ts.map Token.crlf) es := by
  induction ht generalizing line ts es with
  | nil =>
    cases hy
    exact ⟨[], .nil, .done⟩
  | @cons u rest us hf hr ih =>
    have hfirst := firstPiece_crlf hf
    rw [crlf_append] at hfirst ⊢
    cases hy with
    | @token _ _ k x _ _ _ hl hy =>
      obtain ⟨vs, ht, hy⟩ := ih hy
      rw [← newlines_crlf] at hy
      have htoken : (⟨k, String.ofList u, x, line⟩ : Token).crlf =
          ⟨k, String.ofList (crlf u), x.crlf, line⟩ := by
        simp [Token.crlf, crlfText]
      rw [List.map_cons, htoken]
      exact ⟨_, .cons (hfirst (not_skipped hl)) ht, .token (lexeme_crlf hl) hy⟩
    | skipped hs hy =>
      obtain ⟨vs, ht, hy⟩ := ih hy
      cases hs with
      | blank hc => exact exists_tiling_blank hc ht hy
      | @comment body hb =>
        rw [newlines_comment hb] at hy
        have hcomment : crlf ('/' :: '/' :: body) = '/' :: '/' :: body :=
          crlf_of_not_mem (by simpa using hb)
        rw [hcomment]
        exact exists_tiling_comment hb (head?_behind_comment hb hf) ht hy
    | @stray _ c _ _ _ hn hq hy =>
      obtain ⟨vs, ht, hy⟩ := ih hy
      have hc : c ≠ '\n' := by
        rintro rfl
        exact hn (.inr (.blank (by decide)))
      have hstray := hfirst fun hs => hn (.inr hs)
      rw [crlf_singleton hc] at hstray ⊢
      exact ⟨_, .cons hstray ht, .stray hn hq hy⟩
    | @unclosed _ body _ _ _ hb hy =>
      obtain ⟨vs, ht, hy⟩ := ih hy
      have hquote : crlf ('"' :: body) = '"' :: crlf body := crlf_cons (by decide) body
      have hopen := hfirst fun hs => not_formed_unclosed hb (.inr hs)
      rw [hquote] at hopen ⊢
      rw [← newlines_crlf] at hy ⊢
      exact ⟨_, .cons hopen ht, .unclosed (mt (mem_crlf (by decide)).1 hb) hy⟩

/-! ## The scan -/

theorem crlfText_of_not_mem {s : String} (h : '\n' ∉ s.toList) : crlfText s = s := by
  rw [crlfText, crlf_of_not_mem h, String.ofList_toList]

theorem Token.crlf_eq {t : Token} (h : '\n' ∉ t.lexeme.toList) (hv : t.literal.crlf = t.literal) :
    t.crlf = t := by
  rw [Token.crlf, crlfText_of_not_mem h, hv]

/-- Only a string over several lines is another token with the carriage returns. -/
theorem string_of_crlf_ne (h : Lexeme u k x) (line : Int)
    (hne : (⟨k, String.ofList u, x, line⟩ : Token).crlf ≠ ⟨k, String.ofList u, x, line⟩) :
    k = .string ∧ '\n' ∈ u := by
  have hsame : '\n' ∉ u → x.crlf = x → False := by
    intro hu hx
    exact hne (Token.crlf_eq (by rwa [String.toList_ofList]) hx)
  have hline := newlines_of_lexeme h
  cases valued_of_lexeme h with
  | @string body =>
    refine ⟨rfl, Decidable.byContradiction fun hn => hsame hn ?_⟩
    have hbody : '\n' ∉ body := fun hb => hn (List.mem_cons_of_mem _ (List.mem_append_left _ hb))
    rw [Value.crlf, crlfText_of_not_mem (by rwa [String.toList_ofList])]
  | number => exact absurd rfl (hsame (hline (by decide)))
  | symbol hk => exact absurd rfl (hsame (hline (by rintro rfl; exact hk (by decide))))

/-- **Carriage returns at the line ends change strings at most.** The text with a carriage return before
each line end is scanned as the same tokens, of the same kinds, on the same lines and with the same
numbers, and with the same errors; only in a string over several lines the carriage returns are found. -/
theorem scan_crlf (source : String) :
    scan (crlfText source) = ⟨(scan source).tokens.map Token.crlf, (scan source).errors⟩ ∧
    ∀ t ∈ (scan source).tokens, t.crlf ≠ t → t.kind = .string ∧ '\n' ∈ t.lexeme.toList := by
  constructor
  · obtain ⟨us, ht, hy⟩ := exists_tiling source
    obtain ⟨vs, ht', hy'⟩ := exists_tiling_crlf ht hy
    refine scan_of_tiling ?_ hy'
    rwa [crlfText, String.toList_ofList]
  · obtain ⟨ts, last, htokens, hlexemes⟩ := lexemes_of_scan source
    rw [htokens, List.forall_mem_append, List.forall_mem_singleton]
    refine ⟨?_, fun hne => absurd rfl hne⟩
    intro t ht hne
    refine string_of_crlf_ne (hlexemes t ht) t.line ?_
    rwa [String.ofList_toList]

/-- The carriage returns behind a number and its point, in a string, and at the end of a comment. -/
theorem carriage_return_in_string :
    let source := "1.\n\"a\nb\" // c\n@"
    let t : Token := ⟨.string, "\"a\nb\"", .text "a\nb", 2⟩
    t ∈ (scan source).tokens ∧ t.crlf ≠ t ∧ (t.kind = .string ∧ '\n' ∈ t.lexeme.toList) ∧
      scan (crlfText source) = ⟨(scan source).tokens.map Token.crlf, (scan source).errors⟩ ∧
      (scan source).tokens.map (Token.lexeme ∘ Token.crlf) = ["1", ".", "\"a\r\nb\"", ""] ∧
      (scan source).errors = [⟨.strayCharacter '@', 4⟩] := by
  intro source t
  have ht : t ∈ (scan source).tokens := by decide +kernel
  have hne : t.crlf ≠ t := by decide +kernel
  obtain ⟨hscan, honly⟩ := scan_crlf source
  exact ⟨ht, hne, honly t ht hne, hscan, by decide +kernel, by decide +kernel⟩

end Trellis
