import Mathlib.Data.List.Forall2
import Trellis.Proofs.LineNumbers
import Trellis.Proofs.Run
import Trellis.Proofs.Sentence

/-!
# A stray character is as good as a space

A scan leaves out a character that begins no token and goes on behind it. It does so without harm to what
stands next to the character: where all such characters are replaced by spaces, the same tokens are found
on the same lines, and so the same tree.

* `strayOffsets`, `mended`: where a scan finds such characters, and the text with spaces there;
* `Blanked`: one text is the other, but with a space for some of these characters;
* `firstPiece_blanked`: what a text begins with does not depend on which of the two follows;
* `scan_mended`: **the text with spaces is scanned and parsed like the text with stray characters**.
-/

namespace Trellis

/-- A character that begins nothing. -/
def Foreign (c : Char) : Prop := ¬ Formed [c] ∧ c ≠ '"'

/-- The scan reports the piece as a character that begins nothing. -/
def Placed.isStray (p : Placed) : Bool := p.error?.any (·.fault.code = "L001")

/-- The offsets of the pieces that are reported as characters that begin nothing. -/
def straysOf (ps : List Placed) : List Nat := (ps.filter Placed.isStray).map Placed.offset

/-- The offsets at which a scan reports characters that begin nothing. -/
def strayOffsets (source : String) : List Nat := straysOf (placedPieces source)

/-- The text with a space for every character that a scan of it reports. -/
def mended (source : String) : String :=
  String.ofList (source.toList.mapIdx fun i c => if i ∈ strayOffsets source then ' ' else c)

/-- A text and the same text with a space for some of the characters that begin nothing. -/
def Blanked (text text' : List Char) : Prop :=
  List.Forall₂ (fun c d => c = d ∨ Foreign c ∧ d = ' ') text text'

/-- A piece and what is left of it: a space, of a character that begins nothing, or else the piece. -/
inductive Mends : List Char → List Char → Prop
  | kept {u : List Char} (h : ∀ c, Foreign c → u ≠ [c]) : Mends u u
  | blanked {c : Char} (h : Foreign c) : Mends [c] [' ']

variable {line : Nat} {c : Char} {w w' u u' rest rest' text : List Char} {us us' : List (List Char)}
  {ts : List Token} {es : List LexicalError}

/-! ## What stands behind a piece -/

theorem blanked_refl (text : List Char) : Blanked text text :=
  List.forall₂_same.2 fun _ _ => .inl rfl

theorem blanked_append {v' : List Char} (h : Blanked text (u' ++ v')) :
    ∃ u v, text = u ++ v ∧ Blanked u u' ∧ Blanked v v' :=
  ⟨_, _, (List.take_append_drop u'.length text).symm, List.forall₂_take_append _ _ _ h,
    List.forall₂_drop_append _ _ _ h⟩

/-- A character that is something is found where it was. -/
theorem blanked_cons {d : Char} (hd : d ≠ ' ') (h : Blanked text (d :: w')) :
    ∃ w, text = d :: w ∧ Blanked w w' := by
  cases h with
  | cons hc hw =>
    rcases hc with rfl | ⟨-, rfl⟩
    · exact ⟨_, rfl, hw⟩
    · exact absurd rfl hd

/-- Where no space is, none has been put. -/
theorem eq_of_blanked (h : Blanked w w') (hw : ' ' ∉ w') : w = w' := by
  induction h with
  | nil => rfl
  | cons hc _ ih =>
    obtain ⟨hhead, htail⟩ := not_or.1 (mt List.mem_cons.2 hw)
    rcases hc with rfl | ⟨-, rfl⟩
    · rw [ih htail]
    · exact absurd rfl hhead

theorem not_mem_of_blanked {d : Char} (hd : ¬ Foreign d) (h : Blanked w w') (hw : d ∉ w') : d ∉ w := by
  induction h with
  | nil => exact hw
  | cons hc _ ih =>
    obtain ⟨hhead, htail⟩ := not_or.1 (mt List.mem_cons.2 hw)
    rw [List.mem_cons, not_or]
    refine ⟨?_, ih htail⟩
    rintro rfl
    rcases hc with rfl | ⟨hf, -⟩
    · exact hhead rfl
    · exact hd hf

/-- Only strings and comments hold spaces behind their first character, and these may hold anything. -/
theorem formed_of_blanked (h : Formed (c :: w')) (hb : Blanked w w') : Formed (c :: w) := by
  have hsame : ' ' ∉ w' → Formed (c :: w) := by
    intro hw
    rwa [eq_of_blanked hb hw]
  have hnewline : ¬ Foreign '\n' := fun hf => hf.1 (.inr (.blank (by decide)))
  -- by the first character: in all other forms no space stands behind it
  rcases formed_cons.1 h with ⟨-, rfl⟩ | ⟨-, rfl | rfl⟩ | ⟨rfl, rfl | ⟨body, rfl, hbody⟩⟩ | ⟨-, rfl⟩ |
    ⟨rfl, body, rfl, hbody⟩ | hn | ⟨-, hw⟩
  · exact hsame (by simp)
  · exact hsame (by simp)
  · exact hsame (by decide)
  · exact hsame (by simp)
  · obtain ⟨body', rfl, hbody'⟩ := blanked_cons (by decide) hb
    exact formed_slash.2 (.inr ⟨_, rfl, not_mem_of_blanked hnewline hbody' hbody⟩)
  · exact hsame (by simp)
  · obtain ⟨body', q, rfl, hbody', hq⟩ := blanked_append hb
    obtain ⟨q, rfl, hnil⟩ := blanked_cons (by decide) hq
    obtain rfl := List.forall₂_nil_right_iff.1 hnil
    exact formed_quote.2 ⟨body', rfl, not_mem_of_blanked (fun hf => hf.2 rfl) hbody' hbody⟩
  · refine hsame fun hm => ?_
    rcases numeral_chars hn ' ' (List.mem_cons_of_mem c hm) with hd | hd
    · exact absurd hd (by decide)
    · exact absurd hd (by decide)
  · exact hsame fun hm => absurd (hw ' ' hm) (by decide)

/-- A text begins with the same piece whatever of the stray characters behind it are spaces. -/
theorem firstPiece_blanked (h : FirstPiece (c :: w ++ rest) (c :: w))
    (hw : ∀ d, Foreign d → c :: w ≠ [d]) (hb : Blanked rest rest') :
    FirstPiece (c :: w ++ rest') (c :: w) := by
  generalize ht : c :: w ++ rest = text at h
  cases h with
  | formed hf _ longest =>
    refine .formed hf (List.prefix_append _ rest') ?_
    -- what is formed with spaces behind is formed with the stray characters too, so is no longer
    intro u hu hp
    obtain ⟨v', rfl, x, hx⟩ := formed_beginning hu hp
    have hall : Blanked (w ++ rest) (v' ++ x) := by
      rw [hx]
      exact List.rel_append (blanked_refl w) hb
    obtain ⟨v, y, hv, hvv', -⟩ := blanked_append hall
    have hprefix : c :: v <+: text := by
      rw [← ht, List.cons_append, hv]
      exact ⟨y, rfl⟩
    have hlong := longest _ (formed_of_blanked hu hvv') hprefix
    rwa [List.length_cons, hvv'.length_eq] at hlong
  | unclosed none hq =>
    obtain rfl := List.append_right_eq_self.1 ht
    obtain rfl := List.forall₂_nil_left_iff.1 hb
    rw [List.append_nil]
    exact .unclosed none hq
  | stray none _ hq =>
    have hsingle : [c] <+: text := ⟨rest, ht⟩
    exact absurd rfl (hw c ⟨fun hf => none _ hf hsingle, hq⟩)

/-! ## The pieces of the mended text -/

theorem blanked_of_mends (h : List.Forall₂ Mends us us') : Blanked us.flatten us'.flatten := by
  refine List.rel_flatten (h.imp ?_)
  rintro u u' (_ | hc)
  · exact blanked_refl u
  · exact .cons (.inr ⟨hc, rfl⟩) .nil

theorem tiling_mended (h : Tiling text us) (hm : List.Forall₂ Mends us us') :
    Tiling us'.flatten us' := by
  induction h generalizing us' with
  | nil =>
    cases hm
    exact .nil
  | @cons u rest us hf hr ih =>
    cases hm with
    | cons hu hus =>
      have hb := blanked_of_mends hus
      rw [tiling_flatten hr] at hb
      cases hu with
      | kept hw =>
        cases u with
        | nil => exact absurd rfl (firstPiece_ne_nil hf)
        | cons c w => exact .cons (firstPiece_blanked hf hw hb) (ih hus)
      | blanked => exact .cons (u := [' ']) (firstPiece_blank (by decide) _) (ih hus)

/-- The mended pieces yield the same but for the stray characters. -/
theorem yields_mended (h : Yields line us ts es) (hm : List.Forall₂ Mends us us') :
    Yields line us' ts (es.filter (·.fault.code ≠ "L001")) := by
  induction h generalizing us' with
  | done =>
    cases hm
    exact .done
  | token hl _ ih =>
    cases hm with
    | cons hu hus =>
      cases hu with
      | kept => exact .token hl (ih hus)
      | blanked hc => exact absurd hl.formed hc.1
  | skipped hs _ ih =>
    cases hm with
    | cons hu hus =>
      cases hu with
      | kept => exact .skipped hs (ih hus)
      | blanked hc => exact absurd (.inr hs) hc.1
  | stray hf hq _ ih =>
    cases hm with
    | cons hu hus =>
      cases hu with
      | kept hw => exact absurd rfl (hw _ ⟨hf, hq⟩)
      | blanked => exact .skipped (.blank (by decide)) (ih hus)
  | unclosed hb _ ih =>
    cases hm with
    | cons hu hus =>
      cases hu with
      | kept => exact .unclosed hb (ih hus)
      | blanked hc => exact absurd rfl hc.2

/-! ## The mended text -/

/-- What is left of a piece. -/
def Piece.mended (p : Piece) : List Char := if p.form = .stray then [' '] else p.text

theorem foreign_of_stray (h : (Piece.read c rest).1.form = .stray) : Foreign c := by
  have hd := read_describes c rest
  rw [h, text_of_stray h] at hd
  obtain ⟨d, hd, hq⟩ := hd
  cases hd
  exact ⟨not_formed_of_read (.inl h) List.nil_prefix, hq⟩

/-- What has another form than a stray character begins something. -/
theorem not_foreign_of_describes {form : Form} (h : form.Describes [c]) (hf : form ≠ .stray) :
    ¬ Foreign c := by
  rintro ⟨hn, hq⟩
  cases form with
  | token k =>
    obtain ⟨v, hl⟩ := h
    exact hn hl.formed
  | layout => exact hn (.inr h)
  | stray => exact hf rfl
  | unclosed =>
    obtain ⟨body, hbody, -⟩ := h
    cases hbody
    exact hq rfl

theorem mends_read (c : Char) (rest : List Char) :
    Mends (Piece.read c rest).1.text (Piece.read c rest).1.mended := by
  by_cases hf : (Piece.read c rest).1.form = .stray
  · rw [Piece.mended, if_pos hf, text_of_stray hf]
    exact .blanked (foreign_of_stray hf)
  · rw [Piece.mended, if_neg hf]
    refine .kept ?_
    intro d hd htext
    have hform := read_describes c rest
    rw [htext] at hform
    exact not_foreign_of_describes hform hf hd

theorem mends_pieces (text : List Char) :
    List.Forall₂ Mends ((pieces text).map Piece.text) ((pieces text).map Piece.mended) := by
  fun_induction pieces text with
  | case1 => exact .nil
  | case2 c rest ih => exact .cons (mends_read c rest) ih

/-! ### Offsets along the pieces -/

theorem offset_le_of_place {ps : List Piece} {offset : Nat} :
    ∀ p ∈ place offset line ps, offset ≤ p.offset := by
  induction ps generalizing offset line with
  | nil => simp [place]
  | cons p ps ih =>
    refine List.forall_mem_cons.2 ⟨Nat.le_refl offset, fun q hq => ?_⟩
    exact Nat.le_trans (Nat.le_add_right _ _) (ih q hq)

theorem isStray_iff {p : Placed} (h : p.piece.text ≠ []) :
    p.isStray = true ↔ p.piece.form = .stray := by
  obtain ⟨⟨form, text⟩, offset, line⟩ := p
  cases text with
  | nil => exact absurd rfl h
  | cons c w => cases form <;> simp [Placed.isStray, Placed.error?, LexicalFault.code]

theorem straysOf_read (c : Char) (rest : List Char) (offset line : Nat) (ps : List Placed) :
    straysOf (⟨(Piece.read c rest).1, offset, line⟩ :: ps) =
      (if (Piece.read c rest).1.form = .stray then [offset] else []) ++ straysOf ps := by
  have hs := isStray_iff (p := ⟨(Piece.read c rest).1, offset, line⟩) (Piece.read_text_ne_nil c rest)
  unfold straysOf
  rw [List.filter_cons]
  split <;> simp_all

theorem le_of_mem_straysOf {ps : List Piece} {offset o : Nat}
    (h : o ∈ straysOf (place offset line ps)) : offset ≤ o := by
  obtain ⟨p, hp, rfl⟩ := List.mem_map.1 h
  exact offset_le_of_place p (List.mem_of_mem_filter hp)

/-- Of the offsets of one piece, at most the first is reported, and only that of a stray character. -/
theorem mapIdx_mended {p : Piece} {offset : Nat} {strays : List Nat}
    (hp : p.form = .stray → ∃ c, p.text = [c]) (hs : ∀ o ∈ strays, offset + p.text.length ≤ o) :
    p.text.mapIdx (fun i d =>
      if offset + i ∈ (if p.form = .stray then [offset] else []) ++ strays then ' ' else d) =
      p.mended := by
  by_cases hf : p.form = .stray
  · obtain ⟨c, hc⟩ := hp hf
    simp [Piece.mended, hf, hc]
  · rw [Piece.mended, if_neg hf, if_neg hf, List.nil_append]
    refine List.ext_getElem List.length_mapIdx ?_
    intro i hi hi'
    have hnot : offset + i ∉ strays := by
      intro hm
      have := hs _ hm
      omega
    rw [List.getElem_mapIdx, if_neg hnot]

/-- Along the pieces, the characters at the offsets that are reported are those of stray pieces. -/
theorem mapIdx_strays (text : List Char) (offset line : Nat) :
    text.mapIdx (fun i c =>
      if offset + i ∈ straysOf (place offset line (pieces text)) then ' ' else c) =
      ((pieces text).map Piece.mended).flatten := by
  fun_induction pieces text generalizing offset line with
  | case1 => rfl
  | case2 c rest ih =>
    have hpos := List.length_pos_iff.2 (Piece.read_text_ne_nil c rest)
    have hp : (Piece.read c rest).1.form = .stray → ∃ d, (Piece.read c rest).1.text = [d] :=
      fun h => ⟨c, text_of_stray h⟩
    rw [place, straysOf_read, ← Piece.read_text_append c rest]
    generalize (Piece.read c rest).1 = p at hpos hp ih ⊢
    rw [List.mapIdx_append, List.map_cons, List.flatten_cons, mapIdx_mended hp,
      ← ih (offset + p.text.length) (line + p.newlines)]
    · congr 2
      funext i d
      have hadd : offset + (i + p.text.length) = offset + p.text.length + i := by omega
      have hne : offset + p.text.length + i ≠ offset := by omega
      rw [hadd]
      split <;> simp [hne]
    · intro o ho
      exact le_of_mem_straysOf ho

theorem toList_mended (source : String) :
    (mended source).toList = ((pieces source.toList).map Piece.mended).flatten := by
  rw [mended, String.toList_ofList, ← mapIdx_strays source.toList 0 1]
  simp only [Nat.zero_add]
  rfl

/-! ### What is reported at an offset -/

/-- The error reports the character at an offset. -/
def StrayAt (text : List Char) (offset : Nat) (e : LexicalError) : Prop :=
  ∃ c, text[offset]? = some c ∧ e = ⟨.strayCharacter c, (lineAt text offset : Nat)⟩

theorem strayAt_of_place {n : Nat} (ht : text.drop n = rest) (hline : line = lineAt text n) :
    ∀ p ∈ place n line (pieces rest), p.isStray = true → ∃ e ∈ p.error?, StrayAt text p.offset e := by
  fun_induction pieces rest generalizing n line with
  | case1 => simp [place]
  | case2 c rest ih =>
    have hsplit := Piece.read_text_append c rest
    have hu : (Piece.read c rest).1.text <+: text.drop n := ⟨_, hsplit.trans ht.symm⟩
    refine List.forall_mem_cons.2 ⟨?_, ih ?_ ?_⟩
    · intro hs
      have hf : (Piece.read c rest).1.form = .stray :=
        (isStray_iff (Piece.read_text_ne_nil c rest)).1 hs
      have hc : text[n]? = some c := by rw [← List.head?_drop, ht, List.head?_cons]
      refine ⟨⟨.strayCharacter c, line⟩, ?_, c, hc, by rw [hline]⟩
      simp [Placed.error?, hf, text_of_stray hf]
    · rw [← List.drop_drop, ht, ← hsplit, List.drop_left]
    · rw [lineAt_add hu, ← hline, Piece.newlines]

/-- The offsets are those of the characters that are reported. -/
theorem strays_reported {ps : List Placed}
    (h : ∀ p ∈ ps, p.isStray = true → ∃ e ∈ p.error?, StrayAt text p.offset e) :
    List.Forall₂ (StrayAt text) (straysOf ps)
      ((ps.filterMap Placed.error?).filter (·.fault.code = "L001")) := by
  induction ps with
  | nil => exact .nil
  | cons p ps ih =>
    obtain ⟨hp, hps⟩ := List.forall_mem_cons.1 h
    cases he : p.error? with
    | none =>
      have hs : p.isStray = false := by simp [Placed.isStray, he]
      rw [straysOf, List.filter_cons_of_neg (by simp [hs]), List.filterMap_cons_none he]
      exact ih hps
    | some e =>
      rw [List.filterMap_cons_some he]
      by_cases hc : e.fault.code = "L001"
      · have hs : p.isStray = true := by simp [Placed.isStray, he, hc]
        rw [straysOf, List.filter_cons_of_pos hs, List.filter_cons_of_pos (by simpa using hc)]
        obtain ⟨e', he', hat⟩ := hp hs
        rw [he] at he'
        cases he'
        exact .cons hat (ih hps)
      · have hs : p.isStray = false := by simp [Placed.isStray, he, hc]
        rw [straysOf, List.filter_cons_of_neg (by simp [hs]), List.filter_cons_of_neg (by simpa using hc)]
        exact ih hps

theorem strayOffsets_reported (source : String) :
    List.Forall₂ (StrayAt source.toList) (strayOffsets source)
      ((scan source).errors.filter (·.fault.code = "L001")) :=
  strays_reported (strayAt_of_place rfl (lineAt_zero source.toList).symm)

/-! ## The scan and the parse -/

theorem scan_of_mended (source : String) : scan (mended source) =
    ⟨(scan source).tokens, (scan source).errors.filter (·.fault.code ≠ "L001")⟩ := by
  have hm := mends_pieces source.toList
  refine scan_of_tiling ?_ (yields_mended (yields_pieces source.toList 0 1) hm)
  rw [toList_mended]
  exact tiling_mended (tiling_pieces source.toList) hm

/-- The parse of a source text gives a tree, or none, and reports a syntax error, if any, behind the
lexical ones. -/
def GivesWith (source : String) (tree : Option Expr) (error? : Option ParseError) : Prop :=
  ∀ sink, (parseSource source sink).1 = tree ∧
    (parseSource source sink).2.diagnostics =
      sink.diagnostics ++ lexicalReports source ++ error?.toList.map ParseError.diagnostic

/-- The tokens tell the tree and the syntax error. -/
theorem givesWith_of_tokens (ts : List Token) : ∃ tree error?, tree.isSome = error?.isNone ∧
    ∀ source, (scan source).tokens = ts → GivesWith source tree error? := by
  obtain ⟨tree, report, hparses, hts⟩ := parsesTo ts
  cases hparses with
  | @tree e =>
    refine ⟨some e, none, rfl, fun source htokens sink => ?_⟩
    rw [parseSource, htokens, hts, id, diagnostics_scanned]
    exact ⟨rfl, by simp⟩
  | @error err =>
    refine ⟨none, some err, rfl, fun source htokens sink => ?_⟩
    rw [parseSource, htokens, hts, Sink.diagnostics_trace, Sink.diagnostics_add, diagnostics_scanned]
    exact ⟨rfl, rfl⟩

/-- **A stray character is as good as a space.** With spaces for the characters that a scan reports, the
same tokens are found on the same lines and no such character any more; a string that is not closed is
reported as before. The parse gives the same tree and reports the same syntax error, if any. -/
theorem scan_mended (source : String) :
    List.Forall₂ (StrayAt source.toList) (strayOffsets source)
      ((scan source).errors.filter (·.fault.code = "L001")) ∧
    (scan (mended source)).tokens = (scan source).tokens ∧
    (scan (mended source)).errors.filter (·.fault.code = "L001") = [] ∧
    (scan (mended source)).errors.filter (·.fault.code = "L002") =
      (scan source).errors.filter (·.fault.code = "L002") ∧
    ∃ tree error?, tree.isSome = error?.isNone ∧
      GivesWith source tree error? ∧ GivesWith (mended source) tree error? := by
  have hscan := scan_of_mended source
  obtain ⟨tree, error?, hone, hgives⟩ := givesWith_of_tokens (scan source).tokens
  refine ⟨strayOffsets_reported source, ?_, ?_, ?_, tree, error?, hone, hgives source rfl, ?_⟩
  · rw [hscan]
  · rw [hscan, List.filter_filter, List.filter_eq_nil_iff]
    simp
  · rw [hscan, List.filter_filter]
    congr 1
    funext e
    cases e.fault <;> rfl
  · refine hgives _ ?_
    rw [hscan]

/-- In strings and comments every character is left as it is. -/
example : mended "1@.5 \"@\" #//#\n$" = "1 .5 \"@\"  //#\n " := by decide +kernel

end Trellis
