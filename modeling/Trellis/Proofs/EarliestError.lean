import Trellis.Proofs.Extension
import Trellis.Proofs.Session
import Trellis.Proofs.Stopping

/-!
# Syntax errors are found at the earliest token

A parse that fails does so at the first token that cannot be part of an expression, or that opens more
than the nesting limit allows. What has been read and at most one more token tell the error.

* `Parser.FailsAfter`, `Parser.FailsWith`: a parse fails with an error, or a code, after some tokens;
* `fails_P005_iff`, `fails_P001_iff`, `fails_P006_iff`: when each of the three errors is raised;
* `OutOfPlace`, `NestedTooDeeply`, `Located`: what an error says of the tokens and of its place;
* `syntax_error_earliest`: every failing parse is of this kind.
-/

namespace Trellis

open Phase

/-! ## Where a parse fails -/

/-- A parse from the cursor on fails with the error, raised just after the tokens `read`: it gives no
tree and reports one diagnostic. -/
structure Parser.FailsAfter (p : Parser) (read : List Token) (err : ParseError) : Prop where
  noTree : p.parse.1 = none
  reported : p.parse.2.sink.diagnostics = p.sink.diagnostics ++ [err.diagnostic]
  raised : ∃ q, ({ p with depth := 0 } : Parser).runRule .expression = (.error err, q) ∧
    q.current = p.current + read.length

variable {p : Parser} {read rest : List Token} {err : ParseError}

theorem failsAfter_of_reads {f : Failure} (hc : p.current ≤ p.tokens.length)
    (h : p.rest = read ++ f.rest)
    (hr : Reads p.endLine (.rule .expression) 0 p.rest (.error f)) : p.FailsAfter read f.error := by
  obtain ⟨hnone, hsink⟩ := Parser.parse_of_error hr
  refine ⟨hnone, hsink, _, Parser.runRule_of_error (p := { p with depth := 0 }) hr, ?_⟩
  have hlen := p.length_rest
  have hsum : p.rest.length = read.length + f.rest.length := by rw [h, List.length_append]
  simp only [Parser.reportError]
  omega

theorem reads_of_failsAfter (hc : p.current ≤ p.tokens.length) (h : p.rest = read ++ rest)
    (hf : p.FailsAfter read err) :
    ∃ f, Reads p.endLine (.rule .expression) 0 p.rest (.error f) ∧ f.error = err ∧ f.rest = rest := by
  obtain ⟨q, hq, hcur⟩ := hf.raised
  rcases p.parse_cases with ⟨e, us, hr⟩ | ⟨f, hr⟩
  · rw [Parser.runRule_of_ok (p := { p with depth := 0 }) hr] at hq
    cases hq
  · rw [Parser.runRule_of_error (p := { p with depth := 0 }) hr] at hq
    cases hq
    obtain ⟨w, hw, -⟩ := extends_of_reads_error hr
    have hrest : p.rest = w ++ f.rest := hw
    have hlen := p.length_rest
    have hsum : p.rest.length = w.length + f.rest.length := by rw [hrest, List.length_append]
    simp only [Parser.reportError] at hcur
    exact ⟨f, hr, rfl, (List.append_inj (h.symm.trans hrest) (by omega)).2.symm⟩

theorem ends_of_reads {f : Failure} (hr : Reads p.endLine (.rule .expression) 0 p.rest (.error f))
    (h : p.rest = read ++ f.rest) : ∃ m, (operand []).Ends maxNestingDepth read f.rest m ∧
      Reports maxNestingDepth p.endLine read m f := by
  obtain ⟨w, m, hw, hends, hrep⟩ := ends_of_reads_error (s := []) hr rfl rfl
  obtain rfl : w = read := List.append_cancel_right (hw.symm.trans h)
  rw [Nat.zero_max] at hends hrep
  exact ⟨m, hends, hrep⟩

/-- Where reading stops short of an expression, an error is raised. -/
theorem failsAfter_of_ends (hc : p.current ≤ p.tokens.length) (h : p.rest = read ++ rest) {m : Phase}
    (hends : (operand []).Ends maxNestingDepth read rest m) (hm : m ≠ .operator []) :
    ∃ err f, p.FailsAfter read err ∧ Reports maxNestingDepth p.endLine read m f ∧ f.error = err := by
  rcases p.parse_cases with ⟨e, us, hr⟩ | ⟨f, hr⟩
  · obtain ⟨w, hw, hd, hend, hfit⟩ := reads_ok_iff.1 hr
    have hle : 0 + e.nesting ≤ max 0 maxNestingDepth := Expr.fits_le hfit
    have hsame := ends_unique hends (ends_of_derives hd (by omega) hend) (h.symm.trans hw)
    exact absurd hsame.2.2 hm
  · obtain ⟨w, hw, -⟩ := extends_of_reads_error hr
    obtain ⟨m', hends', hrep⟩ := ends_of_reads hr hw
    obtain ⟨rfl, rfl, rfl⟩ := ends_unique hends hends' (h.symm.trans hw)
    exact ⟨f.error, f, failsAfter_of_reads hc h hr, hrep, rfl⟩

/-! ## What the error says -/

/-- How many groups and prefix operators are open after the tokens, which an expression begins with. -/
def openAfter (w : List Token) : Option Nat := ((operand []).run w).map depth

/-- After every beginning of the tokens, the open groups and prefix operators are within the limit. -/
def WithinLimit (w : List Token) : Prop := ∀ u, u <+: w → ∀ n ∈ openAfter u, n ≤ maxNestingDepth

/-- An operand is due, and the next token does not begin one. -/
structure OperandMissing (read rest : List Token) : Prop where
  due : ∃ s, (operand []).run read = some (.operand s)
  next : ∀ t ∈ rest.head?, (∀ v, ¬ Leaf t v) ∧ t.kind ∉ prefixOperators ∧ t.kind ≠ .leftParen

/-- A complete expression stands in a group that has been opened where an operand was due, and the
next token neither closes the group nor is a binary operator. -/
structure GroupUnclosed (read rest : List Token) : Prop where
  inner : ∃ outer g inner e, read = outer ++ g :: inner ∧ g.kind = .leftParen ∧
    (∃ s, (operand []).run outer = some (.operand s)) ∧ Derives .expression inner e
  next : ∀ t ∈ rest.head?, t.kind ≠ .rightParen ∧ ¬ Rule.expression.Continues t

/-- The last token opens one group or prefix operator more than the limit allows, the first to do so. -/
structure OpensTooMuch (read : List Token) : Prop where
  opened : openAfter read = some (maxNestingDepth + 1)
  before : ∀ u, u <+: read → u ≠ read → ∀ n ∈ openAfter u, n ≤ maxNestingDepth

theorem withinLimit_iff : WithinLimit read ↔ (operand []).Shallow maxNestingDepth read := by
  simp [WithinLimit, openAfter, Shallow]

theorem withinLimit_of_ends {m : Phase} (h : (operand []).Ends maxNestingDepth read rest m)
    (hm : m.depth ≤ maxNestingDepth) : WithinLimit read := by
  rw [withinLimit_iff]
  intro u hu n hn
  by_cases he : u = read
  · subst he
    rw [h.run] at hn
    cases hn
    exact hm
  · exact h.shallow u hu he n hn

theorem ends_of_withinLimit {m : Phase} (hw : WithinLimit read) (hrun : (operand []).run read = some m)
    (hstop : ∀ t ∈ rest.head?, m.step t = none) :
    (operand []).Ends maxNestingDepth read rest m ∧ m.depth ≤ maxNestingDepth := by
  rw [withinLimit_iff] at hw
  have hends : (operand []).Ends maxNestingDepth read rest m := by
    constructor
    · exact hrun
    · intro u hu _
      exact hw u hu
    · intro _
      exact hstop
  exact ⟨hends, hw read (List.prefix_refl read) m hrun⟩

theorem operandMissing_iff : OperandMissing read rest ↔
    ∃ s, (operand []).run read = some (.operand s) ∧
      ∀ t ∈ rest.head?, (Phase.operand s).step t = none := by
  have hnext (s : List Opening) (t : Token) : (Phase.operand s).step t = none ↔
      (∀ v, ¬ Leaf t v) ∧ t.kind ∉ prefixOperators ∧ t.kind ≠ .leftParen := by
    rw [step_operand_eq_none, Option.eq_none_iff_forall_ne_some]
    simp only [leaf_iff, ne_eq]
  constructor
  · rintro ⟨⟨s, hs⟩, h⟩
    refine ⟨s, hs, ?_⟩
    intro t ht
    exact (hnext s t).2 (h t ht)
  · rintro ⟨s, hs, h⟩
    refine ⟨⟨s, hs⟩, ?_⟩
    intro t ht
    exact (hnext s t).1 (h t ht)

/-- Behind a complete expression in a group, the group is what is open innermost. -/
theorem run_of_group {outer inner : List Token} {g : Token} {e : Expr} {s : List Opening}
    (ho : (operand []).run outer = some (.operand s)) (hg : g.kind = .leftParen)
    (hi : Derives .expression inner e) :
    (operand []).run (outer ++ g :: inner) = some (.operator (.group :: s)) := by
  rw [run_append, ho, Option.bind_some, run_cons, step_leftParen hg, Option.bind_some,
    run_of_derives hi, settle_group]

/-- A group only opens where an operand is due. -/
theorem operand_of_step_leftParen {m n : Phase} {g : Token} (hg : g.kind = .leftParen)
    (h : m.step g = some n) : ∃ s, m = .operand s := by
  cases m with
  | operand s => exact ⟨s, rfl⟩
  | operator s =>
    have hnone : (Phase.operator s).step g = none := by
      refine step_operator_eq_none.2 ⟨?_, by simp [hg]⟩
      rintro ⟨l, -, hl⟩
      cases l <;> simp [Level.operators, hg] at hl
    rw [hnone] at h
    cases h

@[simp] theorem code_failAt (fault : ParseFault) (endLine : Int) (d : Nat) (us : List Token) :
    (Rule.failAt fault endLine d us).error.diagnostic.code = some fault.code := rfl

@[simp] theorem code_failNested (t : Token) (d : Nat) (us : List Token) :
    (Rule.failNested t d us).error.diagnostic.code = some "P006" := rfl

/-- A parse from the cursor on fails with an error of the code, raised just after the tokens `read`. -/
def Parser.FailsWith (p : Parser) (read : List Token) (code : String) : Prop :=
  ∃ err, p.FailsAfter read err ∧ err.diagnostic.code = some code

theorem fails_P005_iff (hc : p.current ≤ p.tokens.length) (h : p.rest = read ++ rest) :
    p.FailsWith read "P005" ↔ WithinLimit read ∧ OperandMissing read rest := by
  rw [operandMissing_iff]
  constructor
  · rintro ⟨err, hr, hcode⟩
    obtain ⟨f, hreads, rfl, rfl⟩ := reads_of_failsAfter hc h hr
    obtain ⟨m, hends, hrep⟩ := ends_of_reads hreads h
    cases hrep with
    | operandExpected fits =>
      exact ⟨withinLimit_of_ends hends fits, _, hends.run, hends.stop fits⟩
    | missingParen | nestedTooDeeply => simp [ParseFault.code, missingParen] at hcode
  · rintro ⟨hw, s, hs, hstop⟩
    obtain ⟨hends, hle⟩ := ends_of_withinLimit hw hs hstop
    obtain ⟨err, f, hr, hrep, rfl⟩ := failsAfter_of_ends hc h hends (by simp)
    cases hrep with
    | operandExpected => exact ⟨_, hr, rfl⟩
    | nestedTooDeeply _ deep =>
      simp only [depth] at hle
      omega

theorem fails_P001_iff (hc : p.current ≤ p.tokens.length) (h : p.rest = read ++ rest) :
    p.FailsWith read "P001" ↔ WithinLimit read ∧ GroupUnclosed read rest := by
  constructor
  · rintro ⟨err, hr, hcode⟩
    obtain ⟨f, hreads, rfl, rfl⟩ := reads_of_failsAfter hc h hr
    obtain ⟨m, hends, hrep⟩ := ends_of_reads hreads h
    cases hrep with
    | @missingParen _ us s fits =>
      refine ⟨withinLimit_of_ends hends fits, ?_, ?_⟩
      · obtain ⟨outer, g, inner, e, hsplit, hg, hd⟩ := group_of_reads_error hreads rfl
        have hread : read = outer ++ g :: inner :=
          List.append_cancel_right (h.symm.trans hsplit)
        have hrun := hends.run
        rw [hread, run_append, Option.bind_eq_some_iff] at hrun
        obtain ⟨m, hm, hrun⟩ := hrun
        rw [run_cons, Option.bind_eq_some_iff] at hrun
        obtain ⟨n, hn, -⟩ := hrun
        obtain ⟨s, rfl⟩ := operand_of_step_leftParen hg hn
        exact ⟨outer, g, inner, e, hread, hg, ⟨s, hm⟩, hd⟩
      · intro t ht
        obtain ⟨hcont, hclose⟩ := step_operator_eq_none.1 (hends.stop fits t ht)
        refine ⟨?_, hcont⟩
        intro hk
        exact hclose ⟨hk, rfl⟩
    | operandExpected | nestedTooDeeply => simp [ParseFault.code] at hcode
  · rintro ⟨hw, ⟨outer, g, inner, e, hread, hg, ⟨s, hs⟩, hd⟩, hnext⟩
    have hstop : ∀ t ∈ rest.head?, (Phase.operator (.group :: s)).step t = none := by
      intro t ht
      obtain ⟨hclose, hcont⟩ := hnext t ht
      rw [step_operator_eq_none]
      exact ⟨hcont, fun hk => hclose hk.1⟩
    obtain ⟨hends, hle⟩ := ends_of_withinLimit hw (hread ▸ run_of_group hs hg hd) hstop
    obtain ⟨err, f, hr, hrep, rfl⟩ := failsAfter_of_ends hc h hends (by simp)
    cases hrep with
    | missingParen => exact ⟨_, hr, rfl⟩

theorem fails_P006_iff (hc : p.current ≤ p.tokens.length) (h : p.rest = read ++ rest) :
    p.FailsWith read "P006" ↔ OpensTooMuch read := by
  constructor
  · rintro ⟨err, hr, hcode⟩
    obtain ⟨f, hreads, rfl, rfl⟩ := reads_of_failsAfter hc h hr
    obtain ⟨m, hends, hrep⟩ := ends_of_reads hreads h
    cases hrep with
    | nestedTooDeeply opening deep =>
      constructor
      · simp [openAfter, hends.run, depth, deep]
      · intro u hu hne n hn
        simp only [openAfter, Option.mem_def, Option.map_eq_some_iff] at hn
        obtain ⟨k, hk, rfl⟩ := hn
        exact hends.shallow u hu hne k hk
    | operandExpected | missingParen => simp [ParseFault.code, missingParen] at hcode
  · rintro ⟨hopen, hbefore⟩
    simp only [openAfter, Option.map_eq_some_iff] at hopen
    obtain ⟨m, hm, hdepth⟩ := hopen
    have hends : (operand []).Ends maxNestingDepth read rest m := by
      constructor
      · exact hm
      · intro u hu hne k hk
        apply hbefore u hu hne
        simp [openAfter, Option.mem_def.1 hk]
      · intro hle
        omega
    have hne : m ≠ .operator [] := by
      rintro rfl
      simp [depth] at hdepth
    obtain ⟨err, f, hr, hrep, rfl⟩ := failsAfter_of_ends hc h hends hne
    cases hrep with
    | nestedTooDeeply => exact ⟨_, hr, rfl⟩
    | operandExpected | missingParen =>
      simp only [depth, List.length_cons] at hdepth
      omega

/-- The tokens before the error can be extended to an expression within the nesting limit, are none
themselves, and no expression of any nesting begins with them and the token at the error. -/
structure OutOfPlace (read rest : List Token) (err : ParseError) : Prop where
  extendable : ∃ v e, Derives .expression (read ++ v) e ∧ e.nesting ≤ maxNestingDepth
  incomplete : ∀ e, ¬ Derives .expression read e
  earliest : ∀ t ∈ rest.head?, ∀ v e, ¬ Derives .expression (read ++ t :: v) e
  found : err.found = rest.head?

/-- The error is at the last token read, which opens the first group or prefix operator beyond the
limit; without a limit, the tokens could be extended to an expression. -/
structure NestedTooDeeply (read : List Token) (err : ParseError) : Prop where
  extendable : ∃ v e, Derives .expression (read ++ v) e
  opens : OpensTooMuch read
  found : ∃ before t, read = before ++ [t] ∧ err.found = some t ∧
    (t.kind = .leftParen ∨ t.kind ∈ prefixOperators)

/-- The diagnostic names the line and the text of the token that the error is at, or else the line of
the last token, and the end. -/
structure Located (p : Parser) (err : ParseError) : Prop where
  line : ∀ t ∈ err.found, err.diagnostic.line = t.line
  lastLine : err.found = none →
    err.diagnostic.line = match p.tokens.getLast? with | some t => t.line | none => 1
  text : ∀ t ∈ err.found, t.kind ≠ .endOfInput →
    err.diagnostic.location = " at '" ++ t.lexeme ++ "'"
  endText : (∀ t ∈ err.found, t.kind = .endOfInput) → err.diagnostic.location = " at end"

theorem outOfPlace_of_ends {m : Phase} {v : List Token} {e : Expr}
    (hends : (operand []).Ends maxNestingDepth read rest m) (hm : m ≠ .operator [])
    (hle : m.depth ≤ maxNestingDepth) (hd : Derives .expression (read ++ v) e)
    (hn : e.nesting ≤ maxNestingDepth) (hfound : err.found = rest.head?) :
    OutOfPlace read rest err := by
  constructor
  · exact ⟨v, e, hd, hn⟩
  · intro e' hd'
    have hrun := run_of_derives hd' []
    rw [hends.run] at hrun
    cases hrun
    exact hm rfl
  · intro t ht v' e' hd'
    have hrun := run_of_derives hd' []
    rw [run_append, hends.run, Option.bind_some, run_cons, hends.stop hle t ht] at hrun
    cases hrun
  · exact hfound

theorem located_of_reports {m : Phase} {f : Failure}
    (h : Reports maxNestingDepth p.endLine read m f) : Located p f.error := by
  have hline : ∀ t ∈ f.error.found, f.error.diagnostic.line = t.line := by
    cases h with
    | operandExpected | missingParen =>
      intro t ht
      simp only [Rule.failAt, Option.mem_def] at ht
      simp [Rule.failAt, ParseError.diagnostic, ht]
    | nestedTooDeeply => rintro t ⟨⟩; rfl
  constructor
  · exact hline
  · intro hnone
    cases h with
    | operandExpected | missingParen =>
      simp only [Rule.failAt] at hnone
      simp only [Rule.failAt, ParseError.diagnostic, hnone, Option.map_none, Option.getD_none,
        Parser.endLine]
      cases p.tokens.getLast? <;> rfl
    | nestedTooDeeply => cases hnone
  · intro t ht hk
    simp [ParseError.diagnostic, Option.mem_def.1 ht, locationOf, hk]
  · intro hend
    simp only [ParseError.diagnostic]
    cases hf : f.error.found with
    | none => rfl
    | some t => simp [locationOf, hend t hf]

/-- **Syntax errors are found at the earliest token.** A parse that fails reports one diagnostic. The
tokens before the error are a beginning of an expression and the token at it never goes on with them,
or it is the first token that nests too deeply; the diagnostic names its line. Which of the three
errors is raised, and where, depends on the tokens read and at most one more. -/
theorem syntax_error_earliest (p : Parser) (hc : p.current ≤ p.tokens.length) :
    (p.parse.1 = none → ∃ read rest err, p.rest = read ++ rest ∧ p.FailsAfter read err ∧
      Located p err ∧
      (err.diagnostic.code = some "P001" ∧ OutOfPlace read rest err ∨
        err.diagnostic.code = some "P005" ∧ OutOfPlace read rest err ∨
        err.diagnostic.code = some "P006" ∧ NestedTooDeeply read err)) ∧
    ∀ read rest, p.rest = read ++ rest →
      (p.FailsWith read "P001" ↔ WithinLimit read ∧ GroupUnclosed read rest) ∧
      (p.FailsWith read "P005" ↔ WithinLimit read ∧ OperandMissing read rest) ∧
      (p.FailsWith read "P006" ↔ OpensTooMuch read) := by
  constructor
  · intro hnone
    rcases p.parse_cases with ⟨e, us, hr⟩ | ⟨f, hr⟩
    · rw [Parser.parse_of_ok hr] at hnone
      cases hnone
    · obtain ⟨read, hread, v, e, hd, hfit⟩ := extends_of_reads_error hr
      have hfails : p.FailsAfter read f.error := failsAfter_of_reads hc hread hr
      obtain ⟨m, hends, hrep⟩ := ends_of_reads hr hread
      refine ⟨read, f.rest, f.error, hread, hfails, located_of_reports hrep, ?_⟩
      cases hrep with
      | operandExpected fits =>
        have hn := Expr.fits_le (hfit (by simp [Rule.failAt]))
        exact Or.inr (Or.inl ⟨rfl, outOfPlace_of_ends hends (by simp) fits hd (by omega) rfl⟩)
      | missingParen fits =>
        have hn := Expr.fits_le (hfit (by simp [Rule.failAt, missingParen]))
        exact Or.inl ⟨rfl, outOfPlace_of_ends hends (by simp) fits hd (by omega) rfl⟩
      | @nestedTooDeeply before _ _ t opening =>
        have hopens : OpensTooMuch (before ++ [t]) := (fails_P006_iff hc hread).1 ⟨_, hfails, rfl⟩
        exact Or.inr (Or.inr ⟨rfl, ⟨v, e, hd⟩, hopens, before, t, rfl, rfl, opening⟩)
  · intro read rest h
    exact ⟨fails_P001_iff hc h, fails_P005_iff hc h, fails_P006_iff hc h⟩

/-- In `(1;` a parenthesis is missing at the semicolon. -/
theorem semicolon_in_group :
    let opening : Token := { kind := .leftParen, lexeme := "(", line := 1 }
    let one : Token := { kind := .number, lexeme := "1", literal := .number .one, line := 1 }
    let p : Parser := { tokens := [opening, one, { kind := .semicolon, lexeme := ";", line := 1 }] }
    p.current ≤ p.tokens.length ∧ p.FailsWith [opening, one] "P001" := by
  intro opening one p
  have hc : p.current ≤ p.tokens.length := Nat.zero_le _
  refine ⟨hc, (((syntax_error_earliest p hc).2 [opening, one] _ rfl).1).2 ⟨?_, ?_, ?_⟩⟩
  · rw [withinLimit_iff, shallow_cons, step_leftParen rfl]
    refine ⟨by decide, ?_⟩
    rintro _ ⟨⟩
    rw [shallow_cons, step_literal (x := .number .one) rfl]
    refine ⟨by decide, ?_⟩
    rintro _ ⟨⟩
    exact shallow_nil.2 (by decide)
  · exact ⟨[], opening, [one], .literal (.number .one), rfl, rfl, ⟨[], rfl⟩,
      .loosen (.literal (.number rfl)) (by decide)⟩
  · rintro t ⟨⟩
    exact ⟨by decide, by decide⟩

end Trellis
