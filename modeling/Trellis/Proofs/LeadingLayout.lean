import Trellis.Proofs.Joining
import Trellis.Proofs.Pairing
import Trellis.Proofs.Run

/-!
# Layout ahead of a text

Blanks, line ends and whole comment lines ahead of a text make no tokens. They move what is behind them
some lines down: the tokens and so the operators of the tree, and all that is reported, be it found by the
scanner, at a token, or at the end of the input.

* `Leading`: such layout;
* `scan_leading`: the scan of a text behind it;
* `Expr.shifted`, `Diagnostic.shifted`: the same, some lines further down;
* `parse_leading`: **layout ahead of a text only moves lines**.
-/

namespace Trellis

/-- Blanks, line ends, and comments with the line ends behind them. -/
inductive Leading : List Char → Prop
  | nil : Leading []
  | blank {c : Char} {rest : List Char} (h : c ∈ blanks) (hr : Leading rest) : Leading (c :: rest)
  | comment {body rest : List Char} (h : '\n' ∉ body) (hr : Leading rest) :
      Leading ('/' :: '/' :: (body ++ '\n' :: rest))

/-- The tree, with its operators some lines further down. -/
def Expr.shifted (lines : Nat) : Expr → Expr
  | .binary a t b => .binary (a.shifted lines) (t.shifted lines) (b.shifted lines)
  | .grouping e => .grouping (e.shifted lines)
  | .literal v => .literal v
  | .unary t e => .unary (t.shifted lines) (e.shifted lines)

/-- The error, some lines further down, as is the token that it is reported at. -/
def ParseError.shifted (lines : Nat) (e : ParseError) : ParseError :=
  { e with found := e.found.map (Token.shifted lines), line := e.line + lines }

/-- The diagnostic, some lines further down. -/
def Diagnostic.shifted (lines : Nat) (d : Diagnostic) : Diagnostic :=
  { d with line := d.line + lines }

/-- Parsing the tokens gives the tree, or none, and adds the reports to those in the sink. -/
def TokensGive (ts : List Token) (tree : Option Expr) (reports : List Diagnostic) : Prop :=
  ∀ sink, (parseTokens ts sink).1 = tree ∧
    (parseTokens ts sink).2.diagnostics = sink.diagnostics ++ reports

/-- Parsing the source text gives the tree, or none, and adds the reports to those in the sink. -/
def Gives (source : String) (tree : Option Expr) (reports : List Diagnostic) : Prop :=
  ∀ sink, (parseSource source sink).1 = tree ∧
    (parseSource source sink).2.diagnostics = sink.diagnostics ++ reports

variable {line lines : Nat} {leading text : List Char} {us : List (List Char)} {ts : List Token}
  {es : List LexicalError} {e e' : Expr} {f f' : Failure} {endLine : Int}

/-! ## The scan -/

theorem exists_tiling_leading (h : Leading leading) (ht : Tiling text us)
    (hy : Yields (line + leading.count '\n') us ts es) :
    ∃ vs, Tiling (leading ++ text) vs ∧ Yields line vs ts es := by
  induction h generalizing line with
  | nil => exact ⟨us, ht, hy⟩
  | @blank c rest hc _ ih =>
    have hcount : (c :: rest).count '\n' = [c].count '\n' + rest.count '\n' := by
      rw [← List.count_append, List.singleton_append]
    rw [hcount, ← Nat.add_assoc] at hy
    obtain ⟨vs, ht', hy'⟩ := ih hy
    exact ⟨[c] :: vs, .cons (u := [c]) (firstPiece_blank hc _) ht', .skipped (.blank hc) hy'⟩
  | @comment body rest hb _ ih =>
    have hcount : ('/' :: '/' :: (body ++ '\n' :: rest)).count '\n' =
        ('/' :: '/' :: body).count '\n' + ['\n'].count '\n' + rest.count '\n' := by
      simp
      omega
    rw [hcount, ← Nat.add_assoc, ← Nat.add_assoc] at hy
    obtain ⟨vs, ht', hy'⟩ := ih hy
    have hend : Tiling ('\n' :: (rest ++ text)) (['\n'] :: vs) :=
      .cons (u := ['\n']) (firstPiece_blank (by decide) _) ht'
    have hcomment : FirstPiece ('/' :: '/' :: (body ++ '\n' :: (rest ++ text)))
        ('/' :: '/' :: body) := firstPiece_comment hb (by simp)
    refine ⟨('/' :: '/' :: body) :: ['\n'] :: vs, ?_, ?_⟩
    · simpa using Tiling.cons (u := '/' :: '/' :: body) hcomment hend
    · exact .skipped (.comment hb) (.skipped (.blank (by decide)) hy')

/-- Behind layout, the same tokens and errors are found further down. -/
theorem scan_leading {p : String} (h : Leading p.toList) (source : String) :
    scan (p ++ source) =
      ⟨(scan source).tokens.map (Token.shifted (p.toList.count '\n')),
        (scan source).errors.map (LexicalError.shifted (p.toList.count '\n'))⟩ := by
  obtain ⟨us, ht, hy⟩ := exists_tiling source
  obtain ⟨vs, ht', hy'⟩ := exists_tiling_leading h ht (yields_shifted hy _)
  refine scan_of_tiling ?_ hy'
  rwa [String.toList_append]

/-! ## The parse -/

theorem eq_shifted_of_paired (h : e.Paired (fun t u => u = t.shifted lines) e') :
    e' = e.shifted lines := by
  induction h with
  | binary _ operator _ ihl ihr => rw [Expr.shifted, operator, ihl, ihr]
  | grouping _ ih => rw [Expr.shifted, ih]
  | @literal t u v v' token leaf leaf' =>
    have hsame : u.literalValue? = t.literalValue? := by rw [token]; rfl
    rw [leaf_iff.1 leaf, leaf_iff.1 leaf'] at hsame
    cases hsame
    rfl
  | unary operator _ ih => rw [Expr.shifted, operator, ih]

theorem forall₂_shifted (lines : Nat) (ts : List Token) :
    List.Forall₂ (fun t u => u = t.shifted lines) ts (ts.map (Token.shifted lines)) := by
  rw [List.forall₂_map_right_iff]
  exact List.forall₂_same.2 fun _ _ => rfl

theorem error_of_paired_shifted {endLine' : Int} (hend : endLine' = endLine + lines)
    (h : f.Paired (fun t u => u = t.shifted lines) endLine endLine' f') :
    f'.error = f.error.shifted lines := by
  subst hend
  cases h with
  | «at» rest =>
    cases rest with
    | nil => rfl
    | cons ht =>
      subst ht
      rfl
  | nested opening =>
    subst opening
    rfl

/-- Nothing that is said about an error depends on its line. -/
theorem diagnostic_shifted (lines : Nat) (err : ParseError) :
    (err.shifted lines).diagnostic = err.diagnostic.shifted lines := by
  obtain ⟨fault, found, line⟩ := err
  cases found <;> cases fault <;> rfl

theorem endLine_shifted (hne : ts ≠ []) :
    Parser.endLine { tokens := ts.map (Token.shifted lines) } =
      Parser.endLine { tokens := ts } + lines := by
  obtain ⟨ts, t, rfl⟩ := (List.eq_nil_or_concat' ts).resolve_left hne
  simp [Parser.endLine, Token.shifted]

theorem tokensGive_of_ok {us : List Token}
    (h : Reads (Parser.endLine { tokens := ts }) (.rule .expression) 0 ts (.ok (e, us))) :
    TokensGive ts (some e) [] := by
  intro sink
  have hp := Parser.parse_of_ok (p := { tokens := ts, sink }) h
  rw [parseTokens, hp]
  simp

theorem tokensGive_of_error
    (h : Reads (Parser.endLine { tokens := ts }) (.rule .expression) 0 ts (.error f)) :
    TokensGive ts none [f.error.diagnostic] := by
  intro sink
  exact Parser.parse_of_error (p := { tokens := ts, sink }) h

/-- Tokens further down give the same tree and the same reports, further down. -/
theorem tokensGive_shifted (hne : ts ≠ []) (lines : Nat) : ∃ tree reports,
    TokensGive ts tree reports ∧
      TokensGive (ts.map (Token.shifted lines)) (tree.map (Expr.shifted lines))
        (reports.map (Diagnostic.shifted lines)) := by
  have hkinds : KeepsKinds fun t u => u = t.shifted lines := by
    rintro t u rfl
    rfl
  have hpaired := forall₂_shifted lines ts
  rcases Parser.parse_cases { tokens := ts } with ⟨e, us, hr⟩ | ⟨f, hr⟩
  · obtain ⟨o, hr', hp⟩ := reads_paired hkinds hr _ .rule hpaired
    obtain ⟨e', us', rfl, he, -⟩ := ok_of_paired hp
    obtain rfl := eq_shifted_of_paired he
    exact ⟨_, _, tokensGive_of_ok hr, tokensGive_of_ok hr'⟩
  · obtain ⟨o, hr', hp⟩ := reads_paired hkinds hr _ .rule hpaired
    obtain ⟨f', rfl, hf⟩ := error_of_paired hp
    have herror := error_of_paired_shifted (endLine_shifted hne) hf
    have hgives := tokensGive_of_error hr'
    rw [herror, diagnostic_shifted] at hgives
    exact ⟨_, _, tokensGive_of_error hr, hgives⟩

/-- What is reported about a source text: the errors of its scan, and those of the parse. -/
theorem gives_of_tokens {source : String} {tree : Option Expr} {reports : List Diagnostic}
    (h : TokensGive (scan source).tokens tree reports) :
    Gives source tree (lexicalReports source ++ reports) := by
  intro sink
  obtain ⟨htree, hreports⟩ := h ((scan source).reportTo sink)
  refine ⟨htree, ?_⟩
  rw [parseSource, hreports, diagnostics_scanned, List.append_assoc]

/-- **Layout ahead of a text only moves lines.** Behind blanks, line ends and whole comment lines, a text
is parsed to the same tree, or to none, and the same is reported in the same order; the operators and the
reports are as many lines further down as the layout has line ends. -/
theorem parse_leading {p : String} (h : Leading p.toList) (source : String) :
    let lines := p.toList.count '\n'
    ∃ tree reports, Gives source tree reports ∧
      Gives (p ++ source) (tree.map (Expr.shifted lines)) (reports.map (Diagnostic.shifted lines)) := by
  intro lines
  have hscan := scan_leading h source
  have hne : (scan source).tokens ≠ [] := by simp [scan]
  obtain ⟨tree, reports, hgives, hgives'⟩ := tokensGive_shifted hne lines
  refine ⟨tree, _, gives_of_tokens hgives, ?_⟩
  have hlexical : lexicalReports (p ++ source) =
      (lexicalReports source).map (Diagnostic.shifted lines) := by
    rw [lexicalReports, lexicalReports, hscan, List.map_map, List.map_map]
    rfl
  have htokens : (scan (p ++ source)).tokens = (scan source).tokens.map (Token.shifted lines) := by
    rw [hscan]
  rw [← htokens] at hgives'
  have := gives_of_tokens hgives'
  rwa [hlexical, ← List.map_append] at this

/-- A stray character and a group that is not closed, moved down by a comment and two line ends. -/
theorem missing_paren_below_comment :
    let p := " // ( @\n\t\n"
    let source := "@ ( 1 ==\n2"
    Leading p.toList ∧
      (∃ tree reports, Gives source tree reports ∧
        Gives (p ++ source) (tree.map (Expr.shifted 2)) (reports.map (Diagnostic.shifted 2))) ∧
      (parseSource source {}).2.diagnostics.map (·.line) = [1, 2] ∧
      (parseSource (p ++ source) {}).2.diagnostics.map (·.line) = [3, 4] := by
  intro p source
  have hp : p.toList = ' ' :: '/' :: '/' :: ([' ', '(', ' ', '@'] ++ ['\n', '\t', '\n']) := by
    decide +kernel
  have h : Leading p.toList := by
    rw [hp]
    exact .blank (by decide) (.comment (by decide) (.blank (by decide) (.blank (by decide) .nil)))
  have hlines : p.toList.count '\n' = 2 := by
    decide +kernel
  have hmoved := parse_leading h source
  rw [hlines] at hmoved
  exact ⟨h, hmoved, by decide +kernel, by decide +kernel⟩

end Trellis
