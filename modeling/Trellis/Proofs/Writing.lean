import Trellis.Parse.Source
import Trellis.Proofs.Sentence
import Trellis.Proofs.Session

/-!
# Writing expressions

An expression that keeps to the grammar can be written down, and what is written is read as that
expression: the scanner finds the lexemes again, and the parser the tree.

* `Expr.Grammatical`: operands bind as tightly as the operators above them ask for;
* `Expr.Written`: the lexemes of an expression, with any numeral for a number;
* `Expr.placed`: the expression with the lines on which its operators come to stand;
* `Expr.Spellable`: there is such a way to write its literals;
* `derives_written`: the tokens of the lexemes derive the expression;
* `parseSource_written`: reading the written expression gives it back.
-/

namespace Trellis

/-- The level of a binary operator. -/
def Level.of? (k : TokenKind) : Option Level :=
  [equality, comparison, term, factor].find? (k ∈ ·.operators)

namespace Expr

/-- The tightest rule that may read an expression with this node on top. -/
def rule : Expr → Rule
  | .binary _ t _ => (Level.of? t.kind).elim .expression .binary
  | .unary .. => .unary
  | .grouping _ | .literal _ => .primary

/-- Operators are spelled as their kinds are. A left operand binds at least as tightly as the operator
behind it and a right operand tighter than the one before it; the operand of a prefix operator is no
binary operation. -/
inductive Grammatical : Expr → Prop where
  | literal (v : Value) : Grammatical (.literal v)
  | grouping {e : Expr} (inner : e.Grammatical) : Grammatical (.grouping e)
  | unary {t : Token} {e : Expr} (operator : t.kind ∈ prefixOperators)
      (spelling : Lexeme t.lexeme.toList t.kind t.literal) (operand : e.Grammatical)
      (tight : e.rule.height ≤ Rule.unary.height) : Grammatical (.unary t e)
  | binary {l : Level} {a b : Expr} {t : Token} (operator : t.kind ∈ l.operators)
      (spelling : Lexeme t.lexeme.toList t.kind t.literal) (left : a.Grammatical)
      (right : b.Grammatical) (tight : a.rule.height ≤ (Rule.binary l).height)
      (tighter : b.rule.height < (Rule.binary l).height) : Grammatical (.binary a t b)

/-- The literals have a spelling: no text holds a quote, and each number is the value of a numeral. -/
def Spellable : Expr → Prop
  | .binary a _ b => a.Spellable ∧ b.Spellable
  | .grouping e | .unary _ e => e.Spellable
  | .literal (.text s) => '"' ∉ s.toList
  | .literal (.number x) => ∃ u, Numeral u ∧ Number.ofText? (String.ofList u) = some x
  | .literal _ => True

/-- The lexemes of an expression: numbers by any numeral of that value, texts in quotes. -/
inductive Written : Expr → List (List Char) → Prop where
  | nullWord : Written (.literal .null) ["null".toList]
  | trueWord : Written (.literal (.truth true)) ["true".toList]
  | falseWord : Written (.literal (.truth false)) ["false".toList]
  | number {u : List Char} {x : Number} (hu : Numeral u)
      (hx : Number.ofText? (String.ofList u) = some x) : Written (.literal (.number x)) [u]
  | text {s : String} (h : '"' ∉ s.toList) :
      Written (.literal (.text s)) ['"' :: (s.toList ++ ['"'])]
  | grouping {e : Expr} {us : List (List Char)} (inner : e.Written us) :
      Written (.grouping e) (['('] :: us ++ [[')']])
  | unary {t : Token} {e : Expr} {us : List (List Char)} (operand : e.Written us) :
      Written (.unary t e) (t.lexeme.toList :: us)
  | binary {a b : Expr} {t : Token} {us vs : List (List Char)} (left : a.Written us)
      (right : b.Written vs) : Written (.binary a t b) (us ++ t.lexeme.toList :: vs)

/-- The line ends in the texts of an expression. -/
def newlines : Expr → Nat
  | .binary a _ b => a.newlines + b.newlines
  | .grouping e | .unary _ e => e.newlines
  | .literal (.text s) => s.toList.count '\n'
  | .literal _ => 0

/-- The expression, written from a line on: each operator is on the line that it comes to stand on. -/
def placed (line : Nat) : Expr → Expr
  | .binary a t b =>
    .binary (a.placed line) { t with line := (line + a.newlines : Nat) }
      (b.placed (line + a.newlines))
  | .grouping e => .grouping (e.placed line)
  | .unary t e => .unary { t with line } (e.placed line)
  | .literal v => .literal v

end Expr

variable {line : Nat} {e : Expr} {us : List (List Char)} {t : Token}

theorem exists_written (h : e.Spellable) : ∃ us, e.Written us := by
  induction e with
  | binary a t b iha ihb =>
    obtain ⟨us, ha⟩ := iha h.1
    obtain ⟨vs, hb⟩ := ihb h.2
    exact ⟨_, .binary ha hb⟩
  | grouping e ih =>
    obtain ⟨us, hw⟩ := ih h
    exact ⟨_, .grouping hw⟩
  | unary t e ih =>
    obtain ⟨us, hw⟩ := ih h
    exact ⟨_, .unary hw⟩
  | literal v =>
    cases v with
    | null => exact ⟨_, .nullWord⟩
    | truth b =>
      cases b with
      | true => exact ⟨_, .trueWord⟩
      | false => exact ⟨_, .falseWord⟩
    | number x =>
      obtain ⟨u, hu, hx⟩ := h
      exact ⟨_, .number hu hx⟩
    | text s => exact ⟨_, .text h⟩

/-! ## Line ends -/

theorem newlines_operator {l : Level} (hk : t.kind ∈ l.operators ∨ t.kind ∈ prefixOperators)
    (ht : Lexeme t.lexeme.toList t.kind t.literal) : t.lexeme.toList.count '\n' = 0 := by
  refine List.count_eq_zero.2 (newlines_of_lexeme ht ?_)
  intro hs
  rw [hs] at hk
  cases l <;> exact absurd hk (by decide)

theorem newlines_written (hg : e.Grammatical) (hw : e.Written us) :
    us.flatten.count '\n' = e.newlines := by
  induction hw with
  | nullWord | trueWord | falseWord => decide
  | number hu hx =>
    have hn := List.count_eq_zero.2 (newlines_of_lexeme (.number hu hx) (by decide))
    simpa [Expr.newlines] using hn
  | text => simp [Expr.newlines]
  | grouping _ ih =>
    cases hg with
    | grouping hg => simpa [Expr.newlines] using ih hg
  | unary _ ih =>
    cases hg with
    | unary operator spelling hg =>
      simp [Expr.newlines, ih hg, newlines_operator (l := .term) (.inr operator) spelling]
  | binary _ _ iha ihb =>
    cases hg with
    | binary operator spelling hga hgb =>
      simp [Expr.newlines, iha hga, ihb hgb, newlines_operator (.inl operator) spelling]

/-! ## Deriving what is written -/

theorem level_of_mem {l : Level} : ∀ k ∈ l.operators, Level.of? k = some l := by
  cases l <;> decide

theorem rule_binary {l : Level} (h : t.kind ∈ l.operators) (a b : Expr) :
    (Expr.binary a t b).rule = .binary l := by
  rw [Expr.rule, level_of_mem _ h]
  rfl

theorem lexeme_keyword {s : String} {c : Char} {w : List Char} {k : TokenKind}
    (hs : s.toList = c :: w) (hc : isLetter c) (hw : w.all isWordChar) (hk : (s, k) ∈ keywords) :
    Lexeme s.toList k .null := by
  rw [hs]
  refine .word hc (List.all_eq_true.1 hw) (.inl ?_)
  rwa [← hs, String.ofList_toList]

/-- The tokens of a written expression derive it. -/
theorem derives_written (hg : e.Grammatical) (hw : e.Written us) (line : Nat) :
    ∃ ts, TokensOf line us ts ∧ Derives e.rule ts (e.placed line) := by
  induction hw generalizing line with
  | nullWord =>
    have hl : Lexeme "null".toList .kwNull .null :=
      lexeme_keyword rfl (by decide) (by decide) (by decide)
    exact ⟨_, .cons hl .nil, .literal (.nullWord rfl)⟩
  | trueWord =>
    have hl : Lexeme "true".toList .kwTrue .null :=
      lexeme_keyword rfl (by decide) (by decide) (by decide)
    exact ⟨_, .cons hl .nil, .literal (.trueWord rfl)⟩
  | falseWord =>
    have hl : Lexeme "false".toList .kwFalse .null :=
      lexeme_keyword rfl (by decide) (by decide) (by decide)
    exact ⟨_, .cons hl .nil, .literal (.falseWord rfl)⟩
  | number hu hx => exact ⟨_, .cons (.number hu hx) .nil, .literal (.number rfl)⟩
  | @text s h =>
    refine ⟨_, .cons (.string h) .nil, ?_⟩
    rw [String.ofList_toList]
    exact .literal (.string rfl)
  | @grouping e us _ ih =>
    cases hg with
    | grouping hg =>
      obtain ⟨ts, hts, hd⟩ := ih hg line
      have hclose : TokensOf (line + us.flatten.count '\n') [[')']] _ :=
        .cons (.punctuation (k := .rightParen) (by decide)) .nil
      refine ⟨_, .cons (.punctuation (k := .leftParen) (by decide)) (hts.append hclose), ?_⟩
      exact .group rfl (hd.loosen (Rule.height_le _)) rfl
  | @unary t e us _ ih =>
    cases hg with
    | unary operator spelling hg tight =>
      obtain ⟨ts, hts, hd⟩ := ih hg line
      have hn := newlines_operator (l := .term) (.inr operator) spelling
      refine ⟨_, .cons spelling (by rwa [hn]), ?_⟩
      rw [String.ofList_toList]
      exact .prefixed operator (hd.loosen tight)
  | @binary a b t us vs hwa _ iha ihb =>
    cases hg with
    | @binary l _ _ _ operator spelling hga hgb tight tighter =>
      obtain ⟨ts, hts, ha⟩ := iha hga line
      obtain ⟨ss, hss, hb⟩ := ihb hgb (line + us.flatten.count '\n')
      have hn := newlines_operator (.inl operator) spelling
      have hop : TokensOf (line + us.flatten.count '\n') (t.lexeme.toList :: vs) _ :=
        .cons spelling (by rwa [hn])
      have hright : b.rule.height ≤ l.operand.height := by
        have := l.height_operand
        omega
      refine ⟨_, hts.append hop, ?_⟩
      rw [String.ofList_toList, rule_binary operator, Expr.placed, ← newlines_written hga hwa]
      exact .operation (ha.loosen tight) operator (hb.loosen hright)

theorem nesting_placed (e : Expr) (line : Nat) : (e.placed line).nesting = e.nesting := by
  induction e generalizing line with
  | binary a t b iha ihb => simp [Expr.placed, Expr.nesting, iha, ihb]
  | grouping e ih => simp [Expr.placed, Expr.nesting, ih]
  | literal v => rfl
  | unary t e ih => simp [Expr.placed, Expr.nesting, ih]

/-! ## Reading it back -/

theorem endsBefore_endToken (line : Int) : Rule.expression.EndsBefore [endToken line] := by
  rw [Rule.endsBefore_cons]
  rintro ⟨l, -, hl⟩
  cases l <;> exact absurd hl (by simp [Level.operators, endToken])

theorem parseSource_spaced (hg : e.Grammatical) (hw : e.Written us)
    (hn : e.nesting ≤ maxNestingDepth) (sink : Sink) :
    ∃ ts, parseSource (String.ofList (spaced us)) sink =
      (some (e.placed 1), (⟨ts, []⟩ : Scan).reportTo sink) := by
  obtain ⟨ts, hts, hd⟩ := derives_written hg hw 1
  have hscan := scan_spaced hts
  generalize hend : endToken (1 + us.flatten.count '\n' : Nat) = t at hscan
  have hfit : (e.placed 1).Fits 0 := .inr (by rw [nesting_placed]; omega)
  have hread : ∀ endLine, Reads endLine (.rule .expression) 0 (ts ++ [t])
      (.ok (e.placed 1, [t])) := by
    intro endLine
    rw [reads_ok_iff]
    exact ⟨ts, rfl, hd.loosen (Rule.height_le _), hend ▸ endsBefore_endToken _, hfit⟩
  refine ⟨ts ++ [t], ?_⟩
  unfold parseSource
  rw [hscan]
  exact parseTokens_of_reads hread _

/-- **Reading undoes writing.** A grammatical expression within the nesting limit, whose literals have a
spelling, can be written; and written in any way, with a space between any two lexemes, it is read as
itself, with each operator on the line that it stands on. Nothing is reported. -/
theorem parseSource_written (hg : e.Grammatical) (hs : e.Spellable)
    (hn : e.nesting ≤ maxNestingDepth) :
    (∃ us, e.Written us) ∧ ∀ us, e.Written us → ∀ sink : Sink,
      (parseSource (String.ofList (spaced us)) sink).1 = some (e.placed 1) ∧
      (parseSource (String.ofList (spaced us)) sink).2.diagnostics = sink.diagnostics ∧
      (parseSource (String.ofList (spaced us)) sink).2.hadError = sink.hadError ∧
      (sink.stamp = none → (parseSource (String.ofList (spaced us)) sink).2 = sink) := by
  refine ⟨exists_written hs, ?_⟩
  intro us hw sink
  obtain ⟨ts, hparse⟩ := parseSource_spaced hg hw hn sink
  rw [hparse]
  refine ⟨rfl, ?_, ?_, ?_⟩
  · simp [Scan.reportTo, Sink.addAll]
  · simp [Scan.reportTo, Sink.addAll]
  · intro h
    exact Sink.trace_of_stamp_eq_none h _ _

/-- The operators behind a text of two lines stand on the second. -/
theorem text_over_two_lines :
    parseSource "\"a\nb\" == - ( true - 1 )" {} =
      (some (.binary (.literal (.text "a\nb")) ⟨.equalEqual, "==", .null, 2⟩
        (.unary ⟨.minus, "-", .null, 2⟩ (.grouping
          (.binary (.literal (.truth true)) ⟨.minus, "-", .null, 2⟩
            (.literal (.number .one)))))), {}) := by
  have hminus : Lexeme "-".toList .minus .null := .punctuation (by decide)
  have hequal : Lexeme "==".toList .equalEqual .null := .operatorEqual (k := .equal) (by decide)
  have hquote : '"' ∉ "a\nb".toList := by decide
  have hone : Numeral ['1'] := .whole (by decide) (by simp [isDigit])
  have hvalue : Number.ofText? (String.ofList ['1']) = some .one := by decide +kernel
  have hg := Expr.Grammatical.binary (l := .equality) (t := ⟨.equalEqual, "==", .null, 0⟩)
    (by decide) hequal (.literal (.text "a\nb"))
    (.unary (t := ⟨.minus, "-", .null, 0⟩) (by decide) hminus
      (.grouping (.binary (l := .term) (t := ⟨.minus, "-", .null, 0⟩) (by decide) hminus
        (.literal (.truth true)) (.literal (.number .one)) (by decide) (by decide)))
      (by decide)) (by decide) (by decide)
  have hw := Expr.Written.binary (t := ⟨.equalEqual, "==", .null, 0⟩) (.text hquote)
    (.unary (t := ⟨.minus, "-", .null, 0⟩) (.grouping
      (.binary (t := ⟨.minus, "-", .null, 0⟩) .trueWord (.number hone hvalue))))
  have h := (parseSource_written hg ⟨hquote, trivial, _, hone, hvalue⟩ (by decide)).2 _ hw {}
  exact Prod.ext h.1 (h.2.2.2 rfl)

end Trellis
