import Mathlib.Data.List.Nodup
import Trellis.Proofs.Equality
import Trellis.Proofs.Pairing
import Trellis.Proofs.Respaced
import Trellis.Proofs.Shape

/-!
# Which texts are parsed to equal trees

Trees are compared with the tokens of their operators in them, but of the other tokens they keep the
values at most. So the tokens that were passed to read a tree tell what it is equal to: their kinds, the
values of numbers and strings, and the lines of operators count, and nothing else does.

* `consumed`: the tokens of a source text that are passed to read it;
* `Token.Matches`: tokens that differ in nothing that counts;
* `spelling_unique`: but for names, strings and numbers, a kind is written in one way only;
* `matches_of_bears`: equal trees were read from such tokens;
* `same_iff_matches`: **trees are equal exactly if their tokens match**.
-/

namespace Trellis

/-- The kinds of binary and prefix operators. -/
def operatorKinds : List TokenKind :=
  prefixOperators ++ [Level.equality, .comparison, .term, .factor].flatMap Level.operators

/-- A token whose kind is that of an operator. -/
def Token.isOperator (t : Token) : Bool := t.kind ∈ operatorKinds

/-- The tokens of the operators in a tree, in the order in which they are written. -/
def Expr.operators : Expr → List Token
  | .binary a t b => a.operators ++ t :: b.operators
  | .grouping e => e.operators
  | .literal _ => []
  | .unary t e => t :: e.operators

/-- Tokens of one kind; numbers and strings have equal values, and operators are on the same line. -/
structure Token.Matches (t u : Token) : Prop where
  kind : t.kind = u.kind
  value : t.kind = .number ∨ t.kind = .string → t.literal.agrees u.literal
  line : t.isOperator → t.line = u.line

/-- The tokens of a source text that are passed in parsing it. -/
def consumed (source : String) (sink : Sink) : List Token :=
  Parser.passed { tokens := (scan source).tokens, sink := (scan source).reportTo sink }

/-- A token that a scan could have found: its lexeme is that of its kind and value. -/
structure Token.Found (t : Token) : Prop where
  lexeme : Lexeme t.lexeme.toList t.kind t.literal
  typed : t.Typed

variable {w w' : List Token} {t u : Token} {e e' : Expr} {v v' : Value} {r : Rule}

/-! ## Spellings -/

/-- The kinds that are written in one way only, with their spellings. -/
def fixedLexemes : List (TokenKind × List Char) :=
  (.slash, ['/']) :: punctuation.map (fun p => (p.2, [p.1])) ++
    operators.flatMap (fun p => [(p.2.1, [p.1]), (p.2.2, [p.1, '='])]) ++
    keywords.map (fun p => (p.2, p.1.toList))

theorem mem_fixedLexemes {u : List Char} {k : TokenKind} (h : Lexeme u k v)
    (hk : k ∉ [.identifier, .string, .number]) : (k, u) ∈ fixedLexemes := by
  have hp : ∀ p ∈ punctuation, (p.2, [p.1]) ∈ fixedLexemes := by decide
  have ho : ∀ p ∈ operators,
      (p.2.1, [p.1]) ∈ fixedLexemes ∧ (p.2.2, [p.1, '=']) ∈ fixedLexemes := by decide
  have hwords : ∀ p ∈ keywords, (p.2, p.1.toList) ∈ fixedLexemes := by decide
  cases h with
  | punctuation h => exact hp _ h
  | operator h => exact (ho _ h).1
  | operatorEqual h => exact (ho _ h).2
  | slash => exact List.mem_cons_self
  | string | number => exact absurd hk (by decide)
  | word _ _ hw =>
    rcases hw with hw | ⟨rfl, -⟩
    · have hword := hwords _ hw
      rw [String.toList_ofList] at hword
      exact hword
    · exact absurd hk (by decide)

/-- But for names, strings and numbers, a kind is written in one way only. -/
theorem spelling_unique {u u' : List Char} {k : TokenKind} (h : Lexeme u k v) (h' : Lexeme u' k v')
    (hk : k ∉ [.identifier, .string, .number]) : u = u' := by
  have hkinds : (fixedLexemes.map Prod.fst).Nodup := by decide
  have hmem := mem_fixedLexemes h hk
  have hmem' := mem_fixedLexemes h' hk
  exact congrArg Prod.snd (List.inj_on_of_nodup_map hkinds hmem hmem' rfl)

theorem null_of_lexeme {u : List Char} {k : TokenKind} (h : Lexeme u k v)
    (hk : k ∉ [.identifier, .string, .number]) : v = .null := by
  cases valued_of_lexeme h with
  | string | number => exact absurd hk (by decide)
  | symbol => rfl

/-! ## Operators -/

theorem isOperator_iff : t.isOperator = true ↔
    (∃ l : Level, t.kind ∈ l.operators) ∨ t.kind ∈ prefixOperators := by
  have hlevels : ∀ l : Level, l ∈ [Level.equality, .comparison, .term, .factor] := by
    intro l
    cases l <;> decide
  rw [Token.isOperator, decide_eq_true_iff, operatorKinds, List.mem_append, List.mem_flatMap]
  simp only [hlevels, true_and, or_comm]

theorem isOperator_eq_false (h : t.kind ∉ operatorKinds) : t.isOperator = false :=
  decide_eq_false h

theorem kind_of_isOperator (h : t.isOperator = true) :
    t.kind ∉ [.identifier, .string, .number] ∧ t.kind ≠ .endOfInput := by
  have hall : ∀ k ∈ operatorKinds, k ∉ [.identifier, .string, .number] ∧ k ≠ .endOfInput := by
    decide
  exact hall _ (of_decide_eq_true h)

theorem kind_notMem_of_leaf (h : Leaf t v) : t.kind ∉ operatorKinds ∧ t.kind ≠ .endOfInput := by
  cases h <;> simp_all <;> decide

/-- The operators among the tokens that derive a tree are those in the tree. -/
theorem operators_of_derives (h : Derives r w e) : w.filter Token.isOperator = e.operators := by
  induction h with
  | expression _ ih | operand _ ih | primary _ ih => exact ih
  | operation _ operator _ ihl ihr =>
    have ht := isOperator_iff.2 (.inl ⟨_, operator⟩)
    rw [List.filter_append, List.filter_cons_of_pos ht, ihl, ihr, Expr.operators]
  | prefixed operator _ ih =>
    have ht := isOperator_iff.2 (.inr operator)
    rw [List.filter_cons_of_pos ht, ih, Expr.operators]
  | literal leaf =>
    have ht := isOperator_eq_false (kind_notMem_of_leaf leaf).1
    simp [ht, Expr.operators]
  | @group t u _ _ opening _ closing ih =>
    have ht : t.isOperator = false := isOperator_eq_false (by rw [opening]; decide)
    have hu : u.isOperator = false := isOperator_eq_false (by rw [closing]; decide)
    simp [ht, hu, ih, Expr.operators]

/-! ## Tokens that match are read as equal trees -/

/-- Where no truth value is compared with a number, the two ways to compare values are the same. -/
theorem same_of_agrees (h : v.agrees v' = true) (hk : v.kind = v'.kind) : v.same v' = true := by
  cases v with
  | truth a =>
    cases v' with
    | number => cases a <;> cases hk
    | _ => exact h
  | number =>
    cases v' with
    | truth b => cases b <;> cases hk
    | _ => exact h
  | _ => exact h

theorem kind_of_same (h : v.same v' = true) : v.kind = v'.kind := by
  cases v with
  | truth a =>
    cases v' with
    | truth b =>
      obtain rfl : a = b := by simpa [Value.same] using h
      rfl
    | _ => cases h
  | _ => cases v' <;> first | rfl | cases h

/-- Operators of one kind on one line are the same. -/
theorem agrees_of_matches (h : t.Matches u) (ht : t.Found) (hu : u.Found)
    (ho : t.isOperator = true) : t.agrees u = true := by
  have hkind := (kind_of_isOperator ho).1
  have hlexeme := hu.lexeme
  rw [← h.kind] at hlexeme
  have hsame := String.toList_inj.1 (spelling_unique ht.lexeme hlexeme hkind)
  have hnull := null_of_lexeme ht.lexeme hkind
  have hnull' := null_of_lexeme hlexeme hkind
  simp [Token.agrees, h.kind, hsame, hnull, hnull', h.line ho, Value.agrees, Value.same]

theorem literal_of_leaf (hk : t.kind = .number ∨ t.kind = .string) (h : Leaf t v) :
    v = t.literal := by
  cases h <;> simp_all

/-- The values of operands that match are the same. -/
theorem same_of_matches (h : t.Matches u) (ht : t.Typed) (hu : u.Typed) (leaf : Leaf t v)
    (leaf' : Leaf u v') : v.same v' = true := by
  have hkind : v.kind = v'.kind := by
    rw [← kind_of_leaf ht leaf, h.kind, kind_of_leaf hu leaf']
  have hk := h.kind.symm
  cases leaf with
  | number kind =>
    obtain rfl := literal_of_leaf (.inl (hk.trans kind)) leaf'
    exact same_of_agrees (h.value (.inl kind)) hkind
  | string kind =>
    obtain rfl := literal_of_leaf (.inr (hk.trans kind)) leaf'
    exact same_of_agrees (h.value (.inr kind)) hkind
  | falseWord kind | trueWord kind | nullWord kind =>
    -- a reserved word has one value
    rw [kind] at hk
    cases leaf' <;> first | rfl | simp_all

/-- Tokens that a scan could have found, and that match. -/
structure Token.Same (t u : Token) : Prop where
  left : t.Found
  right : u.Found
  agree : t.Matches u

theorem same_of_paired (h : e.Paired Token.Same e') (hs : e.Shaped) : e.same e' = true := by
  induction h with
  | binary _ operator _ ihl ihr =>
    obtain ⟨hl, hr, l, ho, -⟩ := hs
    have hagree := agrees_of_matches operator.agree operator.left operator.right
      (isOperator_iff.2 (.inl ⟨l, ho⟩))
    simp [Expr.same, hagree, ihl hl, ihr hr]
  | grouping _ ih => exact ih hs
  | literal token leaf leaf' =>
    exact same_of_matches token.agree token.left.typed token.right.typed leaf leaf'
  | unary operator _ ih =>
    obtain ⟨he, ho, -⟩ := hs
    have hagree := agrees_of_matches operator.agree operator.left operator.right
      (isOperator_iff.2 (.inr ho))
    simp [Expr.same, hagree, ih he]

/-- Trees that paired tokens derive are paired. -/
theorem paired_of_derives {R : Token → Token → Prop} (hR : KeepsKinds R)
    (h : Derives .expression w e) (hn : e.nesting ≤ maxNestingDepth)
    (h' : Derives .expression w' e') (hn' : e'.nesting ≤ maxNestingDepth)
    (hw : List.Forall₂ R w w') : e.Paired R e' := by
  have hreads : ∀ {w e}, Derives .expression w e → e.nesting ≤ maxNestingDepth →
      Reads 1 (.rule .expression) 0 w (.ok (e, [])) := by
    intro w e h hn
    exact reads_ok_iff.2 ⟨w, (List.append_nil w).symm, h, Rule.endsBefore_nil _, .inr (by omega)⟩
  obtain ⟨o, ho, hp⟩ := reads_paired hR (hreads h hn) 1 .rule hw
  obtain rfl := reads_unique (hreads h' hn') ho
  obtain ⟨_, _, ⟨⟩, he, -⟩ := ok_of_paired hp
  exact he

/-! ## Equal trees are read from tokens that match -/

/-- Parts that are the same: the same parenthesis, operators that agree, or literals of equal values. -/
inductive Mark.Same : Mark → Mark → Prop
  | operator {t u : Token} (h : t.agrees u = true) : Same (.operator t) (.operator u)
  | opening : Same .opening .opening
  | closing : Same .closing .closing
  | literal {v v' : Value} (h : v.same v' = true) : Same (.literal v) (.literal v')

theorem marks_of_same (h : e.same e' = true) : List.Forall₂ Mark.Same e.marks e'.marks := by
  induction e generalizing e' with
  | binary a t b iha ihb =>
    cases e' with
    | binary a' t' b' =>
      simp only [Expr.same, Bool.and_eq_true] at h
      obtain ⟨⟨ha, ht⟩, hb⟩ := h
      exact List.rel_append (iha ha) (.cons (.operator ht) (ihb hb))
    | _ => cases h
  | grouping e ih =>
    cases e' with
    | grouping e' => exact .cons .opening (List.rel_append (ih h) (.cons .closing .nil))
    | _ => cases h
  | literal v =>
    cases e' with
    | literal v' => exact .cons (.literal h) .nil
    | _ => cases h
  | unary t e ih =>
    cases e' with
    | unary t' e' =>
      simp only [Expr.same, Bool.and_eq_true] at h
      exact .cons (.operator h.1) (ih h.2)
    | _ => cases h

theorem matches_of_paren {k : TokenKind} (hk : k ∉ .number :: .string :: operatorKinds)
    (ht : t.kind = k) (hu : u.kind = k) : t.Matches u := by
  subst ht
  simp only [List.mem_cons, not_or] at hk
  obtain ⟨hnumber, hstring, hoperator⟩ := hk
  refine ⟨hu.symm, ?_, ?_⟩
  · rintro (hk | hk)
    · exact absurd hk hnumber
    · exact absurd hk hstring
  · intro ho
    exact absurd (of_decide_eq_true ho) hoperator

theorem matches_of_mark {m m' : Mark} (ht : t.Bears m) (hm : m.Same m') (hu : u.Bears m') :
    t.Matches u := by
  cases hm with
  | @operator o o' h =>
    obtain rfl := ht.operator o rfl
    obtain rfl := hu.operator o' rfl
    simp only [Token.agrees, Bool.and_eq_true, beq_iff_eq] at h
    obtain ⟨⟨⟨hkind, -⟩, hvalue⟩, hline⟩ := h
    exact ⟨hkind, fun _ => hvalue, fun _ => hline⟩
  | opening => exact matches_of_paren (by decide) ht.kind hu.kind
  | closing => exact matches_of_paren (by decide) ht.kind hu.kind
  | @literal v v' h =>
    have leaf := ht.value v rfl
    have leaf' := hu.value v' rfl
    have hkind : t.kind = u.kind := (ht.kind.trans (kind_of_same h)).trans hu.kind.symm
    refine ⟨hkind, ?_, ?_⟩
    · intro hk
      rw [← literal_of_leaf hk leaf, ← literal_of_leaf (hkind ▸ hk) leaf']
      exact agrees_of_same h
    · intro ho
      exact absurd (of_decide_eq_true ho) (kind_notMem_of_leaf leaf).1

/-- Equal trees are read from tokens that match. -/
theorem matches_of_bears {ms ms' : List Mark} (hm : List.Forall₂ Mark.Same ms ms')
    (hw : List.Forall₂ Token.Bears w ms) (hw' : List.Forall₂ Token.Bears w' ms') :
    List.Forall₂ Token.Matches w w' := by
  induction hm generalizing w w' with
  | nil =>
    cases hw
    cases hw'
    exact .nil
  | cons hm _ ih =>
    cases hw with
    | cons ht hw =>
      cases hw' with
      | cons hu hw' => exact .cons (matches_of_mark ht hm hu) (ih hw hw')

/-! ## The trees of source texts -/

/-- The end of input is no part of a tree. -/
theorem kind_of_derives (h : Derives r w e) : ∀ t ∈ w, t.kind ≠ .endOfInput := by
  induction h with
  | expression _ ih | operand _ ih | primary _ ih => exact ih
  | operation _ operator _ ihl ihr =>
    have ht := (kind_of_isOperator (isOperator_iff.2 (.inl ⟨_, operator⟩))).2
    exact List.forall_mem_append.2 ⟨ihl, List.forall_mem_cons.2 ⟨ht, ihr⟩⟩
  | prefixed operator _ ih =>
    have ht := (kind_of_isOperator (isOperator_iff.2 (.inr operator))).2
    exact List.forall_mem_cons.2 ⟨ht, ih⟩
  | literal leaf => exact List.forall_mem_singleton.2 (kind_notMem_of_leaf leaf).2
  | group opening _ closing ih =>
    have hopening := ne_of_eq_of_ne opening (by decide : TokenKind.leftParen ≠ .endOfInput)
    have hclosing := ne_of_eq_of_ne closing (by decide : TokenKind.rightParen ≠ .endOfInput)
    rw [List.forall_mem_append, List.forall_mem_cons, List.forall_mem_singleton]
    exact ⟨⟨hopening, ih⟩, hclosing⟩

/-- The tokens that are passed to read a tree were found by the scan. -/
theorem found_of_consumed {source : String} {sink : Sink}
    (h : Derives r (consumed source sink) e) : ∀ t ∈ consumed source sink, t.Found := by
  intro t ht
  have hmem : t ∈ (scan source).tokens := List.mem_of_mem_drop (List.mem_of_mem_take ht)
  refine ⟨?_, typed_scan source t hmem⟩
  obtain ⟨ts, last, htokens, hlexemes⟩ := lexemes_of_scan source
  rw [htokens, List.mem_append, List.mem_singleton] at hmem
  rcases hmem with hmem | rfl
  · exact hlexemes t hmem
  · exact absurd rfl (kind_of_derives h _ ht)

theorem forall₂_found (h : List.Forall₂ Token.Matches w w') (hw : ∀ t ∈ w, t.Found)
    (hw' : ∀ t ∈ w', t.Found) : List.Forall₂ Token.Same w w' := by
  induction h with
  | nil => exact .nil
  | cons ht _ ih =>
    rw [List.forall_mem_cons] at hw hw'
    exact .cons ⟨hw.1, hw'.1, ht⟩ (ih hw.2 hw'.2)

/-- **Trees are equal exactly if their tokens match.** Two source texts that are parsed to trees are
parsed to equal ones exactly if the tokens passed to read them match, one by one: they are of the same
kinds, numbers and strings have equal values, and operators are on the same lines. The operators are
those in the trees, and literals of different kinds are never equal. -/
theorem same_iff_matches {source source' : String} {sink sink' : Sink}
    (h : (parseSource source sink).1 = some e) (h' : (parseSource source' sink').1 = some e') :
    (e.same e' = true ↔
      List.Forall₂ Token.Matches (consumed source sink) (consumed source' sink')) ∧
    (consumed source sink).filter Token.isOperator = e.operators ∧
    (consumed source' sink').filter Token.isOperator = e'.operators ∧
    ∀ v v', (Expr.literal v).same (.literal v') = true → v.kind = v'.kind := by
  obtain ⟨hd, hn⟩ := Parser.derives_passed h
  obtain ⟨hd', hn'⟩ := Parser.derives_passed h'
  have hfound := found_of_consumed hd
  have hfound' := found_of_consumed hd'
  refine ⟨⟨?_, ?_⟩, operators_of_derives hd, operators_of_derives hd', fun _ _ => kind_of_same⟩
  · intro hsame
    have hbears := bears_of_derives hd fun t ht => (hfound t ht).typed
    have hbears' := bears_of_derives hd' fun t ht => (hfound' t ht).typed
    exact matches_of_bears (marks_of_same hsame) hbears hbears'
  · intro hmatches
    have hkinds : KeepsKinds Token.Same := fun _ _ hs => hs.agree.kind
    have hpaired := paired_of_derives hkinds hd hn hd' hn' (forall₂_found hmatches hfound hfound')
    exact same_of_paired hpaired (shaped_of_derives hd).1

/-- Numbers, layout around operands and what is not read may differ, and so may the lines of all but
the operators. -/
theorem respelled_and_followed :
    let source := "!(1 == 2.50) // note"
    let source' := "! ( 1.0 ==\n2.5\n) ; 7"
    ∃ e e', (parseSource source {}).1 = some e ∧ (parseSource source' {}).1 = some e' ∧
      e.same e' = true ∧ List.Forall₂ Token.Matches (consumed source {}) (consumed source' {}) := by
  intro source source'
  obtain ⟨e, h⟩ : ∃ e, (parseSource source {}).1 = some e :=
    Option.isSome_iff_exists.1 (by decide +kernel)
  obtain ⟨e', h'⟩ : ∃ e, (parseSource source' {}).1 = some e :=
    Option.isSome_iff_exists.1 (by decide +kernel)
  have hsame : Expr.sameOption (parseSource source {}).1 (parseSource source' {}).1 = true := by
    decide +kernel
  rw [h, h'] at hsame
  exact ⟨e, e', h, h', hsame, (same_iff_matches h h').1.1 hsame⟩

end Trellis
