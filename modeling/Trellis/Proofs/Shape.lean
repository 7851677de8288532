import Mathlib.Data.List.Forall2
import Trellis.Proofs.Call
import Trellis.Proofs.Writing

/-!
# The shape of the trees

The parser returns the trees that keep to the grammar and to the nesting limit, and no others; and a
tree holds everything that was passed to read it.

* `Mark`, `Expr.marks`: an expression written back, part by part and in order;
* `Token.Bears`: a token that stands where such a part does;
* `Expr.Shaped`: operators of their sorts, between operands that bind tightly enough;
* `bears_of_derives`: the tokens that derive a tree are the tree, written back;
* `derives_marks`: a tree of this shape is derived by the tokens of its parts;
* `parse_trees`: both, of the parser.
-/

namespace Trellis

/-- A number token holds a number, and a string token a text. -/
structure Token.Typed (t : Token) : Prop where
  number : t.kind = .number → ∃ x, t.literal = .number x
  string : t.kind = .string → ∃ s, t.literal = .text s

/-- The kind of the token that a value is written as. -/
def Value.kind : Value → TokenKind
  | .null => .kwNull
  | .truth true => .kwTrue
  | .truth false => .kwFalse
  | .number _ => .number
  | .text _ => .string

/-- A part of a written expression: an operator with its token, a parenthesis, or a literal. -/
inductive Mark where
  | operator (token : Token)
  | opening
  | closing
  | literal (value : Value)

namespace Mark

/-- The kind of the token that a part is written as. -/
def kind : Mark → TokenKind
  | .operator t => t.kind
  | .opening => .leftParen
  | .closing => .rightParen
  | .literal v => v.kind

/-- A token that a part is written as. Only numbers and texts are kept with the token. -/
def token : Mark → Token
  | .operator t => t
  | .opening => { kind := .leftParen, lexeme := "(", line := 1 }
  | .closing => closingToken
  | .literal v =>
    { kind := v.kind
      lexeme := v.spelling
      literal := match v with
        | .number _ | .text _ => v
        | _ => .null
      line := 1 }

end Mark

/-- The expression, written back in order. -/
def Expr.marks : Expr → List Mark
  | .binary a t b => a.marks ++ .operator t :: b.marks
  | .grouping e => .opening :: e.marks ++ [.closing]
  | .literal v => [.literal v]
  | .unary t e => .operator t :: e.marks

/-- The token is of the part's kind, is the very token of an operator, and has the value of a literal. -/
structure Token.Bears (t : Token) (m : Mark) : Prop where
  kind : t.kind = m.kind
  operator : ∀ o, m = .operator o → t = o
  value : ∀ v, m = .literal v → Leaf t v

/-- Every operation has an operator of its sort. A left operand binds at least as tightly as the operator
behind it and a right operand tighter than the one before it; the operand of a prefix operator is no
binary operation. -/
def Expr.Shaped : Expr → Prop
  | .binary a t b => a.Shaped ∧ b.Shaped ∧ ∃ l : Level, t.kind ∈ l.operators ∧
      a.rule.height ≤ (Rule.binary l).height ∧ b.rule.height < (Rule.binary l).height
  | .grouping e => e.Shaped
  | .literal _ => True
  | .unary t e => e.Shaped ∧ t.kind ∈ prefixOperators ∧ e.rule.height ≤ Rule.unary.height

variable {r : Rule} {w : List Token} {e : Expr} {t : Token} {v : Value}

/-! ## What derives a tree is the tree -/

theorem bears_operator (t : Token) : t.Bears (.operator t) := by
  constructor
  · rfl
  · rintro o ⟨⟩
    rfl
  · rintro v ⟨⟩

theorem bears_opening (h : t.kind = .leftParen) : t.Bears .opening := by
  constructor
  · exact h
  · rintro o ⟨⟩
  · rintro v ⟨⟩

theorem bears_closing (h : t.kind = .rightParen) : t.Bears .closing := by
  constructor
  · exact h
  · rintro o ⟨⟩
  · rintro v ⟨⟩

theorem kind_of_leaf (ht : t.Typed) (h : Leaf t v) : t.kind = v.kind := by
  cases h with
  | falseWord kind | trueWord kind | nullWord kind => exact kind
  | number kind =>
    obtain ⟨x, hx⟩ := ht.number kind
    rw [hx, kind]
    rfl
  | string kind =>
    obtain ⟨s, hs⟩ := ht.string kind
    rw [hs, kind]
    rfl

theorem bears_literal (ht : t.Typed) (h : Leaf t v) : t.Bears (.literal v) := by
  constructor
  · exact kind_of_leaf ht h
  · rintro o ⟨⟩
  · rintro v' ⟨⟩
    exact h

/-- The tokens that derive a tree are the parts of the tree, in order. -/
theorem bears_of_derives (h : Derives r w e) (hw : ∀ t ∈ w, t.Typed) :
    List.Forall₂ Token.Bears w e.marks := by
  induction h with
  | expression _ ih | operand _ ih | primary _ ih => exact ih hw
  | @operation l w v a b t _ _ _ ihl ihr =>
    have hl := ihl fun u hu => hw u (by simp [hu])
    have hr := ihr fun u hu => hw u (by simp [hu])
    exact List.rel_append hl (.cons (bears_operator t) hr)
  | @prefixed t w e _ _ ih =>
    have hi := ih fun u hu => hw u (by simp [hu])
    exact .cons (bears_operator t) hi
  | @literal t v leaf => exact .cons (bears_literal (hw t (by simp)) leaf) .nil
  | @group t u w e opening _ closing ih =>
    have hi := ih fun u hu => hw u (by simp [hu])
    exact .cons (bears_opening opening) (List.rel_append hi (.cons (bears_closing closing) .nil))

/-- A derived tree keeps to the shape, and binds at least as tightly as its rule. -/
theorem shaped_of_derives (h : Derives r w e) : e.Shaped ∧ e.rule.height ≤ r.height := by
  induction h with
  | expression _ ih => exact ⟨ih.1, Nat.le_trans ih.2 (by decide)⟩
  | @operand l _ _ _ ih => exact ⟨ih.1, Nat.le_trans ih.2 (Nat.le_of_lt l.height_operand_lt)⟩
  | @operation l w v a b t _ operator _ ihl ihr =>
    have htighter := Nat.lt_of_le_of_lt ihr.2 l.height_operand_lt
    have hrule := congrArg Rule.height (rule_binary operator a b)
    exact ⟨⟨ihl.1, ihr.1, l, operator, ihl.2, htighter⟩, Nat.le_of_eq hrule⟩
  | prefixed operator _ ih => exact ⟨⟨ih.1, operator, ih.2⟩, Nat.le_refl _⟩
  | primary _ ih => exact ⟨ih.1, Nat.le_trans ih.2 (by decide)⟩
  | literal => exact ⟨trivial, Nat.le_refl _⟩
  | group _ _ _ ih => exact ⟨ih.1, Nat.le_refl _⟩

/-! ## A tree of the shape is derived -/

theorem leaf_token (v : Value) : Leaf (Mark.literal v).token v := by
  cases v with
  | null => exact .nullWord rfl
  | truth b =>
    cases b with
    | true => exact .trueWord rfl
    | false => exact .falseWord rfl
  | number x => exact .number rfl
  | text s => exact .string rfl

theorem derives_marks (h : e.Shaped) : Derives e.rule (e.marks.map Mark.token) e := by
  induction e with
  | binary a t b iha ihb =>
    obtain ⟨ha, hb, l, operator, tight, tighter⟩ := h
    have hright : b.rule.height ≤ l.operand.height := by
      have := l.height_operand
      omega
    rw [rule_binary operator, Expr.marks, List.map_append, List.map_cons]
    exact .operation ((iha ha).loosen tight) operator ((ihb hb).loosen hright)
  | grouping e ih =>
    rw [Expr.marks, List.map_append, List.map_cons]
    exact .group rfl ((ih h).loosen (Rule.height_le _)) rfl
  | literal v => exact .literal (leaf_token v)
  | unary t e ih =>
    obtain ⟨he, operator, tight⟩ := h
    exact .prefixed operator ((ih he).loosen tight)

theorem typed_of_not_literal (h : t.kind ∉ [.number, .string]) : t.Typed := by
  simp only [List.mem_cons, List.not_mem_nil, or_false, not_or] at h
  exact ⟨fun hk => absurd hk h.1, fun hk => absurd hk h.2⟩

theorem typed_operator {l : Level} (h : t.kind ∈ l.operators ∨ t.kind ∈ prefixOperators) :
    t.Typed := by
  apply typed_of_not_literal
  intro hk
  simp only [List.mem_cons, List.not_mem_nil, or_false] at hk
  rcases hk with hk | hk <;> rw [hk] at h <;> cases l <;> exact absurd h (by decide)

theorem typed_literal (v : Value) : (Mark.literal v).token.Typed := by
  cases v with
  | truth b => cases b <;> exact typed_of_not_literal (by decide)
  | null => exact typed_of_not_literal (by decide)
  | number x =>
    constructor
    · exact fun _ => ⟨x, rfl⟩
    · rintro ⟨⟩
  | text s =>
    constructor
    · rintro ⟨⟩
    · exact fun _ => ⟨s, rfl⟩

/-- The parts of a tree of the shape are written as tokens that a scan could have made. -/
theorem typed_marks (h : e.Shaped) : ∀ m ∈ e.marks, m.token.Typed := by
  induction e with
  | binary a t b iha ihb =>
    obtain ⟨ha, hb, l, operator, -⟩ := h
    have ht : t.Typed := typed_operator (.inl operator)
    rw [Expr.marks, List.forall_mem_append, List.forall_mem_cons]
    exact ⟨iha ha, ht, ihb hb⟩
  | grouping e ih =>
    have hopening : Mark.opening.token.Typed := typed_of_not_literal (by decide)
    have hclosing : Mark.closing.token.Typed := typed_of_not_literal (by decide)
    rw [Expr.marks, List.forall_mem_append, List.forall_mem_cons, List.forall_mem_singleton]
    exact ⟨⟨hopening, ih h⟩, hclosing⟩
  | literal v =>
    rw [Expr.marks, List.forall_mem_singleton]
    exact typed_literal v
  | unary t e ih =>
    obtain ⟨he, operator, -⟩ := h
    have ht : t.Typed := typed_operator (l := .term) (.inr operator)
    rw [Expr.marks, List.forall_mem_cons]
    exact ⟨ht, ih he⟩

/-! ## The tokens of a scan -/

theorem typed_token? {p : Placed} (h : p.token? = some t) : t.Typed := by
  obtain ⟨⟨form, text⟩, offset, line⟩ := p
  cases form with
  | token kind =>
    cases h
    constructor
    · rintro rfl
      exact ⟨_, rfl⟩
    · rintro rfl
      exact ⟨_, rfl⟩
  | layout | stray | unclosed => cases h

/-- In a scan, a number token holds a number and a string token a text. -/
theorem typed_scan (source : String) : ∀ t ∈ (scan source).tokens, t.Typed := by
  intro t ht
  rcases List.mem_append.1 ht with ht | ht
  · obtain ⟨p, -, hp⟩ := List.mem_filterMap.1 ht
    exact typed_token? hp
  · obtain rfl := List.mem_singleton.1 ht
    exact typed_of_not_literal (by simp [endToken])

/-! ## The parser's trees -/

/-- A tree of the shape and within the nesting limit is read from the tokens of its parts. -/
theorem parse_marks (h : e.Shaped) (hn : e.nesting ≤ maxNestingDepth) :
    (Parser.parse { tokens := e.marks.map Mark.token }).1 = some e := by
  have hd : Derives .expression (e.marks.map Mark.token) e :=
    (derives_marks h).loosen (Rule.height_le _)
  have hfit : e.Fits 0 := .inr (by omega)
  have hr : ∀ endLine, Reads endLine (.rule .expression) 0 (e.marks.map Mark.token) (.ok (e, [])) := by
    intro endLine
    rw [reads_ok_iff]
    exact ⟨_, (List.append_nil _).symm, hd, Rule.endsBefore_nil _, hfit⟩
  rw [Parser.parse_of_ok (p := { tokens := e.marks.map Mark.token }) (hr _)]

/-- **The parser's trees are those of the shape, and hold all that was read.** Of tokens that a scan could
have made, the ones that a call passes to return a tree are the tree's parts, in order; and a tree is
returned for some such tokens exactly if it keeps to the shape and to the nesting limit. -/
theorem parse_trees :
    (∀ p : Parser, (∀ t ∈ p.tokens, t.Typed) → ∀ e, p.parse.1 = some e →
      List.Forall₂ Token.Bears p.passed e.marks) ∧
    ∀ e : Expr,
      (∃ ts : List Token, (∀ t ∈ ts, t.Typed) ∧ (Parser.parse { tokens := ts }).1 = some e) ↔
        e.Shaped ∧ e.nesting ≤ maxNestingDepth := by
  constructor
  · intro p hp e he
    refine bears_of_derives (Parser.derives_passed he).1 fun t ht => hp t ?_
    exact List.mem_of_mem_drop (List.mem_of_mem_take ht)
  · intro e
    constructor
    · rintro ⟨ts, -, he⟩
      obtain ⟨hd, hn⟩ := Parser.derives_passed he
      exact ⟨(shaped_of_derives hd).1, hn⟩
    · rintro ⟨h, hn⟩
      refine ⟨_, ?_, parse_marks h hn⟩
      intro t ht
      obtain ⟨m, hm, rfl⟩ := List.mem_map.1 ht
      exact typed_marks h m hm

/-- A text, scanned and parsed: what was passed is the tree, written back. -/
theorem scanned_and_written_back :
    let source := "! ( 1 == \"a\" )"
    let e := Expr.unary ⟨.bang, "!", .null, 1⟩ (.grouping
      (.binary (.literal (.number .one)) ⟨.equalEqual, "==", .null, 1⟩ (.literal (.text "a"))))
    let p : Parser := { tokens := (scan source).tokens, sink := (scan source).reportTo {} }
    p.parse.1 = some e ∧ List.Forall₂ Token.Bears p.passed e.marks := by
  intro source e p
  have hbangs : ('!', TokenKind.bang, TokenKind.bangEqual) ∈ operators := by decide
  have hbang : Lexeme "!".toList .bang .null := .operator hbangs
  have hequal : Lexeme "==".toList .equalEqual .null := .operatorEqual (k := .equal) (by decide)
  have hquote : '"' ∉ "a".toList := by decide
  have hone : Numeral ['1'] := .whole (by decide) (by simp [isDigit])
  have hvalue : Number.ofText? (String.ofList ['1']) = some .one := by decide +kernel
  have hg : e.Grammatical := .unary (by decide) hbang
    (.grouping (.binary (l := .equality) (by decide) hequal (.literal _) (.literal _)
      (by decide) (by decide))) (by decide)
  have hw : e.Written _ := .unary (.grouping (.binary (.number hone hvalue) (.text hquote)))
  obtain ⟨ts, hparse⟩ := parseSource_spaced hg hw (by decide) {}
  have he : p.parse.1 = some e := congrArg Prod.fst hparse
  exact ⟨he, parse_trees.1 p (typed_scan source) e he⟩

end Trellis
