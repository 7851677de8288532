import Trellis.Parse.Rule

/-!
# The grammar of expressions

The grammar that the rules read, said without a reader:

* `Derives`: which tokens derive which tree by a rule; binary levels fold to the left;
* `Rule.Continues`: the tokens that would go on with a tree instead of ending it;
* `Expr.nesting`, `Expr.Fits`: how deep groups and prefix operators lie in a tree, and whether they
  fit below the nesting limit;
* `Derives.loosen`: what derives from a rule derives from every looser one.
-/

namespace Trellis

/-- A token that is an operand on its own, and its value. -/
inductive Leaf (t : Token) : Value → Prop
  | falseWord (kind : t.kind = .kwFalse) : Leaf t (.truth false)
  | trueWord (kind : t.kind = .kwTrue) : Leaf t (.truth true)
  | nullWord (kind : t.kind = .kwNull) : Leaf t .null
  | number (kind : t.kind = .number) : Leaf t t.literal
  | string (kind : t.kind = .string) : Leaf t t.literal

theorem leaf_iff {t : Token} {v : Value} : Leaf t v ↔ t.literalValue? = some v := by
  constructor
  · rintro (kind | kind | kind | kind | kind) <;> simp [Token.literalValue?, kind]
  · intro h
    unfold Token.literalValue? at h
    split at h <;> cases h
    · exact .falseWord ‹_›
    · exact .trueWord ‹_›
    · exact .nullWord ‹_›
    · exact .number ‹_›
    · exact .string ‹_›

/-- The tokens `w` derive the tree `e` by a rule. -/
inductive Derives : Rule → List Token → Expr → Prop
  | expression {w : List Token} {e : Expr} (inner : Derives (.binary .equality) w e) :
      Derives .expression w e
  | operand {l : Level} {w : List Token} {e : Expr} (inner : Derives l.operand w e) :
      Derives (.binary l) w e
  | operation {l : Level} {w v : List Token} {a b : Expr} {t : Token}
      (left : Derives (.binary l) w a) (operator : t.kind ∈ l.operators)
      (right : Derives l.operand v b) : Derives (.binary l) (w ++ t :: v) (.binary a t b)
  | prefixed {t : Token} {w : List Token} {e : Expr} (operator : t.kind ∈ prefixOperators)
      (inner : Derives .unary w e) : Derives .unary (t :: w) (.unary t e)
  | primary {w : List Token} {e : Expr} (inner : Derives .primary w e) : Derives .unary w e
  | literal {t : Token} {v : Value} (leaf : Leaf t v) : Derives .primary [t] (.literal v)
  | group {t u : Token} {w : List Token} {e : Expr} (opening : t.kind = .leftParen)
      (inner : Derives .expression w e) (closing : u.kind = .rightParen) :
      Derives .primary (t :: w ++ [u]) (.grouping e)

namespace Rule

/-- The levels whose operators a rule reads: its own level and the tighter ones. -/
def levels : Rule → List Level
  | .expression | .binary .equality => [.equality, .comparison, .term, .factor]
  | .binary .comparison => [.comparison, .term, .factor]
  | .binary .term => [.term, .factor]
  | .binary .factor => [.factor]
  | .unary | .primary => []

/-- The token is a binary operator of the rule's own level or of a tighter one. -/
def Continues (r : Rule) (t : Token) : Prop := ∃ l ∈ r.levels, t.kind ∈ l.operators

instance (r : Rule) (t : Token) : Decidable (r.Continues t) :=
  inferInstanceAs (Decidable (∃ l ∈ r.levels, t.kind ∈ l.operators))

/-- What follows a tree does not go on with it: the next token, if there is one, does not. -/
def EndsBefore (r : Rule) (rest : List Token) : Prop := ∀ t ∈ rest.head?, ¬ r.Continues t

@[simp] theorem endsBefore_nil (r : Rule) : r.EndsBefore [] := by simp [EndsBefore]

@[simp] theorem endsBefore_cons (r : Rule) (t : Token) (rest : List Token) :
    r.EndsBefore (t :: rest) ↔ ¬ r.Continues t := by simp [EndsBefore]

theorem endsBefore_of_levels_nil {r : Rule} (h : r.levels = []) (rest : List Token) :
    r.EndsBefore rest := by
  rintro t - ⟨l, hl, -⟩
  rw [h] at hl
  exact absurd hl List.not_mem_nil

theorem levels_binary (l : Level) : (Rule.binary l).levels = l :: l.operand.levels := by
  cases l <;> rfl

/-- What ends a tree of a level ends its operands, and is no operator of the level. -/
theorem endsBefore_binary {l : Level} {rest : List Token} :
    (Rule.binary l).EndsBefore rest ↔
      l.operand.EndsBefore rest ∧ ∀ t ∈ rest.head?, t.kind ∉ l.operators := by
  simp only [EndsBefore, Continues, levels_binary, List.mem_cons, exists_eq_or_imp, not_or]
  exact ⟨fun h => ⟨fun t ht => (h t ht).2, fun t ht => (h t ht).1⟩,
    fun h t ht => ⟨h.2 t ht, h.1 t ht⟩⟩

theorem continues_expression {l : Level} {t : Token} (h : t.kind ∈ l.operators) :
    Rule.expression.Continues t := ⟨l, by cases l <;> decide, h⟩

/-- An operator of a level ends every operand of that level. -/
theorem not_continues_operand {l : Level} {t : Token} (h : t.kind ∈ l.operators) :
    ¬ l.operand.Continues t := by
  rintro ⟨m, hm, ht⟩
  cases l <;> cases m <;> simp_all [levels, Level.operand, Level.operators] <;> grind

end Rule

namespace Expr

/-- The length of the longest chain of groups and prefix operators within each other. -/
def nesting : Expr → Nat
  | .binary left _ right => max left.nesting right.nesting
  | .grouping inner => inner.nesting + 1
  | .literal _ => 0
  | .unary _ operand => operand.nesting + 1

/-- Below `depth` open levels, the tree opens none, or none beyond the limit. -/
def Fits (depth : Nat) (e : Expr) : Prop := e.nesting = 0 ∨ depth + e.nesting ≤ maxNestingDepth

theorem fits_le {d : Nat} {e : Expr} (h : e.Fits d) : d + e.nesting ≤ max d maxNestingDepth := by
  rcases h with h | h <;> omega

@[simp] theorem fits_literal (d : Nat) (v : Value) : (Expr.literal v).Fits d := Or.inl rfl

@[simp] theorem fits_binary (d : Nat) (a b : Expr) (t : Token) :
    (Expr.binary a t b).Fits d ↔ a.Fits d ∧ b.Fits d := by
  simp only [Fits, nesting]
  omega

@[simp] theorem fits_unary (d : Nat) (t : Token) (e : Expr) :
    (Expr.unary t e).Fits d ↔ d + 1 ≤ maxNestingDepth ∧ e.Fits (d + 1) := by
  simp only [Fits, nesting]
  omega

@[simp] theorem fits_grouping (d : Nat) (e : Expr) :
    (Expr.grouping e).Fits d ↔ d + 1 ≤ maxNestingDepth ∧ e.Fits (d + 1) := by
  simp only [Fits, nesting]
  omega

end Expr

/-! ## Looser rules -/

variable {r r' : Rule} {w : List Token} {e : Expr}

theorem Rule.height_injective {r r' : Rule} (h : r.height = r'.height) : r = r' := by
  have hall : ∀ r ∈ Rule.all, ∀ r' ∈ Rule.all, r.height = r'.height → r = r' := by decide
  have hmem : ∀ r : Rule, r ∈ Rule.all := by
    intro r
    cases r with
    | binary l => cases l <;> decide
    | _ => decide
  exact hall r (hmem r) r' (hmem r') h

theorem Level.height_operand (l : Level) : l.operand.height + 1 = (Rule.binary l).height := by
  cases l <;> rfl

/-- Every rule but the tightest reads what the next tighter one does. -/
theorem derives_step (h : 0 < r'.height) : ∃ s : Rule, s.height + 1 = r'.height ∧
    ∀ {w e}, Derives s w e → Derives r' w e := by
  cases r' with
  | expression => exact ⟨.binary .equality, rfl, .expression⟩
  | binary l => exact ⟨l.operand, l.height_operand, .operand⟩
  | unary => exact ⟨.primary, rfl, .primary⟩
  | primary => exact absurd h (by decide)

/-- What derives from a rule derives from every looser one. -/
theorem Derives.loosen (h : Derives r w e) (hr : r.height ≤ r'.height) : Derives r' w e := by
  generalize hn : r'.height = n at hr
  induction n generalizing r' with
  | zero =>
    obtain rfl : r = r' := Rule.height_injective (by omega)
    exact h
  | succ n ih =>
    by_cases he : r.height = r'.height
    · obtain rfl := Rule.height_injective he
      exact h
    · have hpos : 0 < r'.height := by omega
      obtain ⟨s, hs, hstep⟩ := derives_step hpos
      exact hstep (ih (by omega) (by omega))

/-- A tree is derived by at least one token. -/
theorem derives_ne_nil (h : Derives r w e) : w ≠ [] := by
  induction h with
  | expression _ ih | operand _ ih | primary _ ih => exact ih
  | _ => simp

end Trellis
