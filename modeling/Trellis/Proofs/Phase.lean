import Trellis.Proofs.Reading

/-!
# What is open after some tokens of an expression

Reading the tokens of an expression from left to right, without building a tree: after each token
either an operand is due or one has just been completed, and some groups and prefix operators are
open. A complete operand completes the prefix operators right before it.

* `Phase.step`, `Phase.run`: the phase after one token and after some tokens;
* `run_of_derives`: the tokens of any tree lead from a due operand to a completed one;
* `shallow_of_derives`: on the way, no more is open than the nesting of the tree.
-/

namespace Trellis

/-- What has been opened and not yet completed. -/
inductive Opening where
  | group
  | prefixed
deriving DecidableEq

/-- A complete operand completes the prefix operators right before it; innermost is first. -/
def settle (s : List Opening) : List Opening := s.dropWhile (· = .prefixed)

@[simp] theorem settle_group (s : List Opening) : settle (.group :: s) = .group :: s := rfl

@[simp] theorem settle_prefixed (s : List Opening) : settle (.prefixed :: s) = settle s := rfl

@[simp] theorem settle_settle (s : List Opening) : settle (settle s) = settle s := by
  induction s with
  | nil => rfl
  | cons o s ih => cases o <;> simp [ih]

theorem length_settle_le (s : List Opening) : (settle s).length ≤ s.length := by
  induction s with
  | nil => exact Nat.le_refl _
  | cons o s ih => cases o <;> simp; omega

/-- How far the tokens of an expression have come, and what is open, innermost first. -/
inductive Phase where
  /-- An operand is due. -/
  | operand (opened : List Opening)
  /-- An operand has been completed. -/
  | operator (opened : List Opening)
deriving DecidableEq

namespace Phase

/-- The number of groups and prefix operators that are open. -/
def depth : Phase → Nat
  | .operand s | .operator s => s.length

/-- The phase after one more token, if an expression can go on with it. -/
def step : Phase → Token → Option Phase
  | .operand s, t =>
    if t.isLiteral then some (.operator (settle s))
    else if t.kind ∈ prefixOperators then some (.operand (.prefixed :: s))
    else if t.kind = .leftParen then some (.operand (.group :: s))
    else none
  | .operator s, t =>
    if Rule.expression.Continues t then some (.operand s)
    else if t.kind = .rightParen ∧ s.head? = some .group then some (.operator (settle s.tail))
    else none

/-- The phase after some more tokens. -/
def run (m : Phase) (w : List Token) : Option Phase := w.foldlM step m

variable {m n : Phase} {s : List Opening} {t : Token} {w v us : List Token}

@[simp] theorem run_nil (m : Phase) : m.run [] = some m := rfl

theorem run_cons (m : Phase) (t : Token) (w : List Token) :
    m.run (t :: w) = (m.step t).bind (·.run w) := rfl

theorem run_append (m : Phase) (w v : List Token) :
    m.run (w ++ v) = (m.run w).bind (·.run v) := by
  simp only [run, List.foldlM_append]
  rfl

theorem isLiteral_eq (t : Token) : t.isLiteral = t.literalValue?.isSome := by
  obtain ⟨k, _, _, _⟩ := t
  cases k <;> rfl

theorem literalValue?_prefixed (h : t.kind ∈ prefixOperators) : t.literalValue? = none := by
  simp only [prefixOperators, List.mem_cons, List.not_mem_nil, or_false] at h
  rcases h with h | h <;> simp [Token.literalValue?, h]

theorem literalValue?_leftParen (h : t.kind = .leftParen) : t.literalValue? = none := by
  simp [Token.literalValue?, h]

theorem leftParen_not_prefixed (h : t.kind = .leftParen) : t.kind ∉ prefixOperators := by
  simp [prefixOperators, h]

theorem rightParen_not_continues (h : t.kind = .rightParen) : ¬ Rule.expression.Continues t := by
  rintro ⟨l, -, hl⟩
  cases l <;> simp [Level.operators, h] at hl

theorem step_literal {x : Value} (h : t.literalValue? = some x) :
    (operand s).step t = some (.operator (settle s)) := by
  simp [step, isLiteral_eq, h]

theorem step_prefixed (h : t.kind ∈ prefixOperators) :
    (operand s).step t = some (.operand (.prefixed :: s)) := by
  simp [step, isLiteral_eq, literalValue?_prefixed h, h]

theorem step_leftParen (h : t.kind = .leftParen) :
    (operand s).step t = some (.operand (.group :: s)) := by
  have hp := leftParen_not_prefixed h
  simp [step, isLiteral_eq, literalValue?_leftParen h, h] at hp ⊢
  exact hp

theorem step_operator {l : Level} (h : t.kind ∈ l.operators) :
    (operator s).step t = some (.operand s) := by
  simp [step, Rule.continues_expression h]

theorem step_rightParen (h : t.kind = .rightParen) :
    (operator (.group :: s)).step t = some (.operator (settle s)) := by
  simp [step, h, rightParen_not_continues h]

theorem step_operand_eq_none : (operand s).step t = none ↔
    t.literalValue? = none ∧ t.kind ∉ prefixOperators ∧ t.kind ≠ .leftParen := by
  simp only [step, isLiteral_eq, Option.isSome_iff_ne_none]
  by_cases hv : t.literalValue? = none
  · by_cases hp : t.kind ∈ prefixOperators <;> simp [hv, hp]
  · simp [hv]

theorem step_operator_eq_none : (operator s).step t = none ↔
    ¬ Rule.expression.Continues t ∧ ¬ (t.kind = .rightParen ∧ s.head? = some .group) := by
  by_cases hc : Rule.expression.Continues t
  · simp [step, hc]
  · by_cases hr : t.kind = .rightParen ∧ s.head? = some .group <;> simp [step, hc, hr]

/-! ## Keeping below a limit -/

/-- After every beginning of the tokens, at most `limit` groups and prefix operators are open. -/
def Shallow (limit : Nat) (m : Phase) (w : List Token) : Prop :=
  ∀ u, u <+: w → ∀ n ∈ m.run u, n.depth ≤ limit

variable {limit : Nat}

theorem shallow_nil : m.Shallow limit [] ↔ m.depth ≤ limit := by
  simp [Shallow]

theorem shallow_cons :
    m.Shallow limit (t :: w) ↔ m.depth ≤ limit ∧ ∀ n ∈ m.step t, n.Shallow limit w := by
  constructor
  · intro h
    refine ⟨h [] (List.nil_prefix) m rfl, fun n hn u hu k hk => ?_⟩
    exact h (t :: u) ((List.prefix_cons_inj t).2 hu) k (by rw [run_cons, hn]; exact hk)
  · rintro ⟨hm, h⟩ u hu k hk
    rcases List.prefix_cons_iff.1 hu with rfl | ⟨v, rfl, hv⟩
    · cases hk
      exact hm
    · rw [run_cons, Option.mem_def, Option.bind_eq_some_iff] at hk
      obtain ⟨n, hn, hk⟩ := hk
      exact h n hn v hv k hk

theorem shallow_append (h : m.run w = some n) :
    m.Shallow limit (w ++ v) ↔ m.Shallow limit w ∧ n.Shallow limit v := by
  induction w generalizing m with
  | nil =>
    cases h
    simp only [List.nil_append, shallow_nil]
    constructor
    · intro hv
      exact ⟨hv [] List.nil_prefix _ rfl, hv⟩
    · exact And.right
  | cons t w ih =>
    rw [run_cons, Option.bind_eq_some_iff] at h
    obtain ⟨k, hk, hw⟩ := h
    simp only [List.cons_append, shallow_cons, hk, Option.mem_def, Option.some.injEq, forall_eq',
      ih hw, and_assoc]

theorem run_of_derives {r : Rule} {e : Expr} (h : Derives r w e) (s : List Opening) :
    (operand s).run w = some (.operator (settle s)) := by
  induction h generalizing s with
  | expression _ ih | operand _ ih | primary _ ih => exact ih s
  | operation _ operator _ ihl ihr =>
    rw [run_append, ihl, Option.bind_some, run_cons, step_operator operator, Option.bind_some, ihr,
      settle_settle]
  | prefixed operator _ ih =>
    rw [run_cons, step_prefixed operator, Option.bind_some, ih, settle_prefixed]
  | group opening _ closing ih =>
    rw [List.cons_append, run_cons, step_leftParen opening, Option.bind_some, run_append, ih,
      settle_group, Option.bind_some, run_cons, step_rightParen closing]
    rfl
  | literal leaf =>
    rw [run_cons, step_literal (leaf_iff.1 leaf)]
    rfl

/-- What derives a tree opens no more than the tree's nesting. -/
theorem shallow_of_derives {r : Rule} {e : Expr} (h : Derives r w e) {s : List Opening}
    (hs : s.length + e.nesting ≤ limit) : (operand s).Shallow limit w := by
  induction h generalizing s with
  | expression _ ih | operand _ ih | primary _ ih => exact ih hs
  | @operation l w v a b t left operator _ ihl ihr =>
    simp only [Expr.nesting] at hs
    have hle := length_settle_le s
    rw [shallow_append (run_of_derives left s), shallow_cons, step_operator operator]
    refine ⟨ihl (by omega), ?_, ?_⟩
    · simp only [depth]
      omega
    · rintro n ⟨⟩
      exact ihr (by omega)
  | prefixed operator _ ih =>
    simp only [Expr.nesting] at hs
    rw [shallow_cons, step_prefixed operator]
    refine ⟨by simp only [depth]; omega, ?_⟩
    rintro n ⟨⟩
    exact ih (by simp only [List.length_cons]; omega)
  | group opening inner closing ih =>
    simp only [Expr.nesting] at hs
    have hle := length_settle_le s
    rw [List.cons_append, shallow_cons, step_leftParen opening]
    refine ⟨by simp only [depth]; omega, ?_⟩
    rintro n ⟨⟩
    rw [shallow_append (run_of_derives inner _), settle_group, shallow_cons, step_rightParen closing]
    refine ⟨ih (by simp only [List.length_cons]; omega), ?_, ?_⟩
    · simp only [depth, List.length_cons]
      omega
    · rintro n ⟨⟩
      rw [shallow_nil]
      simp only [depth]
      omega
  | literal leaf =>
    have hle := length_settle_le s
    rw [shallow_cons, step_literal (leaf_iff.1 leaf)]
    simp only [Expr.nesting] at hs
    refine ⟨by simp only [depth]; omega, ?_⟩
    rintro n ⟨⟩
    rw [shallow_nil]
    simp only [depth]
    omega

end Phase

end Trellis
