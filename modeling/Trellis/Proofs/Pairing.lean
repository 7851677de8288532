import Mathlib.Data.List.Forall2
import Trellis.Proofs.Reading

/-!
# Reading tokens of the same kinds

The rules look at nothing of a token but its kind. Whatever else it holds goes into a tree or an error
unseen. So tokens that are paired, one by one, with others of the same kinds are read as those are: the
trees have the same shape and paired tokens in it, and the errors are the same but for the tokens at them.

* `Expr.Paired`, `Failure.Paired`: trees and failures that hold paired tokens at the same places;
* `reads_paired`: **paired tokens are read alike**.
-/

namespace Trellis

variable {R : Token → Token → Prop}

/-- Paired tokens are of the same kind. -/
def KeepsKinds (R : Token → Token → Prop) : Prop := ∀ t u, R t u → t.kind = u.kind

/-- Trees of the same shape, whose operators are paired and whose literals are those of paired tokens. -/
inductive Expr.Paired (R : Token → Token → Prop) : Expr → Expr → Prop
  | binary {a b a' b' : Expr} {t u : Token} (left : Paired R a a') (operator : R t u)
      (right : Paired R b b') : Paired R (.binary a t b) (.binary a' u b')
  | grouping {e e' : Expr} (inner : Paired R e e') : Paired R (.grouping e) (.grouping e')
  | literal {t u : Token} {v v' : Value} (token : R t u) (leaf : Leaf t v) (leaf' : Leaf u v') :
      Paired R (.literal v) (.literal v')
  | unary {e e' : Expr} {t u : Token} (operator : R t u) (operand : Paired R e e') :
      Paired R (.unary t e) (.unary u e')

/-- The same task, but for the left operand that has been read. -/
inductive Task.Paired (R : Token → Token → Prop) : Task → Task → Prop
  | rule {r : Rule} : Paired R (.rule r) (.rule r)
  | chain {l : Level} {a a' : Expr} (left : a.Paired R a') : Paired R (.chain l a) (.chain l a')

/-- The same fault at paired tokens, or at the end of both lists. -/
inductive Failure.Paired (R : Token → Token → Prop) (endLine endLine' : Int) :
    Failure → Failure → Prop
  | at {fault : ParseFault} {d : Nat} {ts us : List Token} (rest : List.Forall₂ R ts us) :
      Paired R endLine endLine' (Rule.failAt fault endLine d ts) (Rule.failAt fault endLine' d us)
  | nested {t u : Token} {d : Nat} {ts us : List Token} (opening : R t u)
      (rest : List.Forall₂ R ts us) :
      Paired R endLine endLine' (Rule.failNested t d ts) (Rule.failNested u d us)

/-- Paired trees before paired tokens, or paired failures. -/
inductive Outcome.Paired (R : Token → Token → Prop) (endLine endLine' : Int) :
    Outcome → Outcome → Prop
  | ok {e e' : Expr} {ts us : List Token} (tree : e.Paired R e') (rest : List.Forall₂ R ts us) :
      Paired R endLine endLine' (.ok (e, ts)) (.ok (e', us))
  | error {f f' : Failure} (h : f.Paired R endLine endLine' f') :
      Paired R endLine endLine' (.error f) (.error f')

section

variable {endLine endLine' : Int} {ts us : List Token} {t u : Token} {e : Expr} {f : Failure}
  {o o' : Outcome}

theorem ok_of_paired (h : Outcome.Paired R endLine endLine' (.ok (e, ts)) o') :
    ∃ e' us, o' = .ok (e', us) ∧ e.Paired R e' ∧ List.Forall₂ R ts us := by
  cases h with
  | ok tree rest => exact ⟨_, _, rfl, tree, rest⟩

theorem error_of_paired (h : Outcome.Paired R endLine endLine' (.error f) o') :
    ∃ f', o' = .error f' ∧ f.Paired R endLine endLine' f' := by
  cases h with
  | error h => exact ⟨_, rfl, h⟩

theorem exists_leaf {v : Value} (hk : t.kind = u.kind) (h : Leaf t v) : ∃ v', Leaf u v' := by
  cases h with
  | falseWord kind => exact ⟨_, .falseWord (hk ▸ kind)⟩
  | trueWord kind => exact ⟨_, .trueWord (hk ▸ kind)⟩
  | nullWord kind => exact ⟨_, .nullWord (hk ▸ kind)⟩
  | number kind => exact ⟨_, .number (hk ▸ kind)⟩
  | string kind => exact ⟨_, .string (hk ▸ kind)⟩

/-- Tokens of the same kind are both no operands. -/
theorem literalValue?_eq_none (hk : t.kind = u.kind) (h : t.literalValue? = none) :
    u.literalValue? = none := by
  rw [Option.eq_none_iff_forall_ne_some] at h ⊢
  intro v hv
  obtain ⟨v', hv'⟩ := exists_leaf hk.symm (leaf_iff.2 hv)
  exact h v' (leaf_iff.1 hv')

/-- What the kind of the next token tells is told of the one that it is paired with. -/
theorem next_paired (hR : KeepsKinds R) {P : Token → Prop}
    (hP : ∀ t u, t.kind = u.kind → P t → P u) (hts : List.Forall₂ R ts us)
    (h : ∀ t ∈ ts.head?, P t) : ∀ u ∈ us.head?, P u := by
  cases hts with
  | nil => exact h
  | cons ht =>
    rintro u ⟨⟩
    exact hP _ _ (hR _ _ ht) (h _ rfl)

/-- **Paired tokens are read alike.** -/
theorem reads_paired {task task' : Task} {d : Nat} (hR : KeepsKinds R)
    (h : Reads endLine task d ts o) (endLine' : Int) (htask : task.Paired R task')
    (hts : List.Forall₂ R ts us) : ∃ o', Reads endLine' task' d us o' ∧
      Outcome.Paired R endLine endLine' o o' := by
  induction h generalizing task' us with
  | expression _ ih =>
    cases htask
    obtain ⟨o', h', hp⟩ := ih .rule hts
    exact ⟨o', .expression h', hp⟩
  | leftFails _ ih =>
    cases htask
    obtain ⟨o', h', hp⟩ := ih .rule hts
    obtain ⟨f', rfl, hf⟩ := error_of_paired hp
    exact ⟨_, .leftFails h', .error hf⟩
  | binary _ _ ihl ihc =>
    cases htask
    obtain ⟨o', h', hp⟩ := ihl .rule hts
    obtain ⟨a', us', rfl, ha, hus⟩ := ok_of_paired hp
    obtain ⟨o'', hc, hp'⟩ := ihc (.chain ha) hus
    exact ⟨o'', .binary h' hc, hp'⟩
  | @chainEnds l _ _ _ next =>
    cases htask with
    | chain ha =>
      have next' := next_paired hR (P := (·.kind ∉ l.operators)) (fun _ _ hk ht => hk ▸ ht) hts next
      exact ⟨_, .chainEnds next', .ok ha hts⟩
  | @rightFails l _ _ _ _ _ operator _ ih =>
    cases htask
    cases hts with
    | cons ht hts =>
      obtain ⟨o', h', hp⟩ := ih .rule hts
      obtain ⟨f', rfl, hf⟩ := error_of_paired hp
      exact ⟨_, .rightFails (hR _ _ ht ▸ operator) h', .error hf⟩
  | operation operator _ _ ihr ihc =>
    cases htask with
    | chain ha =>
      cases hts with
      | cons ht hts =>
        obtain ⟨o', h', hp⟩ := ihr .rule hts
        obtain ⟨b', us', rfl, hb, hus⟩ := ok_of_paired hp
        obtain ⟨o'', hc, hp'⟩ := ihc (.chain (.binary ha ht hb)) hus
        exact ⟨o'', .operation (hR _ _ ht ▸ operator) h' hc, hp'⟩
  | prefixTooDeep operator deep =>
    cases htask
    cases hts with
    | cons ht hts =>
      exact ⟨_, .prefixTooDeep (hR _ _ ht ▸ operator) deep, .error (.nested ht hts)⟩
  | prefixFails operator fits _ ih =>
    cases htask
    cases hts with
    | cons ht hts =>
      obtain ⟨o', h', hp⟩ := ih .rule hts
      obtain ⟨f', rfl, hf⟩ := error_of_paired hp
      exact ⟨_, .prefixFails (hR _ _ ht ▸ operator) fits h', .error hf⟩
  | prefixed operator fits _ ih =>
    cases htask
    cases hts with
    | cons ht hts =>
      obtain ⟨o', h', hp⟩ := ih .rule hts
      obtain ⟨e', us', rfl, he, hus⟩ := ok_of_paired hp
      exact ⟨_, .prefixed (hR _ _ ht ▸ operator) fits h', .ok (.unary ht he) hus⟩
  | primary next _ ih =>
    cases htask
    have next' := next_paired hR (P := (·.kind ∉ prefixOperators)) (fun _ _ hk ht => hk ▸ ht) hts next
    obtain ⟨o', h', hp⟩ := ih .rule hts
    exact ⟨o', .primary next' h', hp⟩
  | literal value =>
    cases htask
    cases hts with
    | cons ht hts =>
      have leaf := leaf_iff.2 value
      obtain ⟨v', leaf'⟩ := exists_leaf (hR _ _ ht) leaf
      exact ⟨_, .literal (leaf_iff.1 leaf'), .ok (.literal ht leaf leaf') hts⟩
  | groupTooDeep opening deep =>
    cases htask
    cases hts with
    | cons ht hts =>
      exact ⟨_, .groupTooDeep (hR _ _ ht ▸ opening) deep, .error (.nested ht hts)⟩
  | groupFails opening fits _ ih =>
    cases htask
    cases hts with
    | cons ht hts =>
      obtain ⟨o', h', hp⟩ := ih .rule hts
      obtain ⟨f', rfl, hf⟩ := error_of_paired hp
      exact ⟨_, .groupFails (hR _ _ ht ▸ opening) fits h', .error hf⟩
  | unclosed opening fits _ next ih =>
    cases htask
    cases hts with
    | cons ht hts =>
      obtain ⟨o', h', hp⟩ := ih .rule hts
      obtain ⟨e', us', rfl, -, hus⟩ := ok_of_paired hp
      have next' := next_paired hR (P := (·.kind ≠ .rightParen)) (fun _ _ hk ht => hk ▸ ht) hus next
      exact ⟨_, .unclosed (hR _ _ ht ▸ opening) fits h' next', .error (.at hus)⟩
  | group opening fits _ closing ih =>
    cases htask
    cases hts with
    | cons ht hts =>
      obtain ⟨o', h', hp⟩ := ih .rule hts
      obtain ⟨e', us', rfl, he, hus⟩ := ok_of_paired hp
      cases hus with
      | cons hu hus =>
        exact ⟨_, .group (hR _ _ ht ▸ opening) fits h' (hR _ _ hu ▸ closing), .ok (.grouping he) hus⟩
  | operandExpected next =>
    cases htask
    have next' := next_paired hR (P := fun t => t.literalValue? = none ∧ t.kind ≠ .leftParen)
      (fun _ _ hk ht => ⟨literalValue?_eq_none hk ht.1, hk ▸ ht.2⟩) hts next
    exact ⟨_, .operandExpected next', .error (.at hts)⟩

end

end Trellis
