import Trellis.Proofs.Grammar

/-!
# Reading as a relation

What the rules do to a list of tokens, as a relation with one case for each thing that can happen
next. Later proofs go by induction over it and never open the reader itself.

* `Reads`: a task, at a depth, on a list of tokens, ends in a tree with the tokens after it, or in a
  failure;
* `reads_iff`: the relation and the reader agree;
* `reads_ok_iff`: **a tree is read exactly if the grammar derives it**, what follows ends it, and its
  groups and prefix operators fit below the nesting limit.
-/

namespace Trellis

/-- What there is to read: a tree by a rule, or the operators of a level that follow a left operand. -/
inductive Task where
  | rule (r : Rule)
  | chain (l : Level) (left : Expr)

/-- How reading ends. -/
abbrev Outcome := Except Failure (Expr × List Token)

open Rule in
/-- Reading step by step. -/
inductive Reads (endLine : Int) : Task → Nat → List Token → Outcome → Prop
  | expression {d : Nat} {ts : List Token} {o : Outcome}
      (inner : Reads endLine (.rule (.binary .equality)) d ts o) :
      Reads endLine (.rule .expression) d ts o
  | leftFails {l : Level} {d : Nat} {ts : List Token} {f : Failure}
      (left : Reads endLine (.rule l.operand) d ts (.error f)) :
      Reads endLine (.rule (.binary l)) d ts (.error f)
  | binary {l : Level} {d : Nat} {ts us : List Token} {a : Expr} {o : Outcome}
      (left : Reads endLine (.rule l.operand) d ts (.ok (a, us)))
      (chain : Reads endLine (.chain l a) d us o) : Reads endLine (.rule (.binary l)) d ts o
  | chainEnds {l : Level} {a : Expr} {d : Nat} {ts : List Token}
      (next : ∀ t ∈ ts.head?, t.kind ∉ l.operators) :
      Reads endLine (.chain l a) d ts (.ok (a, ts))
  | rightFails {l : Level} {a : Expr} {d : Nat} {t : Token} {ts : List Token} {f : Failure}
      (operator : t.kind ∈ l.operators) (right : Reads endLine (.rule l.operand) d ts (.error f)) :
      Reads endLine (.chain l a) d (t :: ts) (.error f)
  | operation {l : Level} {a b : Expr} {d : Nat} {t : Token} {ts us : List Token} {o : Outcome}
      (operator : t.kind ∈ l.operators)
      (right : Reads endLine (.rule l.operand) d ts (.ok (b, us)))
      (chain : Reads endLine (.chain l (.binary a t b)) d us o) :
      Reads endLine (.chain l a) d (t :: ts) o
  | prefixTooDeep {d : Nat} {t : Token} {ts : List Token} (operator : t.kind ∈ prefixOperators)
      (deep : maxNestingDepth < d + 1) :
      Reads endLine (.rule .unary) d (t :: ts) (.error (failNested t (d + 1) ts))
  | prefixFails {d : Nat} {t : Token} {ts : List Token} {f : Failure}
      (operator : t.kind ∈ prefixOperators) (fits : d + 1 ≤ maxNestingDepth)
      (inner : Reads endLine (.rule .unary) (d + 1) ts (.error f)) :
      Reads endLine (.rule .unary) d (t :: ts) (.error f)
  | prefixed {d : Nat} {t : Token} {ts us : List Token} {e : Expr}
      (operator : t.kind ∈ prefixOperators) (fits : d + 1 ≤ maxNestingDepth)
      (inner : Reads endLine (.rule .unary) (d + 1) ts (.ok (e, us))) :
      Reads endLine (.rule .unary) d (t :: ts) (.ok (.unary t e, us))
  | primary {d : Nat} {ts : List Token} {o : Outcome}
      (next : ∀ t ∈ ts.head?, t.kind ∉ prefixOperators)
      (inner : Reads endLine (.rule .primary) d ts o) : Reads endLine (.rule .unary) d ts o
  | literal {d : Nat} {t : Token} {ts : List Token} {v : Value} (value : t.literalValue? = some v) :
      Reads endLine (.rule .primary) d (t :: ts) (.ok (.literal v, ts))
  | groupTooDeep {d : Nat} {t : Token} {ts : List Token} (opening : t.kind = .leftParen)
      (deep : maxNestingDepth < d + 1) :
      Reads endLine (.rule .primary) d (t :: ts) (.error (failNested t (d + 1) ts))
  | groupFails {d : Nat} {t : Token} {ts : List Token} {f : Failure} (opening : t.kind = .leftParen)
      (fits : d + 1 ≤ maxNestingDepth)
      (inner : Reads endLine (.rule .expression) (d + 1) ts (.error f)) :
      Reads endLine (.rule .primary) d (t :: ts) (.error f)
  | unclosed {d : Nat} {t : Token} {ts us : List Token} {e : Expr} (opening : t.kind = .leftParen)
      (fits : d + 1 ≤ maxNestingDepth)
      (inner : Reads endLine (.rule .expression) (d + 1) ts (.ok (e, us)))
      (next : ∀ u ∈ us.head?, u.kind ≠ .rightParen) :
      Reads endLine (.rule .primary) d (t :: ts) (.error (failAt missingParen endLine (d + 1) us))
  | group {d : Nat} {t u : Token} {ts us : List Token} {e : Expr} (opening : t.kind = .leftParen)
      (fits : d + 1 ≤ maxNestingDepth)
      (inner : Reads endLine (.rule .expression) (d + 1) ts (.ok (e, u :: us)))
      (closing : u.kind = .rightParen) :
      Reads endLine (.rule .primary) d (t :: ts) (.ok (.grouping e, us))
  | operandExpected {d : Nat} {ts : List Token}
      (next : ∀ t ∈ ts.head?, t.literalValue? = none ∧ t.kind ≠ .leftParen) :
      Reads endLine (.rule .primary) d ts (.error (failAt .operandExpected endLine d ts))

/-- The outcome of a reader, without the bound on what is left. -/
def Outcome.ofParsed {n : Nat} : Except Failure (Parsed n) → Outcome
  | .error f => .error f
  | .ok p => .ok (p.tree, p.rest)

theorem literalValue?_ne_leftParen {t : Token} {v : Value} (h : t.literalValue? = some v) :
    t.kind ≠ .leftParen := by
  intro ht
  simp [Token.literalValue?, ht] at h

theorem closeGroup_error {endLine : Int} {d : Nat} {us : List Token} {f : Failure}
    (h : Rule.closeGroup endLine d us = .error f) :
    (∀ u ∈ us.head?, u.kind ≠ .rightParen) ∧ f = Rule.failAt missingParen endLine d us := by
  cases us with
  | nil => cases h; exact ⟨by simp, rfl⟩
  | cons u us =>
    simp only [Rule.closeGroup] at h
    split at h <;> cases h
    exact ⟨by simpa using ‹_›, rfl⟩

theorem closeGroup_ok {endLine : Int} {d : Nat} {us : List Token}
    {after : { rest : List Token // rest.length ≤ us.length }}
    (h : Rule.closeGroup endLine d us = .ok after) :
    ∃ u, u.kind = .rightParen ∧ us = u :: after.1 := by
  cases us with
  | nil => cases h
  | cons u us =>
    simp only [Rule.closeGroup] at h
    split at h <;> cases h
    exact ⟨u, ‹_›, rfl⟩

/-! ## The relation and the reader -/

theorem reads_parse (endLine : Int) (r : Rule) (d : Nat) (ts : List Token) :
    Reads endLine (.rule r) d ts (.ofParsed (r.parse endLine d ts)) := by
  refine (Rule.parse.mutual_induct_unfolding endLine
    (fun r d ts o => Reads endLine (.rule r) d ts (.ofParsed o))
    (fun l a d ts o => Reads endLine (.chain l a) d ts (.ofParsed o))
    ?_ ?_ ?_ ?_ ?_ ?_ ?_ ?_ ?_ ?_ ?_ ?_ ?_ ?_ ?_ ?_ ?_ ?_ ?_ ?_ ?_).1 r d ts
  · exact fun d ts ih => .expression ih
  · intro d l ts f h ih
    rw [h] at ih
    exact .leftFails ih
  · intro d l ts left h f hf ih ihc
    rw [h] at ih
    rw [hf] at ihc
    exact .binary ih ihc
  · intro d l ts left h p hp ih ihc
    rw [h] at ih
    rw [hp] at ihc
    exact .binary ih ihc
  · intro d ih
    exact .primary (by simp) ih
  · intro d t ts ht hd
    exact .prefixTooDeep ht hd
  · intro d t ts ht hd f h ih
    rw [h] at ih
    exact .prefixFails ht (Nat.le_of_not_lt hd) ih
  · intro d t ts ht hd p h ih
    rw [h] at ih
    exact .prefixed ht (Nat.le_of_not_lt hd) ih
  · intro d t ts ht ih
    exact .primary (by simpa using ht) ih
  · exact fun d => .operandExpected (by simp)
  · exact fun d t ts v hv => .literal hv
  · exact fun d t ts _ ht hd => .groupTooDeep ht hd
  · intro d t ts _ ht hd f h ih
    rw [h] at ih
    exact .groupFails ht (Nat.le_of_not_lt hd) ih
  · intro d t ts _ ht hd p h f hf ih
    rw [h] at ih
    obtain ⟨next, rfl⟩ := closeGroup_error hf
    exact .unclosed ht (Nat.le_of_not_lt hd) ih next
  · intro d t ts _ ht hd p h after ha ih
    rw [h] at ih
    obtain ⟨u, hu, hr⟩ := closeGroup_ok ha
    simp only [Outcome.ofParsed, hr] at ih
    exact .group ht (Nat.le_of_not_lt hd) ih hu
  · intro d t ts hv ht
    exact .operandExpected (by simp [hv, ht])
  · exact fun l a d => .chainEnds (by simp)
  · intro l a d t ts ht f h ih
    rw [h] at ih
    exact .rightFails ht ih
  · intro l a d t ts ht p h f hf ih ihc
    rw [h] at ih
    rw [hf] at ihc
    exact .operation ht ih ihc
  · intro l a d t ts ht p h q hq ih ihc
    rw [h] at ih
    rw [hq] at ihc
    exact .operation ht ih ihc
  · intro l a d t ts ht
    exact .chainEnds (by simpa using ht)

/-- The next token and the depth leave one case only. -/
theorem reads_unique {endLine : Int} {k : Task} {d : Nat} {ts : List Token} {o o' : Outcome}
    (h : Reads endLine k d ts o) (h' : Reads endLine k d ts o') : o = o' := by
  induction h generalizing o' with
  | _ => cases h' <;> grind [literalValue?_ne_leftParen]

theorem reads_iff {endLine : Int} {r : Rule} {d : Nat} {ts : List Token} {o : Outcome} :
    Reads endLine (.rule r) d ts o ↔ Outcome.ofParsed (r.parse endLine d ts) = o := by
  constructor
  · exact fun h => reads_unique (reads_parse endLine r d ts) h
  · rintro rfl
    exact reads_parse endLine r d ts

/-! ## What is read is what the grammar derives -/

/-- What reading the tokens `w` before `us` as the tree `e` says of its task. A chain goes on with
whatever tokens derived its left operand. -/
def Task.Sound (d : Nat) (w us : List Token) (e : Expr) : Task → Prop
  | .rule r => Derives r w e ∧ r.EndsBefore us ∧ e.Fits d
  | .chain l a => ∀ v, Derives (.binary l) v a → l.operand.EndsBefore (w ++ us) → a.Fits d →
      Derives (.binary l) (v ++ w) e ∧ (Rule.binary l).EndsBefore us ∧ e.Fits d

theorem reads_sound {endLine : Int} {k : Task} {d : Nat} {ts us : List Token} {e : Expr}
    (h : Reads endLine k d ts (.ok (e, us))) : ∃ w, ts = w ++ us ∧ k.Sound d w us e := by
  generalize ho : Except.ok (e, us) = o at h
  induction h generalizing e us with
  | expression _ ih =>
    obtain ⟨w, rfl, hw, hend, hfit⟩ := ih ho
    exact ⟨w, rfl, .expression hw, hend, hfit⟩
  | binary _ _ ihl ihc =>
    obtain ⟨w, rfl, hw, hend, hfit⟩ := ihl rfl
    obtain ⟨v, rfl, hv⟩ := ihc ho
    exact ⟨w ++ v, by simp, hv w (.operand hw) hend hfit⟩
  | chainEnds next =>
    cases ho
    refine ⟨[], rfl, fun v hv hend hfit => ⟨by simpa using hv, ?_, hfit⟩⟩
    exact Rule.endsBefore_binary.2 ⟨hend, next⟩
  | @operation l a b d t ts us' _ operator _ _ ihr ihc =>
    obtain ⟨w, rfl, hw, hend, hfit⟩ := ihr rfl
    obtain ⟨x, rfl, hx⟩ := ihc ho
    refine ⟨t :: w ++ x, by simp, fun v hv _ hfit' => ?_⟩
    have := hx (v ++ t :: w) (.operation hv operator hw) hend (by simp [hfit, hfit'])
    simpa using this
  | @prefixed d t _ _ _ operator fits _ ih =>
    cases ho
    obtain ⟨w, rfl, hw, -, hfit⟩ := ih rfl
    refine ⟨t :: w, rfl, .prefixed operator hw, ?_, by simp [fits, hfit]⟩
    exact Rule.endsBefore_of_levels_nil rfl _
  | primary _ _ ih =>
    obtain ⟨w, rfl, hw, hend, hfit⟩ := ih ho
    exact ⟨w, rfl, .primary hw, Rule.endsBefore_of_levels_nil rfl _, hfit⟩
  | @literal _ t _ _ value =>
    cases ho
    exact ⟨[t], rfl, .literal (leaf_iff.2 value), Rule.endsBefore_of_levels_nil rfl _, by simp⟩
  | @group d t u _ _ _ opening fits _ closing ih =>
    cases ho
    obtain ⟨w, rfl, hw, -, hfit⟩ := ih rfl
    refine ⟨t :: w ++ [u], by simp, .group opening hw closing, ?_, by simp [fits, hfit]⟩
    exact Rule.endsBefore_of_levels_nil rfl _
  | _ => cases ho

/-- How a rule reads the tokens `w` of the tree `e`: a level then goes on with the operators that
follow, and any other rule is done. -/
def Rule.Completes (endLine : Int) (w : List Token) (e : Expr) : Rule → Prop
  | .binary l => ∀ d us o, e.Fits d → l.operand.EndsBefore us → Reads endLine (.chain l e) d us o →
      Reads endLine (.rule (.binary l)) d (w ++ us) o
  | r => ∀ d us, e.Fits d → r.EndsBefore us → Reads endLine (.rule r) d (w ++ us) (.ok (e, us))

theorem Rule.Completes.reads {endLine : Int} {r : Rule} {w : List Token} {e : Expr}
    (h : r.Completes endLine w e) {d : Nat} {us : List Token} (hfit : e.Fits d)
    (hend : r.EndsBefore us) : Reads endLine (.rule r) d (w ++ us) (.ok (e, us)) := by
  cases r with
  | binary l =>
    obtain ⟨hoperand, hnext⟩ := Rule.endsBefore_binary.1 hend
    exact h d us _ hfit hoperand (.chainEnds hnext)
  | _ => exact h d us hfit hend

theorem derives_primary_head {w us : List Token} {e : Expr} (h : Derives .primary w e) :
    ∀ t ∈ (w ++ us).head?, t.kind ∉ prefixOperators := by
  cases h with
  | literal leaf => rcases leaf with kind | kind | kind | kind | kind <;> simp [prefixOperators, kind]
  | group opening => simp [prefixOperators, opening]

theorem derives_completes {endLine : Int} {r : Rule} {w : List Token} {e : Expr}
    (h : Derives r w e) : r.Completes endLine w e := by
  induction h with
  | expression _ ih => exact fun d us hfit hend => .expression (ih.reads hfit hend)
  | operand _ ih => exact fun d us o hfit hend chain => .binary (ih.reads hfit hend) chain
  | @operation l w v a b t _ operator _ ihl ihr =>
    intro d us o hfit hend chain
    obtain ⟨hfa, hfb⟩ := (Expr.fits_binary d a b t).1 hfit
    have right := ihr.reads hfb hend
    have left := ihl d (t :: (v ++ us)) o hfa
      ((Rule.endsBefore_cons _ _ _).2 (Rule.not_continues_operand operator))
      (.operation operator right chain)
    simpa using left
  | prefixed operator _ ih =>
    intro d us hfit hend
    obtain ⟨fits, hfe⟩ := (Expr.fits_unary _ _ _).1 hfit
    exact .prefixed operator fits (ih.reads hfe hend)
  | primary hw ih =>
    exact fun d us hfit hend => .primary (derives_primary_head hw) (ih.reads hfit hend)
  | literal leaf => exact fun d us _ _ => .literal (leaf_iff.1 leaf)
  | @group t u w e opening _ closing ih =>
    intro d us hfit _
    obtain ⟨fits, hfe⟩ := (Expr.fits_grouping _ _).1 hfit
    have hend : Rule.expression.EndsBefore (u :: us) := by
      rw [Rule.endsBefore_cons]
      rintro ⟨l, -, hl⟩
      cases l <;> simp [Level.operators, closing] at hl
    have inner := ih.reads hfe hend
    simpa using Reads.group opening fits inner closing

/-- **Reading is the grammar.** A rule reads a tree, and leaves what follows its tokens, exactly if
the grammar derives the tree from them, what follows ends it, and its nesting fits. -/
theorem reads_ok_iff {endLine : Int} {r : Rule} {d : Nat} {ts us : List Token} {e : Expr} :
    Reads endLine (.rule r) d ts (.ok (e, us)) ↔
      ∃ w, ts = w ++ us ∧ Derives r w e ∧ r.EndsBefore us ∧ e.Fits d := by
  constructor
  · exact reads_sound
  · rintro ⟨w, rfl, hw, hend, hfit⟩
    exact (derives_completes hw).reads hfit hend

end Trellis
