import Trellis.Proofs.WalkReading

/-!
# The depths that a rule goes through

The programs of the rules once more, and now with a record: each step of the cursor also notes the depth
after it. Without the record the programs are those of the rules, so the record is of what the rules do.
All that is noted lies between the depth at the start and one more than the greater of that depth and the
limit.

* `Watched`: a program of cursor steps with a record; `Watched.rule`: the programs of the rules;
* `Watched.Agrees`: a program without its record; `Watched.agrees_rule`: those of the rules;
* `Watched.Spans`: the depths that a program notes, and where it ends if it does not stop early;
* `Watched.rule_spans`: those of the rules.
-/

namespace Trellis

/-- A program of cursor steps that keeps a record of depths. -/
abbrev Watched (α : Type) := ExceptT Stop (StateT (Parser × List Nat) Option) α

namespace Watched

variable {α β : Type}

/-! ## The programs -/

/-- Takes a step, and notes the depth after it. -/
def note (x : Walk α) : Watched α := fun s => (x s.1).map fun o => (o.1, o.2, s.2 ++ [o.2.depth])

/-- Stops without a result, since no further call may be opened. -/
def giveUp : Watched α := fun _ => none

/-- Reads an expression in parentheses, where nothing else is left to be read. -/
def group (expression : Watched Expr) : Watched Expr := do
  if ← note (Walk.matchAny [.leftParen]) then
    note Walk.enter
    let inner ← expression
    let _ ← note (Walk.consume .rightParen "Expect ')' after expression.")
    note Walk.leave
    return .grouping inner
  else note (Walk.failHere .operandExpected)

mutual

/-- Reads a tree by a rule, with at most `n` calls open at once. -/
def ruleWithin : Nat → Rule → Watched Expr
  | 0, _ => giveUp
  | n + 1, .expression => ruleWithin n (.binary .equality)
  | n + 1, .binary level => do
    let left ← ruleWithin n level.operand
    chainWithin n level left
  | n + 1, .unary => do
    if ← note (Walk.matchAny prefixOperators) then
      let operator ← note Walk.previous
      note Walk.enter
      let operand ← ruleWithin n .unary
      note Walk.leave
      return .unary operator operand
    else ruleWithin n .primary
  | n + 1, .primary => do
    if ← note (Walk.matchAny [.kwFalse]) then return .literal (.truth false)
    else if ← note (Walk.matchAny [.kwTrue]) then return .literal (.truth true)
    else if ← note (Walk.matchAny [.kwNull]) then return .literal .null
    else if ← note (Walk.matchAny [.number, .string]) then
      return .literal (← note Walk.previous).literal
    else group (ruleWithin n .expression)

/-- Reads operators of a level with their right operands, with at most `n` calls open at once. -/
def chainWithin : Nat → Level → Expr → Watched Expr
  | 0, _, _ => giveUp
  | n + 1, level, left => do
    if ← note (Walk.matchAny level.operators) then
      let operator ← note Walk.previous
      let right ← ruleWithin n level.operand
      chainWithin n level (.binary left operator right)
    else return left

end

/-- Reads a tree by a rule. Eight calls for each token that is left are never too few. -/
def rule (r : Rule) : Watched Expr := do ruleWithin (8 * (← get).1.rest.length + 8) r

/-! ## Without the record -/

theorem bind_eq {σ : Type} (x : ExceptT Stop (StateT σ Option) α)
    (f : α → ExceptT Stop (StateT σ Option) β) (s : σ) :
    (x >>= f) s = (x s).bind fun o => ExceptT.bindCont f o.1 o.2 := rfl

/-- The program does, whatever has been recorded before, what the other does without a record. -/
def Agrees (x : Watched α) (y : Walk α) : Prop :=
  ∀ p ds, (x (p, ds)).map (fun o => (o.1, o.2.1)) = y p

section

variable {x x' : Watched α} {y y' : Walk α} {f : α → Watched β} {g : α → Walk β}

theorem agrees_note (y : Walk α) : (note y).Agrees y := by
  intro p ds
  rw [note, Option.map_map]
  exact Option.map_id'

theorem agrees_pure (a : α) : Agrees (pure a) (pure a) := fun _ _ => rfl

theorem agrees_giveUp : Agrees (giveUp : Watched α) Walk.giveUp := fun _ _ => rfl

theorem agrees_bind (hx : x.Agrees y) (hf : ∀ a, (f a).Agrees (g a)) :
    Agrees (x >>= f) (y >>= g) := by
  intro p ds
  rw [bind_eq, bind_eq, ← hx p ds]
  rcases x (p, ds) with _ | ⟨_ | a, q, ds'⟩
  · rfl
  · rfl
  · exact hf a q ds'

theorem agrees_ite {c : Bool} (h : x.Agrees y) (h' : x'.Agrees y') :
    Agrees (if c = true then x else x') (if c = true then y else y') := by
  cases c
  · exact h'
  · exact h

end

theorem agrees_group {x : Watched Expr} {y : Walk Expr} (h : x.Agrees y) :
    (group x).Agrees (Walk.group y) := by
  refine agrees_bind (agrees_note _) fun found => agrees_ite ?_ (agrees_note _)
  refine agrees_bind (agrees_note _) fun _ => agrees_bind h fun inner => ?_
  exact agrees_bind (agrees_note _) fun _ => agrees_bind (agrees_note _) fun _ => agrees_pure _

theorem agrees_within (n : Nat) : (∀ r, (ruleWithin n r).Agrees (Walk.ruleWithin n r)) ∧
    ∀ l a, (chainWithin n l a).Agrees (Walk.chainWithin n l a) := by
  induction n with
  | zero =>
    constructor
    · intro r
      rw [ruleWithin, Walk.ruleWithin]
      exact agrees_giveUp
    · intro l a
      rw [chainWithin, Walk.chainWithin]
      exact agrees_giveUp
  | succ n ih =>
    obtain ⟨hrule, hchain⟩ := ih
    constructor
    · intro r
      cases r with
      | expression =>
        rw [ruleWithin, Walk.ruleWithin]
        exact hrule _
      | binary l =>
        rw [ruleWithin, Walk.ruleWithin]
        exact agrees_bind (hrule _) fun left => hchain l left
      | unary =>
        rw [ruleWithin, Walk.ruleWithin]
        refine agrees_bind (agrees_note _) fun found => agrees_ite ?_ (hrule _)
        refine agrees_bind (agrees_note _) fun operator => agrees_bind (agrees_note _) fun _ => ?_
        refine agrees_bind (hrule _) fun operand => agrees_bind (agrees_note _) fun _ => ?_
        exact agrees_pure _
      | primary =>
        rw [ruleWithin, Walk.ruleWithin]
        refine agrees_bind (agrees_note _) fun _ => agrees_ite (agrees_pure _) ?_
        refine agrees_bind (agrees_note _) fun _ => agrees_ite (agrees_pure _) ?_
        refine agrees_bind (agrees_note _) fun _ => agrees_ite (agrees_pure _) ?_
        refine agrees_bind (agrees_note _) fun _ => agrees_ite ?_ (agrees_group (hrule _))
        exact agrees_bind (agrees_note _) fun _ => agrees_pure _
    · intro l a
      rw [chainWithin, Walk.chainWithin]
      refine agrees_bind (agrees_note _) fun found => agrees_ite ?_ (agrees_pure _)
      refine agrees_bind (agrees_note _) fun operator => ?_
      exact agrees_bind (hrule _) fun right => hchain l _

/-- Without its record, the program of a rule is the one that goes without. -/
theorem agrees_rule (r : Rule) : (rule r).Agrees (Walk.rule r) :=
  fun p ds => (agrees_within (8 * p.rest.length + 8)).1 r p ds

/-! ## The record -/

/-- From the depth `d` on, the program notes depths from `lo` to `hi`, and ends at `d'` unless it stops
early. -/
structure Spans (lo hi d d' : Nat) (x : Watched α) : Prop where
  noted : ∀ p ds o, p.depth = d → x (p, ds) = some o →
    ∃ new, o.2.2 = ds ++ new ∧ ∀ v ∈ new, lo ≤ v ∧ v ≤ hi
  depth : ∀ p ds a s, p.depth = d → x (p, ds) = some (.ok a, s) → s.1.depth = d'

section

variable {x x' : Watched α} {f : α → Watched β} {lo hi lo' hi' d d' d'' : Nat}

theorem spans_pure (a : α) : Spans lo hi d d (pure a) := by
  constructor
  · rintro p ds o - ⟨⟩
    exact ⟨[], by simp⟩
  · rintro p ds b s hd ⟨⟩
    exact hd

theorem spans_giveUp : Spans lo hi d d' (giveUp : Watched α) := by
  constructor
  · rintro p ds o - ⟨⟩
  · rintro p ds a s - ⟨⟩

/-- Only where the first program ends is anything asked of the second. -/
theorem spans_bind_of_ok (hx : Spans lo hi d d' x)
    (hf : ∀ p ds a s, p.depth = d → x (p, ds) = some (.ok a, s) → Spans lo hi d' d'' (f a)) :
    Spans lo hi d d'' (x >>= f) := by
  constructor
  · intro p ds o hd ho
    rw [bind_eq, Option.bind_eq_some_iff] at ho
    obtain ⟨⟨e, q, ds'⟩, hq, ho⟩ := ho
    obtain ⟨new, rfl, hnew⟩ := hx.noted p ds _ hd hq
    cases e with
    | error e =>
      cases ho
      exact ⟨new, rfl, hnew⟩
    | ok a =>
      obtain ⟨new', hds, hnew'⟩ := (hf p ds a _ hd hq).noted q _ o (hx.depth p ds a _ hd hq) ho
      refine ⟨new ++ new', ?_, List.forall_mem_append.2 ⟨hnew, hnew'⟩⟩
      rw [hds, List.append_assoc]
  · intro p ds b s hd ho
    rw [bind_eq, Option.bind_eq_some_iff] at ho
    obtain ⟨⟨e, q, ds'⟩, hq, ho⟩ := ho
    cases e with
    | error e => cases ho
    | ok a => exact (hf p ds a _ hd hq).depth q ds' b s (hx.depth p ds a _ hd hq) ho

theorem spans_bind (hx : Spans lo hi d d' x) (hf : ∀ a, Spans lo hi d' d'' (f a)) :
    Spans lo hi d d'' (x >>= f) :=
  spans_bind_of_ok hx fun _ _ a _ _ _ => hf a

theorem spans_ite {c : Bool} (h : Spans lo hi d d' x) (h' : Spans lo hi d d' x') :
    Spans lo hi d d' (if c = true then x else x') := by
  cases c
  · exact h'
  · exact h

theorem Spans.widen (h : Spans lo hi d d' x) (hlo : lo' ≤ lo) (hhi : hi ≤ hi') :
    Spans lo' hi' d d' x := by
  refine ⟨?_, h.depth⟩
  intro p ds o hd ho
  obtain ⟨new, hds, hnew⟩ := h.noted p ds o hd ho
  exact ⟨new, hds, fun v hv =>
    ⟨Nat.le_trans hlo (hnew v hv).1, Nat.le_trans (hnew v hv).2 hhi⟩⟩

/-- A step notes the depth that it leads to. -/
theorem spans_note {x : Walk α} (h : ∀ p o, p.depth = d → x p = some o →
    lo ≤ o.2.depth ∧ o.2.depth ≤ hi ∧ (∀ a, o.1 = .ok a → o.2.depth = d')) :
    Spans lo hi d d' (note x) := by
  constructor
  · intro p ds o hd ho
    obtain ⟨o', ho', rfl⟩ := Option.map_eq_some_iff.1 ho
    obtain ⟨hlo, hhi, -⟩ := h p o' hd ho'
    exact ⟨[o'.2.depth], rfl, List.forall_mem_singleton.2 ⟨hlo, hhi⟩⟩
  · intro p ds a s hd ho
    obtain ⟨o', ho', heq⟩ := Option.map_eq_some_iff.1 ho
    obtain ⟨ha, rfl⟩ := Prod.mk.inj heq
    exact (h p o' hd ho').2.2 a ha

end

/-! ### Single steps -/

/-- A step that opens and completes nothing. -/
def Still (x : Walk α) : Prop := ∀ p o, x p = some o → o.2.depth = p.depth

theorem still_matchAny (kinds : List TokenKind) : Still (Walk.matchAny kinds) := by
  intro p o h
  rw [Walk.matchAny_eq] at h
  cases h
  unfold Parser.matchAny
  split <;> rfl

theorem still_previous : Still Walk.previous := by
  rintro p o ⟨⟩
  rfl

theorem still_consume (kind : TokenKind) (message : String) : Still (Walk.consume kind message) := by
  intro p o h
  rw [Walk.consume_eq] at h
  cases h
  unfold Parser.consume
  split
  · split <;> rfl
  · rfl

theorem still_failHere (fault : ParseFault) : Still (Walk.failHere fault : Walk α) := by
  rintro p o ⟨⟩
  rfl

/-- One more is open after `enter`, also where that is too much. -/
theorem depth_enter {p : Parser} {o : Except Stop Unit × Parser} (h : Walk.enter p = some o) :
    o.2.depth = p.depth + 1 ∧ (∀ a, o.1 = .ok a → p.depth + 1 ≤ maxNestingDepth) := by
  rw [Walk.enter, Walk.modify_bind, Walk.get_bind] at h
  split at h
  · rw [bind_eq, Option.bind_eq_some_iff] at h
    obtain ⟨⟨e, q⟩, hq, h⟩ := h
    have hdepth : q.depth = p.depth + 1 := still_previous _ _ hq
    cases e with
    | error e =>
      cases h
      exact ⟨hdepth, by rintro a ⟨⟩⟩
    | ok opening =>
      cases h
      exact ⟨hdepth, by rintro a ⟨⟩⟩
  · rename_i hfits
    cases h
    exact ⟨rfl, fun _ _ => Nat.le_of_not_lt hfits⟩

variable {x : Walk α} {f : Unit → Watched β} {lo hi d d'' : Nat}

theorem Still.spans (h : Still x) (hlo : lo ≤ d) (hhi : d ≤ hi) : Spans lo hi d d (note x) := by
  apply spans_note
  intro p o hd ho
  rw [h p o ho, hd]
  exact ⟨hlo, hhi, fun _ _ => rfl⟩

theorem spans_leave (hlo : lo ≤ d) (hhi : d ≤ hi) : Spans lo hi (d + 1) d (note Walk.leave) := by
  apply spans_note
  intro p o hd ho
  have hdepth : o.2.depth = d := by
    cases ho
    change p.depth - 1 = d
    omega
  exact ⟨hdepth ▸ hlo, hdepth ▸ hhi, fun _ _ => hdepth⟩

/-- What follows `enter` only happens below the limit. -/
theorem spans_enter (hlo : lo ≤ d + 1) (hhi : d + 1 ≤ hi)
    (hf : d + 1 ≤ maxNestingDepth → Spans lo hi (d + 1) d'' (f ())) :
    Spans lo hi d d'' (note Walk.enter >>= f) := by
  have hx : Spans lo hi d (d + 1) (note Walk.enter) := by
    apply spans_note
    intro p o hd ho
    rw [(depth_enter ho).1, hd]
    exact ⟨hlo, hhi, fun _ _ => rfl⟩
  refine spans_bind_of_ok hx ?_
  intro p ds a s hd hs
  obtain ⟨o, ho, heq⟩ := Option.map_eq_some_iff.1 hs
  obtain ⟨ha, -⟩ := Prod.mk.inj heq
  exact hf (hd ▸ (depth_enter ho).2 a ha)

/-! ### The rules -/

/-- The program completes what it opens, and notes nothing below the depth that it begins at and nothing
above the limit but for one that is opened too much. -/
def Balanced (d : Nat) (x : Watched α) : Prop := Spans d (max d maxNestingDepth + 1) d d x

theorem Still.balanced (h : Still x) : Balanced d (note x) :=
  h.spans (Nat.le_refl d) (Nat.le_succ_of_le (Nat.le_max_left d _))

theorem balanced_group {x : Watched Expr} (h : ∀ d, Balanced d x) (d : Nat) :
    Balanced d (group x) := by
  refine spans_bind (still_matchAny _).balanced fun found => spans_ite ?_ (still_failHere _).balanced
  refine spans_enter (by omega) (by omega) fun fits => ?_
  refine spans_bind ((h (d + 1)).widen (by omega) (by omega)) fun inner => ?_
  refine spans_bind ((still_consume _ _).spans (by omega) (by omega)) fun _ => ?_
  exact spans_bind (spans_leave (by omega) (by omega)) fun _ => spans_pure _

theorem balanced_within (n : Nat) : (∀ r d, Balanced d (ruleWithin n r)) ∧
    ∀ l a d, Balanced d (chainWithin n l a) := by
  induction n with
  | zero =>
    constructor
    · intro r d
      rw [ruleWithin]
      exact spans_giveUp
    · intro l a d
      rw [chainWithin]
      exact spans_giveUp
  | succ n ih =>
    obtain ⟨hrule, hchain⟩ := ih
    constructor
    · intro r d
      cases r with
      | expression =>
        rw [ruleWithin]
        exact hrule _ d
      | binary l =>
        rw [ruleWithin]
        exact spans_bind (hrule _ d) fun left => hchain l left d
      | unary =>
        rw [ruleWithin]
        refine spans_bind (still_matchAny _).balanced fun found => spans_ite ?_ (hrule _ d)
        refine spans_bind still_previous.balanced fun operator => ?_
        refine spans_enter (by omega) (by omega) fun fits => ?_
        refine spans_bind ((hrule .unary (d + 1)).widen (by omega) (by omega)) fun operand => ?_
        exact spans_bind (spans_leave (by omega) (by omega)) fun _ => spans_pure _
      | primary =>
        rw [ruleWithin]
        refine spans_bind (still_matchAny _).balanced fun _ => spans_ite (spans_pure _) ?_
        refine spans_bind (still_matchAny _).balanced fun _ => spans_ite (spans_pure _) ?_
        refine spans_bind (still_matchAny _).balanced fun _ => spans_ite (spans_pure _) ?_
        refine spans_bind (still_matchAny _).balanced fun _ => spans_ite ?_ ?_
        · exact spans_bind still_previous.balanced fun _ => spans_pure _
        · exact balanced_group (hrule .expression) d
    · intro l a d
      rw [chainWithin]
      refine spans_bind (still_matchAny _).balanced fun found => spans_ite ?_ (spans_pure _)
      refine spans_bind still_previous.balanced fun operator => ?_
      exact spans_bind (hrule _ d) fun right => hchain l _ d

/-- A rule notes no depth below the one it begins at, and none above what the limit allows. -/
theorem rule_spans (r : Rule) (d : Nat) : Balanced d (rule r) where
  noted p ds := ((balanced_within (8 * p.rest.length + 8)).1 r d).noted p ds
  depth p ds := ((balanced_within (8 * p.rest.length + 8)).1 r d).depth p ds

end Watched
end Trellis
