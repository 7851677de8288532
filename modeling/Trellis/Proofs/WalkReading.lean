import Trellis.Proofs.Call
import Trellis.Proofs.Phase
import Trellis.Proofs.Walk

/-!
# Walking is reading

The programs of cursor steps have a result, misuse the cursor nowhere and do what the rules, the recovery
and the parse do on the tokens that are left. The proof goes along the relation of reading: at each place
the cursor stands before what there is left to read, and behind the token that was matched last.

* `Parser.before`: a parser with its cursor before given last tokens;
* `Task.calls`: how many calls suffice for a task;
* `walks_of_reads`: the program for a task, where it is known how reading ends;
* `Walk.rule_eq`, `Walk.synchronize_eq`, `Walk.parse_eq`: **the programs agree with the parser**.
-/

namespace Trellis

/-- The parser with its cursor before the given last tokens, at the given depth. -/
def Parser.before (p : Parser) (us : List Token) (d : Nat) : Parser :=
  { p with current := p.tokens.length - us.length, depth := d }

variable {p q : Parser} {t : Token} {us ts : List Token} {d : Nat}

namespace Parser

theorem rest_before (h : us <:+ p.tokens) : (p.before us d).rest = us :=
  (List.suffix_iff_eq_drop.1 h).symm

theorem before_rest (hc : p.current ≤ p.tokens.length) : p.before p.rest p.depth = p := by
  have hcur : p.tokens.length - p.rest.length = p.current := by
    rw [length_rest]
    omega
  rw [before, hcur]

theorem advance_before (h : t :: us <:+ p.tokens) :
    (p.before (t :: us) d).advance = (.ok t, p.before us d) := by
  have hlen := h.length_le
  have hcur : p.tokens.length - (us.length + 1) + 1 = p.tokens.length - us.length := by
    rw [List.length_cons] at hlen
    omega
  rw [advance, rest_before h]
  simp [before, hcur]

theorem previous_before (h : t :: us <:+ p.tokens) : (p.before us d).previous = .ok t := by
  obtain ⟨v, hv⟩ := h
  have hread : p.tokens = v ++ [t] ++ us := by rw [← hv, List.append_assoc, List.singleton_append]
  have hcur : p.tokens.length - us.length = (v ++ [t]).length := by
    rw [hread, List.length_append, Nat.add_sub_cancel]
  have htake : (p.before us d).tokens.take (p.before us d).current = v ++ [t] := by
    simp only [before, hcur]
    rw [hread, List.take_left]
  rw [previous, htake, List.getLast?_concat]

theorem check_before (h : us <:+ p.tokens) {kind : TokenKind} (hk : kind ≠ .endOfInput) :
    (p.before us d).check kind = true ↔ ∃ t ∈ us.head?, t.kind = kind := by
  rw [check, rest_before h]
  cases us with
  | nil => simp
  | cons t us =>
    have hend : t.kind = kind → t.kind ≠ .endOfInput := fun h => h ▸ hk
    simpa using hend

end Parser

namespace Walk

variable {α : Type} {kind : TokenKind} {kinds : List TokenKind}

/-! ## Single steps before given tokens -/

theorem matchAny_before (h : t :: us <:+ p.tokens) (ht : t.kind ∈ kinds)
    (hk : .endOfInput ∉ kinds) :
    matchAny kinds (p.before (t :: us) d) = some (.ok true, p.before us d) := by
  have hcheck : kinds.any (p.before (t :: us) d).check = true := by
    rw [List.any_eq_true]
    exact ⟨t.kind, ht, (Parser.check_before h fun he => hk (he ▸ ht)).2 ⟨t, rfl, rfl⟩⟩
  have hadvance := Parser.advance_before (d := d) h
  rw [Parser.advance, Parser.rest_before h] at hadvance
  rw [matchAny_eq, Parser.matchAny, if_pos hcheck, (Prod.mk.inj hadvance).2]

theorem matchAny_before_none (h : us <:+ p.tokens) (hus : ∀ t ∈ us.head?, t.kind ∉ kinds)
    (hk : .endOfInput ∉ kinds) : matchAny kinds (p.before us d) = some (.ok false, p.before us d) := by
  have hcheck : ¬ kinds.any (p.before us d).check = true := by
    rw [List.any_eq_true]
    rintro ⟨kind, hmem, hkind⟩
    obtain ⟨t, ht, rfl⟩ := (Parser.check_before h fun he => hk (he ▸ hmem)).1 hkind
    exact hus t ht hmem
  rw [matchAny_eq, Parser.matchAny, if_neg hcheck]

theorem ite_matchAny (h : t :: us <:+ p.tokens) (ht : t.kind ∈ kinds) (hk : .endOfInput ∉ kinds)
    (x y : Walk α) : (matchAny kinds >>= fun found => if found = true then x else y)
      (p.before (t :: us) d) = x (p.before us d) := by
  rw [bind_of_ok (matchAny_before h ht hk), if_pos rfl]

theorem ite_matchAny_none (h : us <:+ p.tokens) (hus : ∀ t ∈ us.head?, t.kind ∉ kinds)
    (hk : .endOfInput ∉ kinds) (x y : Walk α) :
    (matchAny kinds >>= fun found => if found = true then x else y) (p.before us d) =
      y (p.before us d) := by
  rw [bind_of_ok (matchAny_before_none h hus hk), if_neg Bool.false_ne_true]

theorem previous_before (h : t :: us <:+ p.tokens) :
    previous (p.before us d) = some (.ok t, p.before us d) :=
  step_of_ok (by rw [Parser.previous_before h])

theorem failHere_before (h : us <:+ p.tokens) (fault : ParseFault) :
    failHere (α := α) fault (p.before us d) =
      some (.error (.fault (Rule.failAt fault p.endLine d us).error),
        (p.before us d).reportError (Rule.failAt fault p.endLine d us).error) := by
  rw [failHere, get_bind, Parser.rest_before h]
  rfl

theorem consume_before (h : t :: us <:+ p.tokens) (ht : t.kind = kind) (hk : kind ≠ .endOfInput)
    (message : String) :
    consume kind message (p.before (t :: us) d) = some (.ok t, p.before us d) := by
  have hcheck := (Parser.check_before (d := d) h hk).2 ⟨t, rfl, ht⟩
  rw [consume, bind_of_ok (check_eq kind _), if_pos hcheck]
  exact step_of_ok (Parser.advance_before h)

theorem consume_before_none (h : us <:+ p.tokens) (hus : ∀ t ∈ us.head?, t.kind ≠ kind)
    (hk : kind ≠ .endOfInput) (message : String) : consume kind message (p.before us d) =
      failHere (.missingToken kind message) (p.before us d) := by
  have hcheck : ¬ (p.before us d).check kind = true := by
    rw [Parser.check_before h hk]
    rintro ⟨t, ht, hkind⟩
    exact hus t ht hkind
  rw [consume, bind_of_ok (check_eq kind _), if_neg hcheck]

theorem enter_before (hd : d + 1 ≤ maxNestingDepth) :
    enter (p.before us d) = some (.ok (), p.before us (d + 1)) := by
  rw [enter, modify_bind, get_bind]
  exact congrFun (if_neg (Nat.not_lt.2 hd)) _

theorem enter_too_deep (h : t :: us <:+ p.tokens) (hd : maxNestingDepth < d + 1) :
    enter (p.before us d) = some (.error (.fault (Rule.failNested t (d + 1) us).error),
      (p.before us (d + 1)).reportError (Rule.failNested t (d + 1) us).error) := by
  have hopening : previous (p.before us (d + 1)) = some (.ok t, p.before us (d + 1)) :=
    previous_before h
  rw [enter, modify_bind, get_bind]
  refine (congrFun (if_pos hd) _).trans ?_
  exact bind_of_ok hopening

theorem leave_before : leave (p.before us (d + 1)) = some (.ok (), p.before us d) := rfl

end Walk

/-- The program for a task, with at most `n` calls open at once. -/
def Task.walk (n : Nat) : Task → Walk Expr
  | .rule r => Walk.ruleWithin n r
  | .chain l a => Walk.chainWithin n l a

/-- How many calls suffice for a task. -/
def Task.calls (ts : List Token) : Task → Nat
  | .rule r => 8 * ts.length + r.height + 2
  | .chain .. => 8 * ts.length + 1

/-- How a program ends that reads with the given outcome. -/
def Outcome.walked (p : Parser) (d : Nat) : Outcome → Except Stop Expr × Parser
  | .ok (e, us) => (.ok e, p.before us d)
  | .error f => (.error (.fault f.error), (p.before f.rest f.depth).reportError f.error)

/-- With enough calls, and at least one, the program for a task ends with the given outcome. -/
def Parser.Walks (p : Parser) (task : Task) (d : Nat) (ts : List Token) (o : Outcome) : Prop :=
  ∀ n, task.calls ts ≤ n + 1 → task.walk (n + 1) (p.before ts d) = some (o.walked p d)

namespace Walk

theorem not_endOfInput_operators (l : Level) : .endOfInput ∉ l.operators := by
  cases l <;> decide

/-- A literal is read as its value. -/
theorem primary_literal {v : Value} (n : Nat) (h : t :: us <:+ p.tokens)
    (hv : t.literalValue? = some v) :
    ruleWithin (n + 1) .primary (p.before (t :: us) d) = some (.ok (.literal v), p.before us d) := by
  have hnext {kinds : List TokenKind} (hk : t.kind ∉ kinds) : ∀ u ∈ (t :: us).head?, u.kind ∉ kinds :=
    fun u hu => Option.mem_some.1 hu ▸ hk
  rw [ruleWithin]
  unfold Token.literalValue? at hv
  split at hv <;> rename_i hk <;> cases hv
  · rw [ite_matchAny h (by simp [hk]) (by decide)]
    rfl
  · rw [ite_matchAny_none h (hnext (by simp [hk])) (by decide),
      ite_matchAny h (by simp [hk]) (by decide)]
    rfl
  · rw [ite_matchAny_none h (hnext (by simp [hk])) (by decide),
      ite_matchAny_none h (hnext (by simp [hk])) (by decide),
      ite_matchAny h (by simp [hk]) (by decide)]
    rfl
  all_goals
    rw [ite_matchAny_none h (hnext (by simp [hk])) (by decide),
      ite_matchAny_none h (hnext (by simp [hk])) (by decide),
      ite_matchAny_none h (hnext (by simp [hk])) (by decide),
      ite_matchAny h (by simp [hk]) (by decide), bind_of_ok (previous_before h)]
    rfl

/-- Where no literal comes next, a group is left to be read. -/
theorem primary_group (n : Nat) (h : us <:+ p.tokens)
    (hus : ∀ t ∈ us.head?, t.literalValue? = none) :
    ruleWithin (n + 1) .primary (p.before us d) =
      group (ruleWithin n .expression) (p.before us d) := by
  have hnext {kinds : List TokenKind} (hk : ∀ k ∈ kinds, k ∈ TokenKind.literalKinds) :
      ∀ t ∈ us.head?, t.kind ∉ kinds := by
    intro t ht hmem
    have hlit : t.isLiteral = true := by simpa [Token.isLiteral, TokenKind.isLiteral] using hk _ hmem
    rw [Phase.isLiteral_eq, hus t ht] at hlit
    cases hlit
  rw [ruleWithin, ite_matchAny_none h (hnext (by decide)) (by decide),
    ite_matchAny_none h (hnext (by decide)) (by decide),
    ite_matchAny_none h (hnext (by decide)) (by decide),
    ite_matchAny_none h (hnext (by decide)) (by decide)]

theorem primary_opening (n : Nat) (h : t :: us <:+ p.tokens) (ht : t.kind = .leftParen) :
    ruleWithin (n + 1) .primary (p.before (t :: us) d) = (do
      enter
      let inner ← ruleWithin n .expression
      let _ ← consume .rightParen "Expect ')' after expression."
      leave
      return Expr.grouping inner : Walk Expr) (p.before us d) := by
  have hlit : ∀ u ∈ (t :: us).head?, u.literalValue? = none :=
    fun u hu => Option.mem_some.1 hu ▸ Phase.literalValue?_leftParen ht
  rw [primary_group n h hlit, group, ite_matchAny h (by simp [ht]) (by decide)]

end Walk

/-! ## The calls -/

section Calls

variable {task task' : Task} {o : Outcome} {n : Nat}

/-- The calls that are left suffice for a task that needs fewer. -/
theorem Parser.Walks.call (h : p.Walks task' d us o) (hlt : task'.calls us < task.calls ts)
    (hn : task.calls ts ≤ n + 1) : task'.walk n (p.before us d) = some (o.walked p d) := by
  have hle : task'.calls us ≤ n := Nat.le_of_lt_succ (Nat.lt_of_lt_of_le hlt hn)
  cases n with
  | zero => cases task' <;> exact absurd hle (Nat.not_succ_le_zero _)
  | succ n => exact h n hle

theorem calls_rule {r r' : Rule} (h : r'.height < r.height) (ts : List Token) :
    (Task.rule r').calls ts < (Task.rule r).calls ts := by
  simp only [Task.calls]
  omega

theorem calls_tail (r r' : Rule) (t : Token) (ts : List Token) :
    (Task.rule r').calls ts < (Task.rule r).calls (t :: ts) := by
  have hheight := r'.height_le
  simp only [Task.calls, List.length_cons]
  omega

theorem calls_chain {l : Level} {a : Expr} {r : Rule} (h : us.length ≤ ts.length) :
    (Task.chain l a).calls us < (Task.rule r).calls ts := by
  simp only [Task.calls]
  omega

theorem calls_right (l : Level) (a : Expr) (r : Rule) (t : Token) (ts : List Token) :
    (Task.rule r).calls ts < (Task.chain l a).calls (t :: ts) := by
  have hheight := r.height_le
  simp only [Task.calls, List.length_cons]
  omega

theorem calls_next {l : Level} {a b : Expr} (h : us.length ≤ ts.length) :
    (Task.chain l b).calls us < (Task.chain l a).calls (t :: ts) := by
  simp only [Task.calls, List.length_cons]
  omega

end Calls

/-- What is left after reading is the end of what there was. -/
theorem suffix_of_reads {endLine : Int} {task : Task} {e : Expr}
    (h : Reads endLine task d ts (.ok (e, us))) : us <:+ ts := by
  obtain ⟨w, hw, -⟩ := reads_sound h
  exact ⟨w, hw.symm⟩

theorem suffix_tail {v : List Token} (h : t :: us <:+ v) : us <:+ v :=
  (List.suffix_cons t us).trans h

open Walk in
/-- The program for a task does what reading it does. -/
theorem walks_of_reads {task : Task} {o : Outcome} (h : Reads p.endLine task d ts o)
    (hs : ts <:+ p.tokens) : p.Walks task d ts o := by
  induction h with
  | @expression d ts o _ ih =>
    intro n hn
    exact (ih hs).call (calls_rule (by decide) ts) hn
  | @leftFails l d ts f _ ih =>
    intro n hn
    have left : ruleWithin n l.operand (p.before ts d) = some (.error (.fault f.error), _) :=
      (ih hs).call (calls_rule l.height_operand_lt ts) hn
    change ruleWithin (n + 1) (.binary l) _ = _
    rw [ruleWithin, bind_of_error left]
    rfl
  | @binary l d ts us a o left _ ihl ihc =>
    intro n hn
    have hus := suffix_of_reads left
    have first : ruleWithin n l.operand (p.before ts d) = some (.ok a, p.before us d) :=
      (ihl hs).call (calls_rule l.height_operand_lt ts) hn
    change ruleWithin (n + 1) (.binary l) _ = _
    rw [ruleWithin, bind_of_ok first]
    exact (ihc (hus.trans hs)).call (calls_chain hus.length_le) hn
  | @chainEnds l a d ts next =>
    intro n hn
    change chainWithin (n + 1) l a _ = _
    rw [chainWithin, ite_matchAny_none hs next (not_endOfInput_operators l)]
    rfl
  | @rightFails l a d t ts f operator _ ih =>
    intro n hn
    have right : ruleWithin n l.operand (p.before ts d) = some (.error (.fault f.error), _) :=
      (ih (suffix_tail hs)).call (calls_right l a l.operand t ts) hn
    change chainWithin (n + 1) l a _ = _
    rw [chainWithin, ite_matchAny hs operator (not_endOfInput_operators l),
      bind_of_ok (previous_before hs), bind_of_error right]
    rfl
  | @operation l a b d t ts us o operator right _ ihr ihc =>
    intro n hn
    have hus := suffix_of_reads right
    have second : ruleWithin n l.operand (p.before ts d) = some (.ok b, p.before us d) :=
      (ihr (suffix_tail hs)).call (calls_right l a l.operand t ts) hn
    change chainWithin (n + 1) l a _ = _
    rw [chainWithin, ite_matchAny hs operator (not_endOfInput_operators l),
      bind_of_ok (previous_before hs), bind_of_ok second]
    exact (ihc (hus.trans (suffix_tail hs))).call (calls_next hus.length_le) hn
  | @prefixTooDeep d t ts operator deep =>
    intro n hn
    change ruleWithin (n + 1) .unary _ = _
    rw [ruleWithin, ite_matchAny hs operator (by decide), bind_of_ok (previous_before hs),
      bind_of_error (enter_too_deep hs deep)]
    rfl
  | @prefixFails d t ts f operator fits _ ih =>
    intro n hn
    have inner : ruleWithin n .unary (p.before ts (d + 1)) = some (.error (.fault f.error), _) :=
      (ih (suffix_tail hs)).call (calls_tail .unary .unary t ts) hn
    change ruleWithin (n + 1) .unary _ = _
    rw [ruleWithin, ite_matchAny hs operator (by decide), bind_of_ok (previous_before hs),
      bind_of_ok (enter_before fits), bind_of_error inner]
    rfl
  | @prefixed d t ts us e operator fits _ ih =>
    intro n hn
    have inner : ruleWithin n .unary (p.before ts (d + 1)) = some (.ok e, p.before us (d + 1)) :=
      (ih (suffix_tail hs)).call (calls_tail .unary .unary t ts) hn
    change ruleWithin (n + 1) .unary _ = _
    rw [ruleWithin, ite_matchAny hs operator (by decide), bind_of_ok (previous_before hs),
      bind_of_ok (enter_before fits), bind_of_ok inner, bind_of_ok leave_before]
    rfl
  | @primary d ts o next _ ih =>
    intro n hn
    change ruleWithin (n + 1) .unary _ = _
    rw [ruleWithin, ite_matchAny_none hs next (by decide)]
    exact (ih hs).call (calls_rule (by decide) ts) hn
  | literal value =>
    intro n hn
    exact primary_literal n hs value
  | @groupTooDeep d t ts opening deep =>
    intro n hn
    change ruleWithin (n + 1) .primary _ = _
    rw [primary_opening n hs opening, bind_of_error (enter_too_deep hs deep)]
    rfl
  | @groupFails d t ts f opening fits _ ih =>
    intro n hn
    have inner : ruleWithin n .expression (p.before ts (d + 1)) = some (.error (.fault f.error), _) :=
      (ih (suffix_tail hs)).call (calls_tail .primary .expression t ts) hn
    change ruleWithin (n + 1) .primary _ = _
    rw [primary_opening n hs opening, bind_of_ok (enter_before fits), bind_of_error inner]
    rfl
  | @unclosed d t ts us e opening fits left next ih =>
    intro n hn
    have inner : ruleWithin n .expression (p.before ts (d + 1)) = some (.ok e, p.before us (d + 1)) :=
      (ih (suffix_tail hs)).call (calls_tail .primary .expression t ts) hn
    have hus := (suffix_of_reads left).trans (suffix_tail hs)
    have hclose := consume_before_none (d := d + 1) hus next (by decide) "Expect ')' after expression."
    rw [failHere_before hus] at hclose
    change ruleWithin (n + 1) .primary _ = _
    rw [primary_opening n hs opening, bind_of_ok (enter_before fits), bind_of_ok inner,
      bind_of_error hclose]
    rfl
  | @group d t u ts us e opening fits left closing ih =>
    intro n hn
    have inner : ruleWithin n .expression (p.before ts (d + 1)) =
        some (.ok e, p.before (u :: us) (d + 1)) :=
      (ih (suffix_tail hs)).call (calls_tail .primary .expression t ts) hn
    have hus := (suffix_of_reads left).trans (suffix_tail hs)
    change ruleWithin (n + 1) .primary _ = _
    rw [primary_opening n hs opening, bind_of_ok (enter_before fits), bind_of_ok inner,
      bind_of_ok (consume_before hus closing (by decide) _), bind_of_ok leave_before]
    rfl
  | @operandExpected d ts next =>
    intro n hn
    change ruleWithin (n + 1) .primary _ = _
    rw [primary_group n hs fun t ht => (next t ht).1, Walk.group,
      ite_matchAny_none hs (by simpa using fun t ht => (next t ht).2) (by decide),
      failHere_before hs]
    rfl

/-! ## The programs as a whole -/

namespace Walk

/-- **The program of a rule ends, never misuses the cursor, and does what the rule does.** -/
theorem rule_eq (r : Rule) (hc : p.current ≤ p.tokens.length) :
    rule r p = some ((p.runRule r).1.mapError .fault, (p.runRule r).2) := by
  have hs : p.rest <:+ p.tokens := List.drop_suffix _ _
  have hcalls : (Task.rule r).calls p.rest ≤ 8 * p.rest.length + 8 :=
    Nat.add_le_add_left (Nat.add_le_add_right r.height_le 2) (8 * p.rest.length)
  rw [rule, get_bind]
  rcases p.reads_cases r with ⟨e, us, hr⟩ | ⟨f, hr⟩
  · have hwalk := walks_of_reads hr hs _ hcalls
    rw [Parser.before_rest hc] at hwalk
    rw [Parser.runRule_of_ok hr]
    exact hwalk
  · have hwalk := walks_of_reads hr hs _ hcalls
    rw [Parser.before_rest hc] at hwalk
    rw [Parser.runRule_of_error hr]
    exact hwalk

theorem skipWithin_of_isAtEnd (n : Nat) (h : p.isAtEnd = true) :
    skipWithin (n + 1) p = some (.ok (), p) := by
  rw [skipWithin, bind_of_ok (isAtEnd_eq p), if_pos h]
  rfl

/-- Behind the token `t`, tokens are passed up to a boundary. -/
theorem skipWithin_before {n : Nat} (h : t :: us <:+ p.tokens) (hn : us.length ≤ n) :
    skipWithin (n + 1) (p.before us d) =
      some (.ok (), p.before (us.drop (countToBoundary t us)) d) := by
  induction us generalizing t n with
  | nil =>
    have hend : (p.before [] d).isAtEnd = true := by
      rw [Parser.isAtEnd, Parser.rest_before (suffix_tail h)]
    exact skipWithin_of_isAtEnd n hend
  | cons u us ih =>
    have hus := suffix_tail h
    have hnext : (p.before (u :: us) d).peek = .ok u := by
      rw [Parser.peek, Parser.rest_before hus]
    have hend : (p.before (u :: us) d).isAtEnd = true ↔ u.kind = .endOfInput := by
      rw [Parser.isAtEnd, Parser.rest_before hus]
      exact beq_iff_eq
    unfold countToBoundary
    by_cases hlast : u.kind = .endOfInput
    · rw [if_pos (.inl hlast)]
      exact skipWithin_of_isAtEnd n (hend.2 hlast)
    · rw [skipWithin, bind_of_ok (isAtEnd_eq _), if_neg (mt hend.1 hlast),
        bind_of_ok (previous_before h)]
      by_cases hdone : t.kind ∈ statementEnds
      · rw [if_pos hdone, if_pos (.inr (.inl hdone))]
        rfl
      · rw [if_neg hdone, bind_of_ok (peek_eq hnext)]
        by_cases hstart : u.kind ∈ statementStarts
        · rw [if_pos hstart, if_pos (.inr (.inr hstart))]
          rfl
        · have hgo : ¬ (u.kind = .endOfInput ∨ t.kind ∈ statementEnds ∨ u.kind ∈ statementStarts) := by
            simp [hlast, hdone, hstart]
          have hadvance : advance (p.before (u :: us) d) = some (.ok u, p.before us d) :=
            step_of_ok (Parser.advance_before hus)
          rw [if_neg hstart, bind_of_ok hadvance, if_neg hgo, List.drop_succ_cons]
          cases n with
          | zero => exact absurd hn (Nat.not_succ_le_zero _)
          | succ n => exact ih hus (Nat.le_of_succ_le_succ hn)

theorem skip_before (h : t :: us <:+ p.tokens) : skip (p.before us d) =
    some (.ok (), p.before (us.drop (countToBoundary t us)) d) := by
  rw [skip, get_bind, Parser.rest_before (suffix_tail h)]
  exact skipWithin_before h (Nat.le_refl _)

theorem skip_of_isAtEnd (h : p.isAtEnd = true) : skip p = some (.ok (), p) := by
  rw [skip, get_bind]
  exact skipWithin_of_isAtEnd _ h

/-- **The program of the recovery ends, never misuses the cursor, and does what the recovery does.** -/
theorem synchronize_eq (hc : p.current ≤ p.tokens.length) :
    synchronize p = some (.ok (), p.synchronize) := by
  have hlen := p.length_rest
  rw [synchronize, get_bind]
  cases hr : p.rest with
  | nil =>
    have hcur : ¬ p.current < p.tokens.length := by
      rw [hr, List.length_nil] at hlen
      omega
    rw [if_neg hcur, Parser.synchronize, hr]
    exact skip_of_isAtEnd (by rw [Parser.isAtEnd, hr])
  | cons t us =>
    have hcur : p.current < p.tokens.length := by
      rw [hr, List.length_cons] at hlen
      omega
    have hs : t :: us <:+ p.tokens := hr ▸ List.drop_suffix _ _
    have hadvance : advance p = some (.ok t, p.before us p.depth) := by
      have h := Parser.advance_before (d := p.depth) hs
      rw [← hr, Parser.before_rest hc] at h
      exact step_of_ok h
    have hle := countToBoundary_le t us
    have hcount : p.tokens.length - (us.drop (countToBoundary t us)).length =
        p.current + 1 + countToBoundary t us := by
      rw [hr, List.length_cons] at hlen
      rw [List.length_drop]
      omega
    rw [if_pos hcur, bind_of_ok hadvance]
    change skip (p.before us p.depth) = _
    rw [skip_before hs, Parser.before, hcount, Parser.synchronize, hr]

theorem runRule_in_bounds (p : Parser) (r : Rule) :
    (p.runRule r).2.current ≤ (p.runRule r).2.tokens.length := by
  unfold Parser.runRule
  split <;> exact Nat.sub_le _ _

/-- **The program of a parse ends, never misuses the cursor, and does what the parse does.** -/
theorem parse_eq (hc : p.current ≤ p.tokens.length) : parse p = some (.ok p.parse.1, p.parse.2) := by
  have hrule := rule_eq (p := { p with depth := 0 }) .expression hc
  unfold parse
  rw [modify_bind]
  unfold Parser.parse
  cases hr : ({ p with depth := 0 } : Parser).runRule .expression with
  | mk o q =>
    rw [hr] at hrule
    cases o with
    | ok e =>
      have hread : (some <$> rule .expression : Walk _) { p with depth := 0 } =
          some (.ok (some e), q) := map_of_ok hrule some
      rw [tryCatch_of_ok hread]
    | error e =>
      have hread : (some <$> rule .expression : Walk _) { p with depth := 0 } =
          some (.error (.fault e), q) := map_of_error hrule some
      have hq : q.current ≤ q.tokens.length := by
        have hbound := runRule_in_bounds { p with depth := 0 } .expression
        rwa [hr] at hbound
      have hrecover : recover e q = some (.ok (), _) := synchronize_eq (p := { q with
        errors := q.errors ++ [e]
        sink := q.sink.trace "crumble.parser.parser"
          ("parse failed: " ++ e.diagnostic.headline) }) hq
      rw [tryCatch_of_error hread]
      exact bind_of_ok (f := fun _ => pure none) hrecover

end Walk

end Trellis
