import Trellis.Proofs.EarliestError
import Trellis.Proofs.Watched

/-!
# The depth counts what is open

A rule that succeeds leaves the depth as it was. One that fails leaves it where it was when the error
arose, so that the depth has grown by the groups and prefix operators which the call has opened and not
completed; the one that nests too deeply is among them. Calls that fail one after another add up. A parse
begins at depth zero whatever came before it.

* `Failure.Opened`: the depth that a failure leaves is the one that the tokens read lead to;
* `opened_of_reads_error`: so it is wherever a reader fails;
* `FailedCalls`: rules that fail one after another, on tokens given anew or not;
* `runRule_depth`: **the depth counts the open levels**.
-/

namespace Trellis

open Phase

variable {p q : Parser} {r : Rule} {d n k : Nat} {ts w us : List Token} {f : Failure}
  {s : List Opening} {err : ParseError} {e : Expr}

/-! ## Where a reader fails -/

/-- Prefix operators may be open before an operand, and only there. -/
def Task.Resumes (s : List Opening) : Task → Prop
  | .rule .unary | .rule .primary => True
  | _ => settle s = s

theorem resumes_operand {l : Level} (h : settle s = s) : (Task.rule l.operand).Resumes s := by
  cases l with
  | factor => trivial
  | _ => exact h

theorem run_of_resumed (h : Derives r w e) (hs : settle s = s) :
    (operand s).run w = some (.operator s) := by
  have hrun := run_of_derives h s
  rwa [hs] at hrun

namespace Failure

/-- The last of the tokens `w` is the one that nests too deeply, if one does. -/
def AfterRejected (f : Failure) (w : List Token) : Prop :=
  f.error.fault = .nestedTooDeeply → ∃ t, w.getLast? = some t ∧ f.error.found = some t

theorem AfterRejected.prepend (h : f.AfterRejected w) (v : List Token) :
    f.AfterRejected (v ++ w) := by
  intro hfault
  obtain ⟨t, ht, hfound⟩ := h hfault
  exact ⟨t, by simp [List.getLast?_append, ht], hfound⟩

/-- From the phase `m` and the depth `d` on, the tokens read open what the depth has grown by. -/
def Opened (f : Failure) (m : Phase) (d : Nat) (ts : List Token) : Prop :=
  ∃ w n, ts = w ++ f.rest ∧ m.run w = some n ∧ n.depth + d = f.depth + m.depth ∧ f.AfterRejected w

variable {m n : Phase} {t : Token}

theorem Opened.prepend (h : f.Opened n (d + k) ts) (hv : m.run w = some n)
    (hk : n.depth = m.depth + k) : f.Opened m d (w ++ ts) := by
  obtain ⟨u, l, rfl, hrun, hdepth, hlast⟩ := h
  refine ⟨w ++ u, l, by rw [List.append_assoc], ?_, by omega, hlast.prepend w⟩
  rw [run_append, hv]
  exact hrun

theorem Opened.cons (h : f.Opened n (d + k) ts) (ht : m.step t = some n)
    (hk : n.depth = m.depth + k) : f.Opened m d (t :: ts) := by
  have hrun : m.run [t] = some n := by
    rw [run_cons, ht]
    rfl
  exact h.prepend hrun hk

theorem opened_failAt (fault : ParseFault) (endLine : Int) (m : Phase) (d : Nat) (ts : List Token)
    (h : fault ≠ .nestedTooDeeply) : (Rule.failAt fault endLine d ts).Opened m d ts :=
  ⟨[], m, rfl, rfl, Nat.add_comm _ _, fun hfault => absurd hfault h⟩

/-- The token that nests too deeply is counted among those that are open. -/
theorem opened_failNested (ht : m.step t = some n) (hn : n.depth = m.depth + 1) :
    (Rule.failNested t (d + 1) ts).Opened m d (t :: ts) := by
  refine ⟨[t], n, rfl, ?_, ?_, fun _ => ⟨t, rfl, rfl⟩⟩
  · rw [run_cons, ht]
    rfl
  · change n.depth + d = d + 1 + m.depth
    omega

end Failure

/-- A reader that fails has opened, since it began at the depth `d` with `s` open, what its tokens open. -/
theorem opened_of_reads_error {endLine : Int} {task : Task} (h : Reads endLine task d ts (.error f))
    (ha : task.Resumes s) : f.Opened (task.phase s) d ts := by
  generalize ho : Except.error f = o at h
  -- The call that fails is the last one, and what was read before it is put in front: operands and
  -- operators leave the depth as it is, a prefix operator and a parenthesis add one.
  induction h generalizing s with
  | expression _ ih => exact ih ha ho
  | leftFails _ ih => exact ih (resumes_operand ha) ho
  | binary left _ _ ihc =>
    obtain ⟨x, rfl, hx, -, -⟩ := reads_sound left
    exact (ihc ha ho).prepend (k := 0) (run_of_resumed hx ha) rfl
  | rightFails operator _ ih =>
    exact (ih (resumes_operand ha) ho).cons (k := 0) (step_operator operator) rfl
  | operation operator right _ _ ihc =>
    obtain ⟨x, rfl, hx, -, -⟩ := reads_sound right
    have hoperand := (ihc ha ho).prepend (k := 0) (run_of_resumed hx ha) rfl
    exact hoperand.cons (k := 0) (step_operator operator) rfl
  | prefixTooDeep operator _ =>
    cases ho
    exact Failure.opened_failNested (step_prefixed operator) rfl
  | prefixFails operator _ _ ih =>
    exact (ih (s := .prefixed :: s) trivial ho).cons (step_prefixed operator) rfl
  | primary _ _ ih => exact ih trivial ho
  | groupTooDeep opening _ =>
    cases ho
    exact Failure.opened_failNested (step_leftParen opening) rfl
  | groupFails opening _ _ ih =>
    exact (ih (s := .group :: s) (settle_group s) ho).cons (step_leftParen opening) rfl
  | @unclosed d _ _ us _ opening _ inner _ _ =>
    cases ho
    obtain ⟨x, rfl, hx, -, -⟩ := reads_sound inner
    have hgroup := Failure.opened_failAt missingParen endLine (.operator (.group :: s)) (d + 1) us
      (by rintro ⟨⟩)
    have hinner := hgroup.prepend (k := 0) (run_of_resumed hx (settle_group s)) rfl
    exact hinner.cons (step_leftParen opening) rfl
  | operandExpected _ =>
    cases ho
    exact Failure.opened_failAt _ _ _ _ _ (by rintro ⟨⟩)
  | _ => cases ho

/-! ## Calls that fail -/

/-- A rule that fails leaves the depth where the tokens that it has read lead to. -/
theorem open_of_runRule_error (h : (p.runRule r).1 = .error err) :
    ∃ w k, p.rest = w ++ (p.runRule r).2.rest ∧ openAfter w = some k ∧
      (p.runRule r).2.depth = p.depth + k ∧
      (err.fault = .nestedTooDeeply → ∃ t, w.getLast? = some t ∧ err.found = some t) := by
  rcases p.reads_cases r with ⟨e, us, hr⟩ | ⟨f, hr⟩
  · rw [Parser.runRule_of_ok hr] at h
    cases h
  · have hresumes : (Task.rule r).Resumes [] := by
      cases r with
      | unary | primary => trivial
      | _ => rfl
    obtain ⟨w, m, hw, hrun, hdepth, hlast⟩ := opened_of_reads_error hr hresumes
    rw [Parser.runRule_of_error hr] at h ⊢
    cases h
    have hsuffix : f.rest <:+ p.tokens :=
      (List.suffix_append w f.rest).trans (hw ▸ List.drop_suffix _ _)
    have hrest : ((p.before f.rest f.depth).reportError f.error).rest = f.rest :=
      Parser.rest_before (d := f.depth) hsuffix
    have hopen : openAfter w = some m.depth := congrArg (Option.map depth) hrun
    refine ⟨w, m.depth, hw.trans (congrArg (w ++ ·) hrest.symm), hopen, ?_, hlast⟩
    change f.depth = p.depth + m.depth
    change m.depth + p.depth = f.depth at hdepth
    omega

theorem depth_of_runRule_ok (h : (p.runRule r).1 = .ok e) : (p.runRule r).2.depth = p.depth := by
  rcases p.reads_cases r with ⟨e', us, hr⟩ | ⟨f, hr⟩
  · rw [Parser.runRule_of_ok hr]
  · rw [Parser.runRule_of_error hr] at h
    cases h

/-- Rules that fail one after another. Each reads some tokens and has `k` levels open after them. Between
the calls the cursor may be set anew and other tokens may be given. -/
inductive FailedCalls (start : Parser) : Nat → Parser → Prop
  | none : FailedCalls start 0 start
  | call {n k : Nat} {p : Parser} {r : Rule} {err : ParseError} {w : List Token}
      (before : FailedCalls start n p) (fails : (p.runRule r).1 = .error err)
      (read : p.rest = w ++ (p.runRule r).2.rest) (opened : openAfter w = some k) :
      FailedCalls start (n + k) (p.runRule r).2
  | setCurrent {n c : Nat} {p : Parser} (before : FailedCalls start n p)
      (bound : c ≤ p.tokens.length) : FailedCalls start n (p.setCurrent c)
  | setTokens {n : Nat} {p : Parser} (before : FailedCalls start n p) (ts : List Token) :
      FailedCalls start n (p.setTokens ts)

/-- What failing calls leave open adds up. -/
theorem depth_of_failedCalls (h : FailedCalls p n q) : q.depth = p.depth + n := by
  induction h with
  | none => rfl
  | @call n k q r err w _ fails read opened ih =>
    obtain ⟨w', k', hw, hopen, hdepth, -⟩ := open_of_runRule_error fails
    obtain rfl : w = w' := List.append_cancel_right (read.symm.trans hw)
    cases opened.symm.trans hopen
    omega
  | setCurrent _ _ ih | setTokens _ _ ih => exact ih

/-- A parse accepts every expression within the limit, and leaves nothing open. -/
theorem parse_within (h : p.rest = w ++ us) (hd : Derives .expression w e)
    (hend : Rule.expression.EndsBefore us) (hn : e.nesting ≤ maxNestingDepth) :
    p.parse = (some e, { p with current := p.tokens.length - us.length, depth := 0 }) :=
  Parser.parse_of_ok (reads_ok_iff.2 ⟨w, h, hd, hend, by rw [Expr.Fits]; omega⟩)

/-- **The depth counts the open levels.** The program of a rule goes through no depth below the one that
it begins at, and through none above the greater of it and the limit but for one. Where the rule succeeds,
the depth is what it was; where it fails, it has grown by what the tokens read have opened and not
completed, the rejected token included. Calls that fail add up, and yet a parse after them accepts every
expression within the limit. -/
theorem runRule_depth (p : Parser) (r : Rule) (hc : p.current ≤ p.tokens.length) :
    (∃ ds, Watched.rule r (p, []) =
        some ((p.runRule r).1.mapError .fault, (p.runRule r).2, ds) ∧
      ∀ d ∈ ds, p.depth ≤ d ∧ d ≤ max p.depth 100 + 1) ∧
    (∀ e, (p.runRule r).1 = .ok e → (p.runRule r).2.depth = p.depth) ∧
    (∀ err, (p.runRule r).1 = .error err →
      ∃ w k, p.rest = w ++ (p.runRule r).2.rest ∧ openAfter w = some k ∧
        (p.runRule r).2.depth = p.depth + k ∧
        (err.fault = .nestedTooDeeply → ∃ t, w.getLast? = some t ∧ err.found = some t)) ∧
    ∀ n q, FailedCalls p n q → q.depth = p.depth + n ∧
      ∀ w us e, q.rest = w ++ us → Derives .expression w e → Rule.expression.EndsBefore us →
        e.nesting ≤ 100 →
        q.parse = (some e, { q with current := q.tokens.length - us.length, depth := 0 }) := by
  refine ⟨?_, fun e => depth_of_runRule_ok, fun err => open_of_runRule_error, ?_⟩
  · have hagrees := Watched.agrees_rule r p []
    rw [Walk.rule_eq r hc] at hagrees
    obtain ⟨⟨o, q, ds⟩, hrun, heq⟩ := Option.map_eq_some_iff.1 hagrees
    obtain ⟨rfl, rfl⟩ := Prod.mk.inj heq
    obtain ⟨new, rfl, hnew⟩ := (Watched.rule_spans r p.depth).noted p [] _ rfl hrun
    exact ⟨_, hrun, hnew⟩
  · intro n q hcalls
    exact ⟨depth_of_failedCalls hcalls, fun w us e hrest hd hend hn => parse_within hrest hd hend hn⟩

/-- Two prefix operators at the depth 99, the second of which is rejected, and a parse after that. -/
theorem rejected_minus :
    let minus : Token := { kind := .minus, lexeme := "-", line := 1 }
    let one : Token := { kind := .number, lexeme := "1", literal := .number .one, line := 1 }
    let p : Parser := { tokens := [minus, minus], depth := 99 }
    p.current ≤ p.tokens.length ∧ (p.runRule .unary).2.depth = 101 ∧
      ((p.runRule .unary).2.setTokens [one]).parse.1 = some (.literal (.number .one)) := by
  intro minus one p
  have hc : p.current ≤ p.tokens.length := Nat.zero_le _
  have hreads : Reads p.endLine (.rule .unary) p.depth p.rest (.error (Rule.failNested minus 101 [])) :=
    .prefixFails (by decide) (by decide) (.prefixTooDeep (by decide) (by decide))
  have hrun := Parser.runRule_of_error hreads
  have hfails : (p.runRule .unary).1 = .error (Rule.failNested minus 101 []).error := by rw [hrun]
  have hrest : (p.runRule .unary).2.rest = [] := by rw [hrun]; rfl
  obtain ⟨-, -, hfailed, hcalls⟩ := runRule_depth p .unary hc
  obtain ⟨w, k, hw, hopen, hdepth, -⟩ := hfailed _ hfails
  obtain rfl : w = [minus, minus] := by
    rw [hrest, List.append_nil] at hw
    exact hw.symm
  cases hopen
  have hcall := (FailedCalls.call .none hfails hw rfl).setTokens [one]
  have hone : Derives .expression [one] (.literal (.number .one)) :=
    .loosen (.literal (.number rfl)) (by decide)
  have hparse := (hcalls _ _ hcall).2 [one] [] _ rfl hone (Rule.endsBefore_nil _) (by decide)
  exact ⟨hc, hdepth, by rw [hparse]⟩

end Trellis
