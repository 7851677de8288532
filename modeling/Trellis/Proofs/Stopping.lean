import Trellis.Proofs.Phase

/-!
# Where reading stops

Reading left to right within a nesting limit stops at one place: where too much is open, or before a
token that no expression goes on with.

* `Phase.Ends`: the tokens up to that place, what follows it and the phase there;
* `ends_unique`: there is one such place;
* `Phase.Reports`: the failure that a phase asks for;
* `ends_of_reads_error`: a reader that fails does so there, and the phase tells the fault.
-/

namespace Trellis

variable {limit : Nat} {m n k : Phase} {w v us : List Token}

/-- The tokens `w` lead from the phase `m` to `n`. Before the last of them no more than `limit` groups
and prefix operators were open; unless more are open now, no expression goes on with what follows. -/
structure Phase.Ends (limit : Nat) (m : Phase) (w us : List Token) (n : Phase) : Prop where
  run : m.run w = some n
  shallow : ∀ u, u <+: w → u ≠ w → ∀ k ∈ m.run u, k.depth ≤ limit
  stop : n.depth ≤ limit → ∀ t ∈ us.head?, n.step t = none

namespace Phase

theorem ends_nil (h : m.depth ≤ limit → ∀ t ∈ us.head?, m.step t = none) :
    m.Ends limit [] us m := by
  refine ⟨rfl, ?_, h⟩
  intro u hu hne
  exact absurd (List.prefix_nil.1 hu) hne

theorem ends_cons {t : Token} (hm : m.depth ≤ limit) (ht : m.step t = some n)
    (h : n.Ends limit w us k) : m.Ends limit (t :: w) us k := by
  refine ⟨by rw [run_cons, ht]; exact h.run, ?_, h.stop⟩
  intro u hu hne j hj
  rcases List.prefix_cons_iff.1 hu with rfl | ⟨v, rfl, hv⟩
  · cases hj
    exact hm
  · rw [run_cons, ht] at hj
    apply h.shallow v hv ?_ j hj
    intro he
    exact hne (he ▸ rfl)

theorem ends_append (hw : m.run w = some n) (hs : m.Shallow limit w) (h : n.Ends limit v us k) :
    m.Ends limit (w ++ v) us k := by
  refine ⟨by rw [run_append, hw]; exact h.run, ?_, h.stop⟩
  intro u hu hne j hj
  rcases List.prefix_or_prefix_of_prefix hu (List.prefix_append w v) with hu' | ⟨x, rfl⟩
  · exact hs u hu' j hj
  · rw [run_append, hw] at hj
    apply h.shallow x ((List.prefix_append_right_inj w).1 hu) ?_ j hj
    intro he
    exact hne (he ▸ rfl)

/-- Of two places where reading stops, neither lies before the other. -/
theorem ends_not_before {w' us' : List Token} {n' : Phase} (h : m.Ends limit w us n)
    (h' : m.Ends limit w' us' n') (he : w ++ us = w' ++ us') (hp : w <+: w') : w = w' := by
  obtain ⟨x, rfl⟩ := hp
  have hus : us = x ++ us' := by simpa using he
  cases x with
  | nil => exact (List.append_nil w).symm
  | cons t x =>
    have hdepth := h'.shallow w (List.prefix_append _ _) (by simp) n h.run
    have hstep := h.stop hdepth t (by rw [hus]; rfl)
    have hrun := h'.run
    rw [run_append, h.run, Option.bind_some, run_cons, hstep] at hrun
    cases hrun

theorem ends_unique {w' us' : List Token} {n' : Phase} (h : m.Ends limit w us n)
    (h' : m.Ends limit w' us' n') (he : w ++ us = w' ++ us') : w = w' ∧ us = us' ∧ n = n' := by
  have hw : w = w' := by
    have hp : w <+: w' ++ us' := he ▸ List.prefix_append w us
    rcases List.prefix_or_prefix_of_prefix hp (List.prefix_append w' us') with hp | hp
    · exact ends_not_before h h' he hp
    · exact (ends_not_before h' h he.symm hp).symm
  subst hw
  have hrun := h.run
  rw [h'.run] at hrun
  exact ⟨rfl, List.append_cancel_left he, by cases hrun; rfl⟩

/-- The tokens of an expression, and what ends it, are a place where reading stops. -/
theorem ends_of_derives {e : Expr} (h : Derives .expression w e) (hn : e.nesting ≤ limit)
    (hend : Rule.expression.EndsBefore us) : (operand []).Ends limit w us (operator []) := by
  have hs : (operand []).Shallow limit w := shallow_of_derives h (by simpa using hn)
  refine ⟨run_of_derives h [], fun u hu _ => hs u hu, fun _ t ht => ?_⟩
  exact step_operator_eq_none.2 ⟨hend t ht, by simp⟩

/-- Behind a complete operand, reading stops where it stops after it. -/
theorem ends_operand {r : Rule} {e : Expr} {s : List Opening} (h : Derives r w e)
    (hn : s.length + e.nesting ≤ limit) (hs : settle s = s)
    (hends : (operator s).Ends limit v us k) : (operand s).Ends limit (w ++ v) us k := by
  have hrun := run_of_derives h s
  rw [hs] at hrun
  exact ends_append hrun (shallow_of_derives h hn) hends

/-- The failure that a phase accounts for, after the tokens `w`: an operand is absent where one is due,
a closing parenthesis is absent where a group is open, or the last token opened too much. -/
inductive Reports (limit : Nat) (endLine : Int) : List Token → Phase → Failure → Prop
  | operandExpected {w us : List Token} {s : List Opening} (fits : s.length ≤ limit) :
      Reports limit endLine w (.operand s) (Rule.failAt .operandExpected endLine s.length us)
  | missingParen {w us : List Token} {s : List Opening} (fits : s.length + 1 ≤ limit) :
      Reports limit endLine w (.operator (.group :: s))
        (Rule.failAt Trellis.missingParen endLine (s.length + 1) us)
  | nestedTooDeeply {w us : List Token} {s : List Opening} {t : Token}
      (opening : t.kind = .leftParen ∨ t.kind ∈ prefixOperators) (deep : s.length = limit + 1) :
      Reports limit endLine (w ++ [t]) (.operand s) (Rule.failNested t s.length us)

theorem Reports.prepend {endLine : Int} {f : Failure} (h : Reports limit endLine w m f)
    (v : List Token) : Reports limit endLine (v ++ w) m f := by
  cases h with
  | operandExpected fits => exact .operandExpected fits
  | missingParen fits => exact .missingParen fits
  | nestedTooDeeply opening deep =>
    rw [← List.append_assoc]
    exact .nestedTooDeeply opening deep

end Phase

open Phase

/-- What a task may start with: a level is only read inside a group or outermost, and prefix operators
are not left to the tightest rule. -/
def Task.Admits (s : List Opening) (ts : List Token) : Task → Prop
  | .rule .unary => True
  | .rule .primary => ∀ t ∈ ts.head?, t.kind ∉ prefixOperators
  | _ => settle s = s

/-- The phase that a task starts in. -/
def Task.phase (s : List Opening) : Task → Phase
  | .rule _ => .operand s
  | .chain .. => .operator s

theorem admits_operand {l : Level} {s : List Opening} {ts : List Token} (h : settle s = s) :
    (Task.rule l.operand).Admits s ts := by
  cases l with
  | factor => trivial
  | _ => exact h

/-- **A reader fails where reading stops.** The failure is the one that the phase there accounts for. -/
theorem ends_of_reads_error {endLine : Int} {task : Task} {d : Nat} {ts : List Token} {f : Failure}
    (h : Reads endLine task d ts (.error f)) {s : List Opening} (hs : s.length = d)
    (ha : task.Admits s ts) :
    ∃ w m, ts = w ++ f.rest ∧ (task.phase s).Ends (max d maxNestingDepth) w f.rest m ∧
      Reports (max d maxNestingDepth) endLine w m f := by
  generalize ho : Except.error f = o at h
  induction h generalizing s with
  | expression _ ih => exact ih hs ha ho
  | leftFails _ ih => exact ih hs (admits_operand ha) ho
  | @binary l d ts us a _ left _ _ ihc =>
    subst hs
    obtain ⟨x, rfl, hx, -, hfit⟩ := reads_sound left
    obtain ⟨w, m, rfl, hends, hrep⟩ := ihc rfl ha ho
    exact ⟨x ++ w, m, by simp, ends_operand hx (Expr.fits_le hfit) ha hends, hrep.prepend x⟩
  | @rightFails l a d t ts _ operator _ ih =>
    subst hs
    obtain ⟨w, m, rfl, hends, hrep⟩ := ih rfl (admits_operand ha) ho
    exact ⟨t :: w, m, rfl, ends_cons (Nat.le_max_left _ _) (step_operator operator) hends,
      hrep.prepend [t]⟩
  | @operation l a b d t ts us _ operator right _ _ ihc =>
    subst hs
    obtain ⟨x, rfl, hx, -, hfit⟩ := reads_sound right
    obtain ⟨w, m, rfl, hends, hrep⟩ := ihc rfl ha ho
    have hoperand := ends_operand hx (Expr.fits_le hfit) ha hends
    exact ⟨t :: (x ++ w), m, by simp,
      ends_cons (Nat.le_max_left _ _) (step_operator operator) hoperand, hrep.prepend (t :: x)⟩
  | @prefixTooDeep d t ts operator deep =>
    cases ho
    subst hs
    have hlimit : max s.length maxNestingDepth = s.length := by omega
    refine ⟨[t], .operand (.prefixed :: s), rfl, ?_, ?_⟩
    · refine ends_cons (Nat.le_max_left _ _) (step_prefixed operator) (ends_nil fun hle => ?_)
      simp only [depth, List.length_cons] at hle
      omega
    · exact .nestedTooDeeply (w := []) (Or.inr operator) (by rw [hlimit, List.length_cons])
  | @prefixFails d t ts _ operator fits _ ih =>
    subst hs
    have hlimit : max (s.length + 1) maxNestingDepth = max s.length maxNestingDepth := by omega
    obtain ⟨w, m, rfl, hends, hrep⟩ := ih (s := .prefixed :: s) rfl trivial ho
    rw [hlimit] at hends hrep
    exact ⟨t :: w, m, rfl, ends_cons (Nat.le_max_left _ _) (step_prefixed operator) hends,
      hrep.prepend [t]⟩
  | primary next _ ih => exact ih hs next ho
  | @groupTooDeep d t ts opening deep =>
    cases ho
    subst hs
    have hlimit : max s.length maxNestingDepth = s.length := by omega
    refine ⟨[t], .operand (.group :: s), rfl, ?_, ?_⟩
    · refine ends_cons (Nat.le_max_left _ _) (step_leftParen opening) (ends_nil fun hle => ?_)
      simp only [depth, List.length_cons] at hle
      omega
    · exact .nestedTooDeeply (w := []) (Or.inl opening) (by rw [hlimit, List.length_cons])
  | @groupFails d t ts _ opening fits _ ih =>
    subst hs
    have hlimit : max (s.length + 1) maxNestingDepth = max s.length maxNestingDepth := by omega
    obtain ⟨w, m, rfl, hends, hrep⟩ := ih (s := .group :: s) rfl rfl ho
    rw [hlimit] at hends hrep
    exact ⟨t :: w, m, rfl, ends_cons (Nat.le_max_left _ _) (step_leftParen opening) hends,
      hrep.prepend [t]⟩
  | @unclosed d t ts us e opening fits inner next _ =>
    cases ho
    subst hs
    obtain ⟨x, rfl, hx, hend, hfit⟩ := reads_sound inner
    have hlimit : max (s.length + 1) maxNestingDepth = max s.length maxNestingDepth := by omega
    have hstop : (Phase.operator (.group :: s)).Ends (max s.length maxNestingDepth) [] us
        (.operator (.group :: s)) := by
      refine ends_nil fun _ u hu => step_operator_eq_none.2 ⟨hend u hu, fun hc => ?_⟩
      exact next u hu hc.1
    have hinner := ends_operand hx (hlimit ▸ Expr.fits_le hfit) (settle_group s) hstop
    refine ⟨t :: (x ++ []), _, by simp [Rule.failAt],
      ends_cons (Nat.le_max_left _ _) (step_leftParen opening) hinner, ?_⟩
    exact .missingParen (by omega)
  | @operandExpected d ts next =>
    cases ho
    subst hs
    refine ⟨[], .operand s, rfl, ends_nil fun _ t ht => ?_, .operandExpected (Nat.le_max_left _ _)⟩
    exact step_operand_eq_none.2 ⟨(next t ht).1, ha t ht, (next t ht).2⟩
  | _ => cases ho

end Trellis
