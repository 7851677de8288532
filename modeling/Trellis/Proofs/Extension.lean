import Trellis.Proofs.Reading

/-!
# What was read before a failure

The tokens that a reader has passed when it fails are never a dead end:

* `extends_of_reads_error`: they can be extended to a tree, which fits below the nesting limit unless
  nesting is what failed;
* `group_of_reads_error`: where a parenthesis is missing, they end in a complete expression that a
  parenthesis stands before.
-/

namespace Trellis

/-- A token that closes a group. -/
def closingToken : Token := { kind := .rightParen, lexeme := ")", line := 1 }

/-- A token that is an operand on its own. -/
def nullToken : Token := { kind := .kwNull, lexeme := "null", line := 1 }

/-- The tokens `w` can be extended to a tree of the task, which fits below the nesting limit unless the
tokens themselves are nested too deeply. -/
def Task.Extends (d : Nat) (w : List Token) (fault : ParseFault) : Task → Prop
  | .rule r => ∃ v e, Derives r (w ++ v) e ∧ (fault ≠ .nestedTooDeeply → e.Fits d)
  | .chain l a => ∀ x, Derives (.binary l) x a → ∃ v e, Derives (.binary l) (x ++ w ++ v) e ∧
      (fault ≠ .nestedTooDeeply → a.Fits d → e.Fits d)

/-- What was read before a failure is the beginning of a tree. -/
theorem extends_of_reads_error {endLine : Int} {task : Task} {d : Nat} {ts : List Token} {f : Failure}
    (h : Reads endLine task d ts (.error f)) :
    ∃ w, ts = w ++ f.rest ∧ task.Extends d w f.error.fault := by
  generalize ho : Except.error f = o at h
  induction h with
  | expression _ ih =>
    obtain ⟨w, hw, v, e, hd, hfit⟩ := ih ho
    exact ⟨w, hw, v, e, .expression hd, hfit⟩
  | leftFails _ ih =>
    obtain ⟨w, hw, v, e, hd, hfit⟩ := ih ho
    exact ⟨w, hw, v, e, .operand hd, hfit⟩
  | binary left _ _ ihc =>
    obtain ⟨x, rfl, hx, -, hfx⟩ := reads_sound left
    obtain ⟨w, rfl, hext⟩ := ihc ho
    obtain ⟨v, e, hd, hfit⟩ := hext x (.operand hx)
    refine ⟨x ++ w, by simp, v, e, hd, ?_⟩
    intro hne
    exact hfit hne hfx
  | @rightFails l a d t ts _ operator _ ih =>
    obtain ⟨w, rfl, v, e, hd, hfit⟩ := ih ho
    refine ⟨t :: w, rfl, ?_⟩
    intro x hx
    refine ⟨v, .binary a t e, ?_, ?_⟩
    · simpa using Derives.operation hx operator hd
    · intro hne ha
      exact (Expr.fits_binary _ _ _ _).2 ⟨ha, hfit hne⟩
  | @operation l a b d t ts us _ operator right _ _ ihc =>
    obtain ⟨y, rfl, hy, -, hfy⟩ := reads_sound right
    obtain ⟨w, rfl, hext⟩ := ihc ho
    refine ⟨t :: (y ++ w), by simp, ?_⟩
    intro x hx
    obtain ⟨v, e, hd, hfit⟩ := hext (x ++ t :: y) (.operation hx operator hy)
    refine ⟨v, e, by simpa using hd, ?_⟩
    intro hne ha
    apply hfit hne
    exact (Expr.fits_binary _ _ _ _).2 ⟨ha, hfy⟩
  | @prefixTooDeep d t ts operator _ =>
    cases ho
    refine ⟨[t], rfl, [nullToken], .unary t (.literal .null), ?_, fun hne => absurd rfl hne⟩
    exact .prefixed operator (.primary (.literal (.nullWord rfl)))
  | @prefixFails d t ts _ operator fits _ ih =>
    obtain ⟨w, rfl, v, e, hd, hfit⟩ := ih ho
    refine ⟨t :: w, rfl, v, .unary t e, .prefixed operator hd, ?_⟩
    intro hne
    exact (Expr.fits_unary _ _ _).2 ⟨fits, hfit hne⟩
  | primary _ _ ih =>
    obtain ⟨w, hw, v, e, hd, hfit⟩ := ih ho
    exact ⟨w, hw, v, e, .primary hd, hfit⟩
  | @groupTooDeep d t ts opening _ =>
    cases ho
    refine ⟨[t], rfl, [nullToken, closingToken], .grouping (.literal .null), ?_,
      fun hne => absurd rfl hne⟩
    have inner : Derives .expression [nullToken] (.literal .null) :=
      .loosen (.literal (.nullWord rfl)) (by decide)
    exact .group opening inner rfl
  | @groupFails d t ts _ opening fits _ ih =>
    obtain ⟨w, rfl, v, e, hd, hfit⟩ := ih ho
    refine ⟨t :: w, rfl, v ++ [closingToken], .grouping e, ?_, ?_⟩
    · simpa using Derives.group (u := closingToken) opening hd rfl
    · intro hne
      exact (Expr.fits_grouping _ _).2 ⟨fits, hfit hne⟩
  | @unclosed d t ts us e opening fits inner next _ =>
    cases ho
    obtain ⟨w, rfl, hd, -, hfit⟩ := reads_sound inner
    refine ⟨t :: w, rfl, [closingToken], .grouping e, .group opening hd rfl, ?_⟩
    intro _
    exact (Expr.fits_grouping _ _).2 ⟨fits, hfit⟩
  | operandExpected next =>
    cases ho
    exact ⟨[], rfl, [nullToken], .literal .null, .literal (.nullWord rfl), fun _ => by simp⟩
  | _ => cases ho

/-- A missing parenthesis is found after a whole expression in a group. -/
theorem group_of_reads_error {endLine : Int} {task : Task} {d : Nat} {ts : List Token} {f : Failure}
    (h : Reads endLine task d ts (.error f)) (hf : f.error.fault = missingParen) :
    ∃ outer g inner e, ts = outer ++ g :: inner ++ f.rest ∧ g.kind = .leftParen ∧
      Derives .expression inner e := by
  generalize ho : Except.error f = o at h
  induction h with
  | expression _ ih | leftFails _ ih | primary _ _ ih => exact ih ho
  | binary left _ _ ihc =>
    obtain ⟨x, rfl, -⟩ := reads_sound left
    obtain ⟨outer, g, inner, e, rfl, hg, hd⟩ := ihc ho
    exact ⟨x ++ outer, g, inner, e, by simp, hg, hd⟩
  | @rightFails _ _ _ t _ _ _ _ ih | @prefixFails _ t _ _ _ _ _ ih | @groupFails _ t _ _ _ _ _ ih =>
    obtain ⟨outer, g, inner, e, rfl, hg, hd⟩ := ih ho
    exact ⟨t :: outer, g, inner, e, by simp, hg, hd⟩
  | @operation _ _ _ _ t _ _ _ _ right _ _ ihc =>
    obtain ⟨x, rfl, -⟩ := reads_sound right
    obtain ⟨outer, g, inner, e, rfl, hg, hd⟩ := ihc ho
    exact ⟨t :: x ++ outer, g, inner, e, by simp, hg, hd⟩
  | @unclosed _ t _ _ e opening _ inner _ _ =>
    cases ho
    obtain ⟨w, rfl, hd, -⟩ := reads_sound inner
    exact ⟨[], t, w, e, rfl, opening, hd⟩
  | prefixTooDeep | groupTooDeep | operandExpected => cases ho; cases hf
  | _ => cases ho

end Trellis
