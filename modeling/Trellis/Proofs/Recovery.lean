import Trellis.Proofs.Call

/-!
# Recovery at a semicolon

A semicolon is read by no rule. So reading never gets past one, and does not depend on what stands behind
it; an error before it is found as if the tokens ended there, and recovery goes on just after it.

* `Token.Inert`: a token that no rule reads;
* `reads_alike`: what is read before an inert token, or before the end, does not depend on what follows;
* `error_before_semicolon`: an error before a semicolon does not depend on what is behind it;
* `discarded_semicolon`: recovery discards the tokens up to a semicolon, and the semicolon;
* `recovers_after_semicolon`: **a bad statement hides nothing behind its semicolon**.
-/

namespace Trellis

/-- No rule reads the token: it begins no operand, goes on with none, and closes no group. -/
structure Token.Inert (t : Token) : Prop where
  literal : t.literalValue? = none
  prefixed : t.kind ∉ prefixOperators
  opening : t.kind ≠ .leftParen
  closing : t.kind ≠ .rightParen
  operator : ∀ l : Level, t.kind ∉ l.operators

/-- No rule reads on: the next token is inert, or there is none. -/
def Halts (ts : List Token) : Prop := ∀ t ∈ ts.head?, t.Inert

theorem inert_of_kind {s : Token} (hs : s.kind = .semicolon ∨ s.kind = .endOfInput) : s.Inert := by
  rcases hs with hs | hs
  all_goals
    constructor
    · simp [Token.literalValue?, hs]
    · simp [prefixOperators, hs]
    · simp [hs]
    · simp [hs]
    · intro l
      rw [hs]
      cases l <;> decide

theorem halts_semicolon {s : Token} (hs : s.kind = .semicolon) (rest : List Token) :
    Halts (s :: rest) := by
  rintro t ⟨⟩
  exact inert_of_kind (.inl hs)

/-! ## Reading does not depend on what stands behind an inert token -/

/-- A failure before `behind`, and the same failure where `behind'` stands instead. -/
inductive Failure.Alike (endLine endLine' : Int) (behind behind' : List Token) :
    Failure → Failure → Prop
  | at {fault : ParseFault} {d : Nat} {v : List Token} :
      Alike endLine endLine' behind behind' (Rule.failAt fault endLine d (v ++ behind))
        (Rule.failAt fault endLine' d (v ++ behind'))
  | nested {t : Token} {d : Nat} {v : List Token} :
      Alike endLine endLine' behind behind' (Rule.failNested t d (v ++ behind))
        (Rule.failNested t d (v ++ behind'))

/-- An outcome before `behind`, and the same outcome where `behind'` stands instead. -/
inductive Outcome.Alike (endLine endLine' : Int) (behind behind' : List Token) :
    Outcome → Outcome → Prop
  | ok {e : Expr} {v : List Token} :
      Alike endLine endLine' behind behind' (.ok (e, v ++ behind)) (.ok (e, v ++ behind'))
  | error {f f' : Failure} (h : f.Alike endLine endLine' behind behind' f') :
      Alike endLine endLine' behind behind' (.error f) (.error f')

section

variable {endLine endLine' : Int} {behind behind' v ts us : List Token} {t : Token} {o o' : Outcome}

theorem ok_of_alike {e : Expr}
    (h : Outcome.Alike endLine endLine' behind behind' (.ok (e, us)) o') :
    ∃ v, us = v ++ behind ∧ o' = .ok (e, v ++ behind') := by
  generalize ho : Except.ok (e, us) = o at h
  cases h with
  | ok =>
    cases ho
    exact ⟨_, rfl, rfl⟩
  | error => cases ho

theorem error_of_alike {f : Failure}
    (h : Outcome.Alike endLine endLine' behind behind' (.error f) o') :
    ∃ f', o' = .error f' ∧ f.Alike endLine endLine' behind behind' f' := by
  cases h with
  | error h => exact ⟨_, rfl, h⟩

/-- A token that a rule reads stands before what is behind. -/
theorem read_before (hb : Halts behind) (ht : ¬ t.Inert) (h : v ++ behind = t :: ts) :
    ∃ v', v = t :: v' ∧ v' ++ behind = ts := by
  cases v with
  | nil =>
    rw [List.nil_append] at h
    exact absurd (hb t (by rw [h]; rfl)) ht
  | cons u v =>
    obtain ⟨rfl, hv⟩ := List.cons.inj h
    exact ⟨v, rfl, hv⟩

/-- What holds of the next token and of every inert one holds whatever is behind. -/
theorem next_alike {P : Token → Prop} (hP : ∀ t, t.Inert → P t) (hb' : Halts behind')
    (h : ∀ t ∈ (v ++ behind).head?, P t) : ∀ t ∈ (v ++ behind').head?, P t := by
  cases v with
  | nil => exact fun t ht => hP t (hb' t ht)
  | cons u v => exact h

/-- What is read before an inert token, or before the end, does not depend on what follows. -/
theorem reads_alike {task : Task} {d : Nat} (hb : Halts behind) (hb' : Halts behind')
    (h : Reads endLine task d (v ++ behind) o) :
    ∃ o', Reads endLine' task d (v ++ behind') o' ∧
      Outcome.Alike endLine endLine' behind behind' o o' := by
  generalize hts : v ++ behind = ts at h
  induction h generalizing v with
  | expression _ ih =>
    obtain ⟨o', h', ha⟩ := ih hts
    exact ⟨o', .expression h', ha⟩
  | leftFails _ ih =>
    obtain ⟨o', h', ha⟩ := ih hts
    obtain ⟨f', rfl, hf⟩ := error_of_alike ha
    exact ⟨_, .leftFails h', .error hf⟩
  | binary _ _ ihl ihc =>
    obtain ⟨o', h', ha⟩ := ihl hts
    obtain ⟨x, rfl, rfl⟩ := ok_of_alike ha
    obtain ⟨o'', hc, ha'⟩ := ihc rfl
    exact ⟨o'', .binary h' hc, ha'⟩
  | @chainEnds l _ _ _ next =>
    subst hts
    exact ⟨_, .chainEnds (next_alike (fun t ht => ht.operator l) hb' next), .ok⟩
  | @rightFails l _ _ _ _ _ operator _ ih =>
    obtain ⟨x, rfl, hx⟩ := read_before hb (fun ht => ht.operator l operator) hts
    obtain ⟨o', h', ha⟩ := ih hx
    obtain ⟨f', rfl, hf⟩ := error_of_alike ha
    exact ⟨_, .rightFails operator h', .error hf⟩
  | @operation l _ _ _ _ _ _ _ operator _ _ ihr ihc =>
    obtain ⟨x, rfl, hx⟩ := read_before hb (fun ht => ht.operator l operator) hts
    obtain ⟨o', h', ha⟩ := ihr hx
    obtain ⟨y, rfl, rfl⟩ := ok_of_alike ha
    obtain ⟨o'', hc, ha'⟩ := ihc rfl
    exact ⟨o'', .operation operator h' hc, ha'⟩
  | prefixTooDeep operator deep =>
    obtain ⟨x, rfl, rfl⟩ := read_before hb (fun ht => ht.prefixed operator) hts
    exact ⟨_, .prefixTooDeep operator deep, .error .nested⟩
  | prefixFails operator fits _ ih =>
    obtain ⟨x, rfl, hx⟩ := read_before hb (fun ht => ht.prefixed operator) hts
    obtain ⟨o', h', ha⟩ := ih hx
    obtain ⟨f', rfl, hf⟩ := error_of_alike ha
    exact ⟨_, .prefixFails operator fits h', .error hf⟩
  | prefixed operator fits _ ih =>
    obtain ⟨x, rfl, hx⟩ := read_before hb (fun ht => ht.prefixed operator) hts
    obtain ⟨o', h', ha⟩ := ih hx
    obtain ⟨y, rfl, rfl⟩ := ok_of_alike ha
    exact ⟨_, .prefixed operator fits h', .ok⟩
  | primary next _ ih =>
    subst hts
    obtain ⟨o', h', ha⟩ := ih rfl
    exact ⟨o', .primary (next_alike (fun t ht => ht.prefixed) hb' next) h', ha⟩
  | literal value =>
    obtain ⟨x, rfl, rfl⟩ := read_before hb (fun ht => by simp [ht.literal] at value) hts
    exact ⟨_, .literal value, .ok⟩
  | groupTooDeep opening deep =>
    obtain ⟨x, rfl, rfl⟩ := read_before hb (fun ht => ht.opening opening) hts
    exact ⟨_, .groupTooDeep opening deep, .error .nested⟩
  | groupFails opening fits _ ih =>
    obtain ⟨x, rfl, hx⟩ := read_before hb (fun ht => ht.opening opening) hts
    obtain ⟨o', h', ha⟩ := ih hx
    obtain ⟨f', rfl, hf⟩ := error_of_alike ha
    exact ⟨_, .groupFails opening fits h', .error hf⟩
  | unclosed opening fits _ next ih =>
    obtain ⟨x, rfl, hx⟩ := read_before hb (fun ht => ht.opening opening) hts
    obtain ⟨o', h', ha⟩ := ih hx
    obtain ⟨y, rfl, rfl⟩ := ok_of_alike ha
    have next' := next_alike (fun t ht => ht.closing) hb' next
    exact ⟨_, .unclosed opening fits h' next', .error .at⟩
  | group opening fits _ closing ih =>
    obtain ⟨x, rfl, hx⟩ := read_before hb (fun ht => ht.opening opening) hts
    obtain ⟨o', h', ha⟩ := ih hx
    obtain ⟨y, hy, rfl⟩ := ok_of_alike ha
    obtain ⟨z, rfl, rfl⟩ := read_before hb (fun ht => ht.closing closing) hy.symm
    exact ⟨_, .group opening fits h' closing, .ok⟩
  | operandExpected next =>
    subst hts
    have next' := next_alike (fun t ht => ⟨ht.literal, ht.opening⟩) hb' next
    exact ⟨_, .operandExpected next', .error .at⟩

/-- Before the same token, the same error is found. -/
theorem error_eq_of_alike {s : Token} {f f' : Failure}
    (h : f.Alike endLine endLine' (s :: behind) (s :: behind') f') : f.error = f'.error := by
  cases h with
  | @«at» _ _ v => cases v <;> rfl
  | nested => rfl

theorem rest_of_alike {f f' : Failure} (h : f.Alike endLine endLine' behind behind' f') :
    ∃ v, f.rest = v ++ behind ∧ f'.rest = v ++ behind' := by
  cases h with
  | «at» => exact ⟨_, rfl, rfl⟩
  | nested => exact ⟨_, rfl, rfl⟩

end

/-! ## Recovery stops after the semicolon -/

/-- A token that recovery passes on its way to a semicolon. -/
structure Token.Passable (t : Token) : Prop where
  notEnd : t.kind ≠ .semicolon
  notLast : t.kind ≠ .endOfInput
  notStart : t.kind ∉ statementStarts

variable {s : Token} {v : List Token}

theorem countToBoundary_after (hs : s.kind = .semicolon) (rest : List Token) :
    countToBoundary s rest = 0 := by
  cases rest with
  | nil => rfl
  | cons t rest => simp [countToBoundary, statementEnds, hs]

theorem countToBoundary_semicolon (hs : s.kind = .semicolon) {t : Token} (ht : t.kind ≠ .semicolon)
    (hv : ∀ u ∈ v, u.Passable) (rest : List Token) :
    countToBoundary t (v ++ s :: rest) = v.length + 1 := by
  induction v generalizing t with
  | nil =>
    simp [countToBoundary, countToBoundary_after hs, statementEnds, statementStarts, ht, hs]
  | cons u v ih =>
    have hu := hv u List.mem_cons_self
    have hrest := ih hu.notEnd fun u' hu' => hv u' (List.mem_cons_of_mem u hu')
    simp [countToBoundary, hrest, statementEnds, ht, hu.notLast, hu.notStart]

/-- Recovery discards what stands before a semicolon, and the semicolon. -/
theorem discarded_semicolon (hs : s.kind = .semicolon) (hv : ∀ u ∈ v, u.Passable)
    (rest : List Token) : discarded (v ++ s :: rest) = v.length + 1 := by
  cases v with
  | nil => simp [discarded, countToBoundary_after hs]
  | cons u v =>
    have hu := hv u List.mem_cons_self
    have hrest := countToBoundary_semicolon hs hu.notEnd
      (fun u' hu' => hv u' (List.mem_cons_of_mem u hu')) rest
    simp [discarded, hrest]

/-! ## The next statement -/

variable {A B : List Token} {endLine : Int} {f : Failure}

/-- If reading fails before a semicolon, it fails alike whatever is behind it. -/
theorem alike_before_semicolon (hs : s.kind = .semicolon)
    (hr : Reads endLine (.rule .expression) 0 (A ++ s :: B) (.error f)) (endLine' : Int)
    (B' : List Token) : ∃ f', f.Alike endLine endLine' (s :: B) (s :: B') f' ∧
      Reads endLine' (.rule .expression) 0 (A ++ s :: B') (.error f') := by
  obtain ⟨o, ho, ha⟩ := reads_alike (halts_semicolon hs B) (halts_semicolon hs B') hr
  obtain ⟨f', rfl, hf⟩ := error_of_alike ha
  exact ⟨f', hf, ho⟩

/-- Reading that fails before a semicolon has not passed it. -/
theorem rest_before_semicolon (hs : s.kind = .semicolon)
    (hr : Reads endLine (.rule .expression) 0 (A ++ s :: B) (.error f)) :
    ∃ w v, A = w ++ v ∧ f.rest = v ++ s :: B := by
  obtain ⟨f', hf, -⟩ := alike_before_semicolon hs hr endLine B
  obtain ⟨v, hv, -⟩ := rest_of_alike hf
  obtain ⟨w, hw, -⟩ := extends_of_reads_error hr
  refine ⟨w, v, ?_, hv⟩
  rw [hv, ← List.append_assoc] at hw
  exact List.append_cancel_right hw

/-- One error tells how reading fails before a semicolon, if it fails at all. -/
theorem error_before_semicolon (A : List Token) (hs : s.kind = .semicolon) : ∃ err, ∀ B endLine f,
    Reads endLine (.rule .expression) 0 (A ++ s :: B) (.error f) → f.error = err := by
  by_cases h : ∃ f, Reads 1 (.rule .expression) 0 (A ++ [s]) (.error f)
  · obtain ⟨f, hf⟩ := h
    refine ⟨f.error, fun B endLine g hg => ?_⟩
    obtain ⟨f', ha, hf'⟩ := alike_before_semicolon hs hg 1 []
    cases reads_unique hf hf'
    exact error_eq_of_alike ha
  · -- nothing fails here, and any error will do
    refine ⟨⟨.operandExpected, none, 1⟩, fun B endLine g hg => ?_⟩
    obtain ⟨f', -, hf'⟩ := alike_before_semicolon hs hg 1 []
    exact absurd ⟨f', hf'⟩ h

/-- A call that fails before a semicolon moves to the place after it. -/
theorem callGives_semicolon {sink : Sink} {w : List Token} (hs : s.kind = .semicolon)
    (hv : ∀ t ∈ v, t.Passable) (hf : f.rest = v ++ s :: B)
    (hr : Reads (Parser.endLine { tokens := w ++ v ++ s :: B, sink }) (.rule .expression) 0
      (w ++ v ++ s :: B) (.error f)) :
    Parser.CallGives { tokens := w ++ v ++ s :: B, sink } none ((w ++ v).length + 1) [f.error] := by
  have hgives := Parser.callGives_of_error (p := { tokens := w ++ v ++ s :: B, sink })
    (Nat.zero_le _) (w := w) (by simp [Parser.rest, hf]) hr
  rw [hf, discarded_semicolon hs hv] at hgives
  rwa [List.length_append, Nat.add_assoc]

/-- **One bad statement never hides the next.** The tokens `A` hold no semicolon, no end of input and no
beginning of a statement. If a parse call fails on them, followed by a semicolon and other tokens, then
it reports one error, the same whatever the other tokens are, and moves to the place after the
semicolon. The next call gives, passes and reports what the first call on the other tokens alone does. -/
theorem recovers_after_semicolon (hA : ∀ t ∈ A, t.Passable) (hs : s.kind = .semicolon) :
    ∃ err, ∀ B, B ≠ [] → ∀ sink sink' : Sink,
      let p : Parser := { tokens := A ++ s :: B, sink }
      p.parse.1 = none → p.CallGives none (A.length + 1) [err] ∧
        ∃ tree k errs, p.parse.2.CallGives tree k errs ∧
          Parser.CallGives { tokens := B, sink := sink' } tree k errs := by
  obtain ⟨err, herr⟩ := error_before_semicolon A hs
  refine ⟨err, ?_⟩
  intro B hB sink sink' p hp
  rcases p.parse_cases with ⟨e, us, hr⟩ | ⟨f, hr⟩
  · rw [Parser.parse_of_ok hr] at hp
    cases hp
  · obtain ⟨w, v, rfl, hf⟩ := rest_before_semicolon hs hr
    obtain rfl := herr B _ f hr
    have hgives : p.CallGives none ((w ++ v).length + 1) [f.error] :=
      callGives_semicolon hs (fun t ht => hA t (List.mem_append_right w ht)) hf hr
    have hrest : p.parse.2.rest = B := by
      rw [hgives.rest]
      change (w ++ v ++ s :: B).drop ((w ++ v).length + 1) = B
      rw [← List.drop_drop, List.drop_left, List.drop_one, List.tail_cons]
    exact ⟨hgives, Parser.callGives_of_rest hrest hB⟩

/-- A group that is still open at the semicolon. -/
theorem recovers_from_open_group :
    let opening : Token := { kind := .leftParen, lexeme := "(", line := 1 }
    let one : Token := { kind := .number, lexeme := "1", literal := .number .one, line := 1 }
    let semicolon : Token := { kind := .semicolon, lexeme := ";", line := 1 }
    (∀ t ∈ [opening, one], t.Passable) ∧ semicolon.kind = .semicolon ∧
      ∃ err, ∀ B, B ≠ [] → ∀ sink sink' : Sink,
        let p : Parser := { tokens := [opening, one] ++ semicolon :: B, sink }
        p.parse.1 = none ∧ p.CallGives none 3 [err] ∧
          ∃ tree k errs, p.parse.2.CallGives tree k errs ∧
            Parser.CallGives { tokens := B, sink := sink' } tree k errs := by
  intro opening one semicolon
  have hA : ∀ t ∈ [opening, one], t.Passable := by
    simp only [List.forall_mem_cons]
    exact ⟨⟨by decide, by decide, by decide⟩, ⟨by decide, by decide, by decide⟩, by simp⟩
  obtain ⟨err, herr⟩ := recovers_after_semicolon hA (s := semicolon) rfl
  refine ⟨hA, rfl, err, ?_⟩
  intro B hB sink sink' p
  have inner : Reads p.endLine (.rule .expression) 1 (one :: semicolon :: B)
      (.ok (.literal (.number .one), semicolon :: B)) :=
    reads_ok_iff.2 ⟨[one], rfl, .loosen (.literal (.number rfl)) (by decide),
      (Rule.endsBefore_cons _ _ _).2 (by decide), Expr.fits_literal _ _⟩
  have group : Reads p.endLine (.rule .unary) 0 p.rest (.error _) :=
    .primary (by rintro t ⟨⟩; decide) (.unclosed rfl (by decide) inner (by rintro t ⟨⟩; decide))
  have hfails := Reads.expression (.leftFails (.leftFails (.leftFails (.leftFails group))))
  have hnone := (Parser.parse_of_error hfails).1
  exact ⟨hnone, herr B hB sink sink' hnone⟩

end Trellis
