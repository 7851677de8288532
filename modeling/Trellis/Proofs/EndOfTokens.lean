import Trellis.Proofs.EarliestError
import Trellis.Proofs.Recovery

/-!
# The end of the tokens

Reading ends where no token is left, and it ends at a token of the end of input, behind which nothing is
ever read. A parser does not tell the two apart, but for the line of an error found there, and but for
recovery, which discards a token of the end of input that it starts on.

* `Parser.EndsAlike`: how a call before such a token compares with one where the list ends;
* `parse_at_end`: **running out of tokens and meeting the end of input are the same**;
* `recovery_at_end`: recovery tells them apart where the last token of all opens too much.
-/

namespace Trellis

variable {ts r v w : List Token} {e t : Token} {f f' : Failure} {endLine : Int} {sink sink' : Sink}

theorem halts_endOfInput (he : e.kind = .endOfInput) (r : List Token) : Halts (e :: r) := by
  rintro t ⟨⟩
  exact inert_of_kind (.inr he)

theorem halts_nil : Halts [] := by
  rintro t ⟨⟩

/-! ## Recovery -/

/-- Recovery that has not come to the end of input yet stops there at the latest. -/
theorem countToBoundary_endOfInput (he : e.kind = .endOfInput) (t : Token) (v r : List Token) :
    countToBoundary t (v ++ e :: r) = countToBoundary t v := by
  induction v generalizing t with
  | nil => simp [countToBoundary, he]
  | cons u v ih => simp only [List.cons_append, countToBoundary, ih]

theorem discarded_endOfInput (he : e.kind = .endOfInput) (hv : v ≠ []) (r : List Token) :
    discarded (v ++ e :: r) = discarded v := by
  cases v with
  | nil => exact absurd rfl hv
  | cons t v => exact congrArg (· + 1) (countToBoundary_endOfInput he t v r)

/-! ## A call before the end of input -/

/-- Two diagnostics have the same text, code, place and suggestions. -/
structure Diagnostic.SameWords (d d' : Diagnostic) : Prop where
  message : d.message = d'.message
  code : d.code = d'.code
  location : d.location = d'.location
  suggestions : d.suggestions = d'.suggestions

/-- How a parse call on the tokens `ts` compares with one on `ts`, a token `e` and the tokens `r`. -/
inductive Parser.EndsAlike (p q : Parser) (ts : List Token) (e : Token) (r : List Token) : Prop
  /-- Both read the same tree and pass the same tokens. -/
  | tree {x : Expr} {k : Nat} (hp : p.CallGives (some x) k []) (hq : q.CallGives (some x) k [])
  /-- Both find the same error at a token of `ts`, and recovery moves both to the same place. Only where
  no token of `ts` is left, since the last one has opened too much, does it discard `e` as well. -/
  | atToken {read behind : List Token} {t : Token} {err : ParseError} {k k' : Nat}
      (split : ts = read ++ behind) (member : t ∈ ts) (found : err.found = some t)
      (raised : p.FailsAfter read err) (raised' : q.FailsAfter read err)
      (gives : p.CallGives none k [err]) (gives' : q.CallGives none k' [err])
      (recovery : behind ≠ [] → k = k')
      (last : behind = [] → err.fault.code = "P006" ∧ ts.getLast? = some t ∧ k = ts.length ∧
        k' = ts.length + discarded (e :: r)) : EndsAlike p q ts e r
  /-- Both find the same error at the end, and only its line tells where the tokens end. -/
  | atEnd {err err' : ParseError} (found : err.found = none) (found' : err'.found = some e)
      (words : err.diagnostic.SameWords err'.diagnostic)
      (line : err.line = (ts.getLast?.map (·.line)).getD 1) (line' : err'.line = e.line)
      (raised : p.FailsAfter ts err) (raised' : q.FailsAfter ts err')
      (gives : p.CallGives none ts.length [err])
      (gives' : q.CallGives none (ts.length + discarded (e :: r)) [err']) : EndsAlike p q ts e r

/-- What is read before the end of the list is read before a token of the end of input. -/
theorem reads_before_end {task : Task} {d : Nat} {o : Outcome} (he : e.kind = .endOfInput)
    (h : Reads endLine task d ts o) (endLine' : Int) (r : List Token) :
    ∃ o', Reads endLine' task d (ts ++ e :: r) o' ∧
      Outcome.Alike endLine endLine' [] (e :: r) o o' := by
  have h' : Reads endLine task d (ts ++ []) o := by rwa [List.append_nil]
  exact reads_alike halts_nil (halts_endOfInput he r) h'

/-- Two calls that fail alike have passed the same tokens by then, and recovery goes on from there. -/
theorem calls_alike
    (hr : Reads (Parser.endLine { tokens := ts, sink }) (.rule .expression) 0 ts (.error f))
    (hr' : Reads (Parser.endLine { tokens := ts ++ e :: r, sink := sink' }) (.rule .expression) 0
      (ts ++ e :: r) (.error f'))
    (hv : f.rest = v) (hv' : f'.rest = v ++ e :: r) : ∃ w, ts = w ++ v ∧
      Parser.FailsAfter { tokens := ts, sink } w f.error ∧
      Parser.FailsAfter { tokens := ts ++ e :: r, sink := sink' } w f'.error ∧
      Parser.CallGives { tokens := ts, sink } none (w.length + discarded v) [f.error] ∧
      Parser.CallGives { tokens := ts ++ e :: r, sink := sink' } none
        (w.length + discarded (v ++ e :: r)) [f'.error] := by
  obtain ⟨w, hw, -⟩ := extends_of_reads_error hr
  have hw' : ts ++ e :: r = w ++ f'.rest := by rw [hv', hw, hv, List.append_assoc]
  let p : Parser := { tokens := ts, sink }
  let q : Parser := { tokens := ts ++ e :: r, sink := sink' }
  have hp := Parser.callGives_of_error (p := p) (Nat.zero_le _) hw hr
  have hq := Parser.callGives_of_error (p := q) (Nat.zero_le _) hw' hr'
  have hf := failsAfter_of_reads (p := p) (Nat.zero_le _) hw hr
  have hf' := failsAfter_of_reads (p := q) (Nat.zero_le _) hw' hr'
  rw [hv] at hw hp
  rw [hv'] at hq
  exact ⟨w, hw, hf, hf', hp, hq⟩

/-- An error at the end is worded alike in both lists. -/
theorem sameWords_at_end (he : e.kind = .endOfInput) (fault : ParseFault) (endLine endLine' : Int)
    (d : Nat) (r : List Token) : (Rule.failAt fault endLine d []).error.diagnostic.SameWords
      (Rule.failAt fault endLine' d (e :: r)).error.diagnostic := by
  have hlocation : locationOf none = locationOf (some e) := by simp [locationOf, he]
  exact ⟨rfl, rfl, hlocation, rfl⟩

/-- The token that opens too much is the last one that has been read. -/
theorem opened_last {d : Nat} (hts : ts = w ++ v)
    (hr : Reads endLine (.rule .expression) 0 ts (.error (Rule.failNested t d v))) :
    w.getLast? = some t := by
  obtain ⟨x, m, hx, -, hrep⟩ := ends_of_reads_error (s := []) hr rfl rfl
  obtain rfl : w = x := List.append_cancel_right (hts.symm.trans hx)
  generalize hg : Rule.failNested t d v = g at hrep
  cases hrep with
  | operandExpected => cases hg
  | missingParen => cases hg
  | nestedTooDeeply =>
    cases hg
    exact List.getLast?_concat

section

variable {x : Expr} {us : List Token}

theorem endsAlike_of_ok (he : e.kind = .endOfInput) (r : List Token) (sink sink' : Sink)
    (hr : Reads (Parser.endLine { tokens := ts, sink }) (.rule .expression) 0 ts (.ok (x, us))) :
    Parser.EndsAlike { tokens := ts, sink } { tokens := ts ++ e :: r, sink := sink' } ts e r := by
  obtain ⟨w, hw, -⟩ := reads_ok_iff.1 hr
  obtain ⟨o', hr', ha⟩ :=
    reads_before_end he hr (Parser.endLine { tokens := ts ++ e :: r, sink := sink' }) r
  obtain ⟨v, rfl, rfl⟩ := ok_of_alike ha
  have hw' : ts ++ e :: r = w ++ (v ++ e :: r) := by simp [hw]
  exact .tree (Parser.callGives_of_ok (p := { tokens := ts, sink }) (Nat.zero_le _) hw hr)
    (Parser.callGives_of_ok (p := { tokens := ts ++ e :: r, sink := sink' }) (Nat.zero_le _) hw' hr')

theorem endsAlike_of_error (he : e.kind = .endOfInput) (r : List Token) (sink sink' : Sink)
    (hr : Reads (Parser.endLine { tokens := ts, sink }) (.rule .expression) 0 ts (.error f)) :
    Parser.EndsAlike { tokens := ts, sink } { tokens := ts ++ e :: r, sink := sink' } ts e r := by
  obtain ⟨o', hr', ha⟩ :=
    reads_before_end he hr (Parser.endLine { tokens := ts ++ e :: r, sink := sink' }) r
  obtain ⟨f', rfl, hf⟩ := error_of_alike ha
  obtain ⟨v, hv, hv'⟩ := rest_of_alike hf
  rw [List.append_nil] at hv
  obtain ⟨w, hts, hp, hq, hgives, hgives'⟩ := calls_alike hr hr' hv hv'
  cases hf with
  | @«at» fault d v' =>
    obtain rfl : v' = v := by simpa [Rule.failAt] using hv
    cases v' with
    | nil =>
      obtain rfl : ts = w := by simpa using hts
      exact .atEnd rfl rfl (sameWords_at_end he fault _ _ d r) rfl rfl hp hq hgives hgives'
    | cons t v =>
      have hmoves := congrArg (w.length + ·) (discarded_endOfInput he (List.cons_ne_nil t v) r)
      exact .atToken hts (by simp [hts]) rfl hp hq hgives hgives' (fun _ => hmoves.symm)
        (fun hnil => absurd hnil (List.cons_ne_nil t v))
  | @nested t d v' =>
    obtain rfl : v' = v := by simpa [Rule.failNested] using hv
    rw [List.append_nil] at hr
    have hopened := opened_last hts hr
    refine .atToken hts ?_ rfl hp hq hgives hgives' ?_ ?_
    · rw [hts]
      exact List.mem_append_left _ (List.mem_of_getLast? hopened)
    · intro hne
      rw [discarded_endOfInput he hne]
    · -- the opening token is behind the cursor, and recovery starts on what follows it
      rintro rfl
      obtain rfl : ts = w := by simpa using hts
      exact ⟨rfl, hopened, rfl, rfl⟩

end

/-- **Running out of tokens and meeting the end of input are the same to a parser.** Whatever stands
behind a token of the end of input, a call before it ends as it does where the list ends. -/
theorem parse_at_end (ts r : List Token) (he : e.kind = .endOfInput) (sink sink' : Sink) :
    Parser.EndsAlike { tokens := ts, sink } { tokens := ts ++ e :: r, sink := sink' } ts e r := by
  rcases ({ tokens := ts, sink } : Parser).parse_cases with ⟨x, us, hr⟩ | ⟨f, hr⟩
  · exact endsAlike_of_ok he r sink sink' hr
  · exact endsAlike_of_error he r sink sink' hr

/-- A group that is still open at the end, which is on a later line. -/
theorem open_group_at_end :
    let opening : Token := { kind := .leftParen, lexeme := "(", line := 1 }
    let one : Token := { kind := .number, lexeme := "1", literal := .number .one, line := 2 }
    let last : Token := { kind := .endOfInput, lexeme := "", line := 3 }
    last.kind = .endOfInput ∧
      Parser.EndsAlike { tokens := [opening, one] } { tokens := [opening, one, last, one] }
        [opening, one] last [one] :=
  ⟨rfl, parse_at_end _ _ rfl {} {}⟩

/-! ## Where recovery tells the two apart -/

/-- Prefix operators up to the nesting limit, and one more. -/
theorem reads_prefixes (ht : t.kind ∈ prefixOperators) (us : List Token) {n d : Nat}
    (hd : d + n = maxNestingDepth) : Reads endLine (.rule .unary) d (List.replicate (n + 1) t ++ us)
      (.error (Rule.failNested t (maxNestingDepth + 1) us)) := by
  induction n generalizing d with
  | zero =>
    obtain rfl : d = maxNestingDepth := hd
    exact .prefixTooDeep ht (Nat.lt_succ_self _)
  | succ n ih => exact .prefixFails ht (by omega) (ih (by omega))

/-- A call on one prefix operator more than the nesting limit allows. -/
theorem call_prefixes (ht : t.kind ∈ prefixOperators) (us : List Token) (sink : Sink) :
    let ts := List.replicate (maxNestingDepth + 1) t
    let err : ParseError := ⟨.nestedTooDeeply, some t, t.line⟩
    Parser.FailsAfter { tokens := ts ++ us, sink } ts err ∧
      Parser.CallGives { tokens := ts ++ us, sink } none (ts.length + discarded us) [err] := by
  intro ts err
  have hunary : Reads (Parser.endLine { tokens := ts ++ us, sink }) (.rule .unary) 0 (ts ++ us)
      (.error (Rule.failNested t (maxNestingDepth + 1) us)) := reads_prefixes ht us (Nat.zero_add _)
  have hr := Reads.expression (.leftFails (.leftFails (.leftFails (.leftFails hunary))))
  exact ⟨failsAfter_of_reads (p := { tokens := ts ++ us, sink }) (Nat.zero_le _) rfl hr,
    Parser.callGives_of_error (p := { tokens := ts ++ us, sink }) (Nat.zero_le _) rfl hr⟩

/-- Where the last token of all opens too much, recovery moves to the end of the list, but past a token
of the end of input that stands there. -/
theorem recovery_at_end :
    let minus : Token := { kind := .minus, lexeme := "-", line := 1 }
    let last : Token := { kind := .endOfInput, lexeme := "", line := 1 }
    let ts := List.replicate 101 minus
    let p : Parser := { tokens := ts }
    let q : Parser := { tokens := ts ++ [last] }
    (∀ t ∈ ts, t.kind ≠ .endOfInput) ∧ last.kind = .endOfInput ∧ minus ∈ ts ∧
      (∃ err : ParseError, err.found = some minus ∧ p.FailsAfter ts err ∧ q.FailsAfter ts err) ∧
      p.parse.2.current = 101 ∧ q.parse.2.current = 102 := by
  intro minus last ts p q
  obtain ⟨hp, hgives⟩ := call_prefixes (t := minus) (by decide) [] {}
  rw [List.append_nil] at hp hgives
  obtain ⟨hq, hgives'⟩ := call_prefixes (t := minus) (by decide) [last] {}
  refine ⟨?_, rfl, List.mem_cons_self, ⟨_, rfl, hp, hq⟩, hgives.cursor, hgives'.cursor⟩
  intro t ht
  rw [List.eq_of_mem_replicate ht]
  decide

end Trellis
