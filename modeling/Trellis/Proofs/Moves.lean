import Trellis.Proofs.Progress
import Trellis.Proofs.Remaining
import Trellis.Proofs.WalkReading

/-!
# Sessions with one parser

A session makes moves with one parser in any order: whole parse calls, single rules, the small steps of
the cursor, and changes of the cursor, the tokens or the sink. The cursor never leaves the list of
tokens. It is misused only where there is no token for a step, and no larger move ever misuses it. A
move that is refused leaves the cursor where it is, a fault is reported once, and one error is recorded
for each parse call without a tree.

* `Parser.perform`: what a move gives, and the parser afterwards; `Walk.perform`: the same move in steps
  of the cursor;
* `Parser.Does`: all that a move can do; `Parser.Contained`: what every move keeps to;
* `session_contained`: **every move of every session keeps to it**.
-/

namespace Trellis

/-- What can be done with a parser. -/
inductive Move where
  | parse
  | rule (r : Rule)
  | advance
  | peek
  | previous
  | isAtEnd
  | check (kind : TokenKind)
  | matchAny (kinds : List TokenKind)
  | consume (kind : TokenKind) (message : String)
  | synchronize
  | setCurrent (current : Nat)
  | setTokens (tokens : List Token)
  | resetSink

/-- What a move gives if it is not stopped. -/
inductive Answer where
  | done
  | truth (b : Bool)
  | token (t : Token)
  | tree (e : Expr)
  | parsed (e : Option Expr)

/-- The answer to a move, or what stopped it, and the parser afterwards. -/
def Parser.perform (p : Parser) : Move → Except Stop Answer × Parser
  | .parse => (.ok (.parsed p.parse.1), p.parse.2)
  | .rule r => (((p.runRule r).1.map .tree).mapError .fault, (p.runRule r).2)
  | .advance => ((p.advance.1.map .token).mapError .misuse, p.advance.2)
  | .peek => ((p.peek.map .token).mapError .misuse, p)
  | .previous => ((p.previous.map .token).mapError .misuse, p)
  | .isAtEnd => (.ok (.truth p.isAtEnd), p)
  | .check kind => (.ok (.truth (p.check kind)), p)
  | .matchAny kinds => (.ok (.truth (p.matchAny kinds).1), (p.matchAny kinds).2)
  | .consume kind message =>
    (((p.consume kind message).1.map .token).mapError .fault, (p.consume kind message).2)
  | .synchronize => (.ok .done, p.synchronize)
  | .setCurrent current => (.ok .done, p.setCurrent current)
  | .setTokens tokens => (.ok .done, p.setTokens tokens)
  | .resetSink => (.ok .done, p.resetSink)

/-- A move as a program of cursor steps. -/
def Walk.perform : Move → Walk Answer
  | .parse => .parsed <$> parse
  | .rule r => .tree <$> rule r
  | .advance => .token <$> advance
  | .peek => .token <$> peek
  | .previous => .token <$> previous
  | .isAtEnd => .truth <$> isAtEnd
  | .check kind => .truth <$> check kind
  | .matchAny kinds => .truth <$> matchAny kinds
  | .consume kind message => .token <$> consume kind message
  | .synchronize => (fun _ => .done) <$> synchronize
  | .setCurrent current => do modify (·.setCurrent current); return .done
  | .setTokens tokens => do modify (·.setTokens tokens); return .done
  | .resetSink => do modify Parser.resetSink; return .done

namespace Parser

/-- The cursor is put before a token, or behind the last one. -/
def Allows (p : Parser) : Move → Prop
  | .setCurrent current => current ≤ p.tokens.length
  | _ => True

/-- A step of the cursor where there is no token for it. -/
inductive Misuse (p : Parser) : Move → CursorError → Prop
  | advance (h : p.current = p.tokens.length) : Misuse p .advance .advanceAtEnd
  | peek (h : p.current = p.tokens.length) : Misuse p .peek .peekAtEnd
  | previous (h : p.current = 0) : Misuse p .previous .previousAtStart

/-- A move that was refused: one that misused the cursor, or a token that was not as required. -/
inductive Refused : Move → Except Stop Answer → Prop
  | misuse {m : Move} {e : CursorError} : Refused m (.error (.misuse e))
  | consume {kind : TokenKind} {message : String} {e : ParseError} :
      Refused (.consume kind message) (.error (.fault e))
  | matchAny {kinds : List TokenKind} : Refused (.matchAny kinds) (.ok (.truth false))

end Parser

/-- A parse that gave no tree. -/
def failedParse : Move × Except Stop Answer → Bool
  | (.parse, .ok (.parsed none)) => true
  | _ => false

/-- Moves made one after another with a parser, each with its answer, and the parser afterwards. -/
inductive Session (start : Parser) : List (Move × Except Stop Answer) → Parser → Prop
  | start : Session start [] start
  | move {log : List (Move × Except Stop Answer)} {p : Parser} (h : Session start log p) (m : Move)
      (allowed : p.Allows m) : Session start (log ++ [(m, (p.perform m).1)]) (p.perform m).2

/-- What a move keeps to: where the cursor ends, when it is misused, and what a failure changes. -/
structure Parser.Contained (p : Parser) (m : Move) : Prop where
  /-- It ends and does the same when carried out in steps of the cursor. -/
  stepwise : Walk.perform m p = some (p.perform m)
  bounded : (p.perform m).2.current ≤ (p.perform m).2.tokens.length
  misused : ∀ e, (p.perform m).1 = .error (.misuse e) ↔ p.Misuse m e
  unmoved : Refused m (p.perform m).1 → (p.perform m).2.current = p.current
  reported : ∀ e, (p.perform m).1 = .error (.fault e) →
    (p.perform m).2.sink.diagnostics = p.sink.diagnostics ++ [e.diagnostic] ∧
      (p.perform m).2.errors = p.errors
  recorded : (p.perform m).2.errors.length =
    p.errors.length + if failedParse (m, (p.perform m).1) then 1 else 0

variable {p q : Parser} {m : Move}

/-! ## One move -/

namespace Walk

/-- With the cursor in bounds, every move can be carried out in steps of the cursor. -/
theorem perform_eq (hc : p.current ≤ p.tokens.length) (m : Move) :
    perform m p = some (p.perform m) := by
  cases m with
  | parse => exact map_of_ok (parse_eq hc) _
  | rule r => exact map_mapError (rule_eq r hc) _
  | advance => exact map_mapError rfl _
  | peek => exact map_mapError rfl _
  | previous => exact map_mapError rfl _
  | isAtEnd => exact map_of_ok (isAtEnd_eq p) _
  | check kind => exact map_of_ok (check_eq kind p) _
  | matchAny kinds => exact map_of_ok (matchAny_eq kinds p) _
  | consume kind message => exact map_mapError (consume_eq kind message p) _
  | synchronize => exact map_of_ok (synchronize_eq hc) _
  | setCurrent | setTokens | resetSink => rfl

end Walk

namespace Parser

/-- All that a move can do, with its answer and the parser afterwards. -/
inductive Does (p : Parser) : Move → Except Stop Answer → Parser → Prop
  | parse {tree : Option Expr} {k : Nat} {errs : List ParseError} (gives : p.CallGives tree k errs)
      (within : p.current + k ≤ p.tokens.length) : Does p .parse (.ok (.parsed tree)) p.parse.2
  | rule {r : Rule} {e : Expr} {left : Nat} :
      Does p (.rule r) (.ok (.tree e)) { p with current := p.tokens.length - left }
  | ruleFails {r : Rule} {e : ParseError} {left depth : Nat} : Does p (.rule r) (.error (.fault e))
      ({ p with current := p.tokens.length - left, depth }.reportError e)
  | advance {t : Token} (h : p.current < p.tokens.length) :
      Does p .advance (.ok (.token t)) { p with current := p.current + 1 }
  | noAdvance (h : p.current = p.tokens.length) :
      Does p .advance (.error (.misuse .advanceAtEnd)) p
  | peek {t : Token} (h : p.current < p.tokens.length) : Does p .peek (.ok (.token t)) p
  | noPeek (h : p.current = p.tokens.length) : Does p .peek (.error (.misuse .peekAtEnd)) p
  | previous {t : Token} (h : 0 < p.current) : Does p .previous (.ok (.token t)) p
  | noPrevious (h : p.current = 0) : Does p .previous (.error (.misuse .previousAtStart)) p
  | isAtEnd {b : Bool} : Does p .isAtEnd (.ok (.truth b)) p
  | check {kind : TokenKind} {b : Bool} : Does p (.check kind) (.ok (.truth b)) p
  | matchAny {kinds : List TokenKind} (h : p.current < p.tokens.length) :
      Does p (.matchAny kinds) (.ok (.truth true)) { p with current := p.current + 1 }
  | noMatch {kinds : List TokenKind} : Does p (.matchAny kinds) (.ok (.truth false)) p
  | consume {kind : TokenKind} {message : String} {t : Token} (h : p.current < p.tokens.length) :
      Does p (.consume kind message) (.ok (.token t)) { p with current := p.current + 1 }
  | noToken {kind : TokenKind} {message : String} {e : ParseError} :
      Does p (.consume kind message) (.error (.fault e)) (p.reportError e)
  | synchronize {k : Nat} (within : p.current + k ≤ p.tokens.length) :
      Does p .synchronize (.ok .done) { p with current := p.current + k }
  | setCurrent {current : Nat} (within : current ≤ p.tokens.length) :
      Does p (.setCurrent current) (.ok .done) (p.setCurrent current)
  | setTokens {tokens : List Token} : Does p (.setTokens tokens) (.ok .done) (p.setTokens tokens)
  | resetSink : Does p .resetSink (.ok .done) p.resetSink

variable {a : Except Stop Answer} {kind : TokenKind}

theorem current_eq_of_rest_eq_nil (hc : p.current ≤ p.tokens.length) (h : p.rest = []) :
    p.current = p.tokens.length := by
  have hlen := p.length_rest
  rw [h, List.length_nil] at hlen
  omega

theorem current_lt_of_rest_eq_cons {t : Token} {us : List Token} (h : p.rest = t :: us) :
    p.current < p.tokens.length :=
  current_lt_of_rest_ne_nil (by simp [h])

theorem current_lt_of_check (h : p.check kind = true) : p.current < p.tokens.length := by
  apply current_lt_of_rest_ne_nil
  intro hr
  simp [check, hr] at h

theorem does_parse (hc : p.current ≤ p.tokens.length) :
    p.Does .parse (.ok (.parsed p.parse.1)) p.parse.2 := by
  obtain ⟨tree, k, errs, hgives, hle, -⟩ := call_passes hc
  rw [hgives.tree]
  exact .parse hgives hle

theorem does_rule (p : Parser) (r : Rule) :
    p.Does (.rule r) (p.perform (.rule r)).1 (p.perform (.rule r)).2 := by
  simp only [perform, runRule]
  cases Rule.parse p.endLine r p.depth p.rest with
  | ok parsed => exact .rule
  | error f => exact .ruleFails

theorem does_advance (hc : p.current ≤ p.tokens.length) :
    p.Does .advance (p.perform .advance).1 (p.perform .advance).2 := by
  unfold perform advance
  cases hr : p.rest with
  | nil => exact .noAdvance (current_eq_of_rest_eq_nil hc hr)
  | cons t us => exact .advance (current_lt_of_rest_eq_cons hr)

theorem does_peek (hc : p.current ≤ p.tokens.length) :
    p.Does .peek (p.perform .peek).1 (p.perform .peek).2 := by
  unfold perform peek
  cases hr : p.rest with
  | nil => exact .noPeek (current_eq_of_rest_eq_nil hc hr)
  | cons t us => exact .peek (current_lt_of_rest_eq_cons hr)

theorem does_previous (hc : p.current ≤ p.tokens.length) :
    p.Does .previous (p.perform .previous).1 (p.perform .previous).2 := by
  have hlen : (p.tokens.take p.current).length = p.current := List.length_take_of_le hc
  unfold perform previous
  cases hr : (p.tokens.take p.current).getLast? with
  | none =>
    rw [List.getLast?_eq_none_iff.1 hr] at hlen
    exact .noPrevious hlen.symm
  | some t =>
    refine .previous ?_
    rw [← hlen]
    exact List.length_pos_of_mem (List.mem_of_getLast? hr)

theorem does_matchAny (p : Parser) (kinds : List TokenKind) :
    p.Does (.matchAny kinds) (p.perform (.matchAny kinds)).1 (p.perform (.matchAny kinds)).2 := by
  simp only [perform, matchAny]
  by_cases h : kinds.any p.check
  · obtain ⟨kind, -, hk⟩ := List.any_eq_true.1 h
    rw [if_pos h]
    exact .matchAny (current_lt_of_check hk)
  · rw [if_neg h]
    exact .noMatch

theorem does_consume (p : Parser) (kind : TokenKind) (message : String) :
    p.Does (.consume kind message) (p.perform (.consume kind message)).1
      (p.perform (.consume kind message)).2 := by
  simp only [perform, consume]
  cases p.rest with
  | nil => exact .noToken
  | cons t us =>
    by_cases h : p.check kind
    · simp only [if_pos h]
      exact .consume (current_lt_of_check h)
    · simp only [if_neg h]
      exact .noToken

theorem does_synchronize (hc : p.current ≤ p.tokens.length) :
    p.Does .synchronize (.ok .done) p.synchronize := by
  have hle := discarded_le p.rest
  rw [length_rest] at hle
  rw [synchronize_eq]
  exact .synchronize (by omega)

theorem does_perform (hc : p.current ≤ p.tokens.length) (allowed : p.Allows m) :
    p.Does m (p.perform m).1 (p.perform m).2 := by
  cases m with
  | parse => exact does_parse hc
  | rule r => exact p.does_rule r
  | advance => exact does_advance hc
  | peek => exact does_peek hc
  | previous => exact does_previous hc
  | isAtEnd => exact .isAtEnd
  | check kind => exact .check
  | matchAny kinds => exact p.does_matchAny kinds
  | consume kind message => exact p.does_consume kind message
  | synchronize => exact does_synchronize hc
  | setCurrent current => exact .setCurrent allowed
  | setTokens tokens => exact .setTokens
  | resetSink => exact .resetSink

theorem Does.bounded (hc : p.current ≤ p.tokens.length) (h : p.Does m a q) :
    q.current ≤ q.tokens.length := by
  cases h with
  | parse gives within =>
    rw [gives.cursor, gives.tokens]
    exact within
  | rule | ruleFails => exact Nat.sub_le _ _
  | advance hlt | matchAny hlt | consume hlt => exact hlt
  | synchronize within | setCurrent within => exact within
  | setTokens => exact Nat.zero_le _
  | _ => exact hc

/-- The cursor is misused where there is no token for a step, and nowhere else. -/
theorem Does.misuse_iff (h : p.Does m a q) (e : CursorError) :
    a = .error (.misuse e) ↔ p.Misuse m e := by
  constructor
  · rintro rfl
    cases h with
    | noAdvance hend => exact .advance hend
    | noPeek hend => exact .peek hend
    | noPrevious hstart => exact .previous hstart
  · intro hm
    cases hm with
    | advance hend =>
      cases h with
      | advance hlt => exact absurd hend (Nat.ne_of_lt hlt)
      | noAdvance => rfl
    | peek hend =>
      cases h with
      | peek hlt => exact absurd hend (Nat.ne_of_lt hlt)
      | noPeek => rfl
    | previous hstart =>
      cases h with
      | previous hpos => exact absurd hstart (Nat.ne_of_gt hpos)
      | noPrevious => rfl

theorem Does.unmoved (h : p.Does m a q) (hr : Refused m a) : q.current = p.current := by
  cases hr with
  | misuse => cases h <;> rfl
  | consume => cases h with | noToken => rfl
  | matchAny => cases h with | noMatch => rfl

/-- A fault is reported once, and not recorded. -/
theorem Does.reported {e : ParseError} (h : p.Does m (.error (.fault e)) q) :
    q.sink.diagnostics = p.sink.diagnostics ++ [e.diagnostic] ∧ q.errors = p.errors := by
  cases h with
  | ruleFails | noToken => exact ⟨Sink.diagnostics_add _ _, rfl⟩

/-- A parse that gives no tree is recorded once, and nothing else is. -/
theorem Does.recorded (hc : p.current ≤ p.tokens.length) (h : p.Does m a q) :
    q.errors.length = p.errors.length + if failedParse (m, a) then 1 else 0 := by
  cases h with
  | @parse tree k errs gives =>
    rw [gives.recorded, List.length_append, gives.length_errors hc]
    cases tree <;> rfl
  | _ => rfl

/-- A move keeps to its bounds wherever the cursor is in bounds before. -/
theorem contained_of_le (hc : p.current ≤ p.tokens.length) (allowed : p.Allows m) :
    p.Contained m := by
  have hdoes := does_perform hc allowed
  constructor
  · exact Walk.perform_eq hc m
  · exact hdoes.bounded hc
  · exact hdoes.misuse_iff
  · exact hdoes.unmoved
  · intro e he
    rw [he] at hdoes
    exact hdoes.reported
  · exact hdoes.recorded hc

end Parser

/-! ## Moves one after another -/

/-- What a session keeps: the cursor is in bounds, and one error is recorded for each failed parse. -/
theorem session_invariant {start : Parser} {log : List (Move × Except Stop Answer)}
    (h : Session start log p) (hc : start.current ≤ start.tokens.length) :
    p.current ≤ p.tokens.length ∧ p.errors.length = start.errors.length + log.countP failedParse := by
  -- both at once: a move keeps to its bounds only where the cursor is in bounds before
  induction h with
  | start => exact ⟨hc, rfl⟩
  | @move log p _ m allowed ih =>
    obtain ⟨hp, herrors⟩ := ih
    have hmove := Parser.contained_of_le hp allowed
    refine ⟨hmove.bounded, ?_⟩
    rw [hmove.recorded, herrors, List.countP_append, List.countP_singleton, Nat.add_assoc]

/-- **Sessions keep the cursor in bounds, and what fails changes nothing that it should not.** After any
moves with a new parser, every further move keeps to its bounds, and the parser has recorded as many
errors as there were parse calls without a tree. -/
theorem session_contained {tokens : List Token} {sink : Sink}
    {log : List (Move × Except Stop Answer)} (h : Session { tokens, sink } log p) :
    p.current ≤ p.tokens.length ∧ p.errors.length = log.countP failedParse ∧
      ∀ m, p.Allows m → p.Contained m := by
  obtain ⟨hc, herrors⟩ := session_invariant h (Nat.zero_le _)
  refine ⟨hc, by simpa using herrors, ?_⟩
  intro m allowed
  exact Parser.contained_of_le hc allowed

/-- A closing parenthesis cannot be parsed; the cursor is misused before and after it. -/
theorem closing_between_misuses :
    let closing : Token := { kind := .rightParen, lexeme := ")", line := 1 }
    ∃ p, Session { tokens := [closing] }
        [(.previous, .error (.misuse .previousAtStart)), (.parse, .ok (.parsed none)),
         (.advance, .error (.misuse .advanceAtEnd))] p ∧
      p.current ≤ p.tokens.length ∧ p.errors.length = 1 ∧ ∀ m, p.Allows m → p.Contained m := by
  intro closing
  let start : Parser := { tokens := [closing] }
  let f := Rule.failAt .operandExpected start.endLine 0 [closing]
  have operand : Reads start.endLine (.rule .unary) 0 start.rest (.error f) :=
    .primary (by rintro t ⟨⟩; decide) (.operandExpected (by rintro t ⟨⟩; decide))
  have hfails := Reads.expression (.leftFails (.leftFails (.leftFails (.leftFails operand))))
  have hgives : start.CallGives none 1 [f.error] :=
    Parser.callGives_of_error (w := []) (Nat.zero_le _) rfl hfails
  have hrest : start.parse.2.rest = [] := hgives.rest
  have hadvance : start.parse.2.advance = (.error .advanceAtEnd, start.parse.2) := by
    rw [Parser.advance, hrest]
  have hfirst : Session start [(.previous, .error (.misuse .previousAtStart))] start :=
    Session.start.move .previous trivial
  have hsecond := hfirst.move .parse trivial
  have hthird := hsecond.move .advance trivial
  simp only [Parser.perform, hgives.tree, hadvance] at hthird
  obtain ⟨hbounded, hrecorded, hcontained⟩ := session_contained hthird
  exact ⟨_, hthird, hbounded, hrecorded, hcontained⟩

end Trellis
