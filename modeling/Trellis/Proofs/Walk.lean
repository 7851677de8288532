import Trellis.Parse.Session

/-!
# Rules as programs of cursor steps

The rules, the recovery and the parse once more, this time as programs that go from token to token with
one cursor and look back at the token before it. A single step is refused where there is no token for
it. A program that calls itself may open so many calls and no more; if they are too few, it has no result.
Neither is ruled out by the programs' types.

* `Walk`: a program of cursor steps, which may stop on a misuse of the cursor or on a parse error;
* `Walk.rule`, `Walk.synchronize`, `Walk.parse`: the programs;
* `Walk.check_eq`, `Walk.matchAny_eq`, `Walk.consume_eq`: looking before a step keeps it from being
  misused.
-/

namespace Trellis

/-- Why a program of cursor steps stops early. -/
inductive Stop where
  | misuse (e : CursorError)
  | fault (e : ParseError)

/-- A program of cursor steps. -/
abbrev Walk (α : Type) := ExceptT Stop (StateT Parser Option) α

namespace Walk

variable {α β : Type}

/-! ## Single steps -/

/-- One step of the cursor. -/
def step (f : Parser → Except CursorError α × Parser) : Walk α :=
  fun p => some ((f p).1.mapError .misuse, (f p).2)

/-- Moves past the next token. -/
def advance : Walk Token := step Parser.advance

/-- Looks at the next token. -/
def peek : Walk Token := step fun p => (p.peek, p)

/-- Looks back at the token before the cursor. -/
def previous : Walk Token := step fun p => (p.previous, p)

/-- Asks whether the cursor is at the end. -/
def isAtEnd : Walk Bool := return (← get).isAtEnd

/-- Reports an error and stops. -/
def fail (e : ParseError) : Walk α := do
  modify fun p => p.reportError e
  throw (.fault e)

/-- Stops with a fault at the next token, or at the end of the list. -/
def failHere (fault : ParseFault) : Walk α := do
  let p ← get
  fail ⟨fault, p.rest.head?, (p.rest.head?.map (·.line)).getD p.endLine⟩

/-- Asks for the kind of the next token. -/
def check (kind : TokenKind) : Walk Bool := do
  if ← isAtEnd then return false
  else return (← peek).kind == kind

/-- Moves past the next token if it is of one of the given kinds. -/
def matchAny : List TokenKind → Walk Bool
  | [] => return false
  | kind :: kinds => do
    if ← check kind then
      let _ ← advance
      return true
    else matchAny kinds

/-- Moves past the next token, which has to be of the given kind. -/
def consume (kind : TokenKind) (message : String) : Walk Token := do
  if ← check kind then advance
  else failHere (.missingToken kind message)

/-- Counts one more open parenthesis or prefix operator, the token before the cursor. -/
def enter : Walk Unit := do
  modify fun p => { p with depth := p.depth + 1 }
  if (← get).depth > maxNestingDepth then
    let opening ← previous
    fail ⟨.nestedTooDeeply, some opening, opening.line⟩

/-- Counts one less. -/
def leave : Walk Unit := modify fun p => { p with depth := p.depth - 1 }

/-! ## The programs -/

/-- Stops without a result, since no further call may be opened. -/
def giveUp : Walk α := fun _ => none

/-- Reads an expression in parentheses, where nothing else is left to be read. -/
def group (expression : Walk Expr) : Walk Expr := do
  if ← matchAny [.leftParen] then
    enter
    let inner ← expression
    let _ ← consume .rightParen "Expect ')' after expression."
    leave
    return .grouping inner
  else failHere .operandExpected

mutual

/-- Reads a tree by a rule, with at most `n` calls open at once. -/
def ruleWithin : Nat → Rule → Walk Expr
  | 0, _ => giveUp
  | n + 1, .expression => ruleWithin n (.binary .equality)
  | n + 1, .binary level => do
    let left ← ruleWithin n level.operand
    chainWithin n level left
  | n + 1, .unary => do
    if ← matchAny prefixOperators then
      let operator ← previous
      enter
      let operand ← ruleWithin n .unary
      leave
      return .unary operator operand
    else ruleWithin n .primary
  | n + 1, .primary => do
    if ← matchAny [.kwFalse] then return .literal (.truth false)
    else if ← matchAny [.kwTrue] then return .literal (.truth true)
    else if ← matchAny [.kwNull] then return .literal .null
    else if ← matchAny [.number, .string] then return .literal (← previous).literal
    else group (ruleWithin n .expression)

/-- Reads operators of a level with their right operands, with at most `n` calls open at once. -/
def chainWithin : Nat → Level → Expr → Walk Expr
  | 0, _, _ => giveUp
  | n + 1, level, left => do
    if ← matchAny level.operators then
      let operator ← previous
      let right ← ruleWithin n level.operand
      chainWithin n level (.binary left operator right)
    else return left

end

/-- Reads a tree by a rule. Eight calls for each token that is left are never too few. -/
def rule (r : Rule) : Walk Expr := do ruleWithin (8 * (← get).rest.length + 8) r

/-- Moves past tokens up to a statement boundary, looking at `n` places at most. -/
def skipWithin : Nat → Walk Unit
  | 0 => giveUp
  | n + 1 => do
    if ← isAtEnd then return
    else if (← previous).kind ∈ statementEnds then return
    else if (← peek).kind ∈ statementStarts then return
    else
      let _ ← advance
      skipWithin n

/-- Moves past tokens up to a statement boundary. -/
def skip : Walk Unit := do skipWithin ((← get).rest.length + 1)

/-- Discards the next token and those up to a statement boundary. -/
def synchronize : Walk Unit := do
  let p ← get
  if p.current < p.tokens.length then
    let _ ← advance
  skip

/-- Records an error, and moves on to a statement boundary. -/
def recover (e : ParseError) : Walk Unit := do
  modify fun p => { p with
    errors := p.errors ++ [e]
    sink := p.sink.trace "crumble.parser.parser" ("parse failed: " ++ e.diagnostic.headline) }
  synchronize

/-- Reads one expression, or recovers from the error that is found. -/
def parse : Walk (Option Expr) := do
  modify fun p => { p with depth := 0 }
  tryCatch (some <$> rule .expression) fun
    | .misuse e => throw (.misuse e)
    | .fault e => do
      recover e
      return none

end Walk

variable {p q : Parser} {t : Token}

namespace Parser

theorem check_of_isAtEnd (h : p.isAtEnd = true) (kind : TokenKind) : p.check kind = false := by
  unfold isAtEnd at h
  unfold check
  split at h <;> simp_all

theorem peek_of_not_isAtEnd (h : ¬ p.isAtEnd = true) :
    ∃ t us, p.rest = t :: us ∧ p.peek = .ok t ∧ ∀ kind, p.check kind = (t.kind == kind) := by
  cases hr : p.rest with
  | nil => simp [isAtEnd, hr] at h
  | cons t us =>
    have ht : t.kind ≠ .endOfInput := by simpa [isAtEnd, hr] using h
    exact ⟨t, us, rfl, by simp [peek, hr], fun kind => by simp [check, hr, ht]⟩

end Parser

namespace Walk

variable {α β : Type} {x : Walk α} {f : α → Walk β} {a : α} {s : Stop} {kind : TokenKind}
  {kinds : List TokenKind}

/-! ## One step after another -/

theorem bind_of_ok (h : x p = some (.ok a, q)) : (x >>= f) p = f a q := by
  simp [bind, ExceptT.bind, ExceptT.mk, StateT.bind, ExceptT.bindCont, h]

theorem bind_of_error (h : x p = some (.error s, q)) : (x >>= f) p = some (.error s, q) := by
  simp only [bind, ExceptT.bind, ExceptT.mk, StateT.bind, h, Option.bind_some]
  rfl

theorem map_of_ok (h : x p = some (.ok a, q)) (f : α → β) : (f <$> x) p = some (.ok (f a), q) := by
  rw [map_eq_pure_bind, bind_of_ok h]
  rfl

theorem map_of_error (h : x p = some (.error s, q)) (f : α → β) :
    (f <$> x) p = some (.error s, q) := by
  rw [map_eq_pure_bind, bind_of_error h]

theorem map_mapError {ε : Type} {o : Except ε α} {g : ε → Stop}
    (h : x p = some (o.mapError g, q)) (f : α → β) :
    (f <$> x) p = some ((o.map f).mapError g, q) := by
  cases o with
  | ok a => exact map_of_ok h f
  | error e => exact map_of_error h f

theorem tryCatch_of_ok {y : Stop → Walk α} (h : x p = some (.ok a, q)) :
    tryCatch x y p = some (.ok a, q) := by
  simp only [tryCatch, tryCatchThe, MonadExceptOf.tryCatch, ExceptT.tryCatch, ExceptT.mk, bind,
    StateT.bind, h, Option.bind_some]
  rfl

theorem tryCatch_of_error {y : Stop → Walk α} (h : x p = some (.error s, q)) :
    tryCatch x y p = y s q := by
  simp [tryCatch, tryCatchThe, MonadExceptOf.tryCatch, ExceptT.tryCatch, ExceptT.mk, bind,
    StateT.bind, h]

theorem get_bind (f : Parser → Walk β) (p : Parser) : ((get : Walk Parser) >>= f) p = f p p := rfl

theorem modify_bind (g : Parser → Parser) (f : Unit → Walk β) (p : Parser) :
    ((modify g : Walk Unit) >>= f) p = f () (g p) := rfl

/-! ## What the single steps do -/

theorem step_of_ok {f : Parser → Except CursorError α × Parser} (h : f p = (.ok a, q)) :
    step f p = some (.ok a, q) := by
  rw [step, h]
  rfl

theorem isAtEnd_eq (p : Parser) : isAtEnd p = some (.ok p.isAtEnd, p) := rfl

theorem peek_eq (h : p.peek = .ok t) : peek p = some (.ok t, p) :=
  step_of_ok (by rw [h])

theorem check_eq (kind : TokenKind) (p : Parser) : check kind p = some (.ok (p.check kind), p) := by
  rw [check, bind_of_ok (isAtEnd_eq p)]
  by_cases hend : p.isAtEnd = true
  · rw [if_pos hend, Parser.check_of_isAtEnd hend]
    rfl
  · obtain ⟨t, us, -, hpeek, hcheck⟩ := Parser.peek_of_not_isAtEnd hend
    rw [if_neg hend, bind_of_ok (peek_eq hpeek), hcheck]
    rfl

theorem advance_of_check (h : p.check kind = true) :
    ∃ t us, p.rest = t :: us ∧ advance p = some (.ok t, { p with current := p.current + 1 }) := by
  cases hr : p.rest with
  | nil => simp [Parser.check, hr] at h
  | cons t us => exact ⟨t, us, rfl, step_of_ok (by rw [Parser.advance, hr])⟩

theorem matchAny_eq (kinds : List TokenKind) (p : Parser) :
    matchAny kinds p = some (.ok (p.matchAny kinds).1, (p.matchAny kinds).2) := by
  induction kinds with
  | nil => rfl
  | cons kind kinds ih =>
    rw [matchAny, bind_of_ok (check_eq kind p)]
    by_cases hk : p.check kind = true
    · obtain ⟨t, us, -, hadvance⟩ := advance_of_check hk
      rw [if_pos hk, bind_of_ok hadvance]
      simp only [Parser.matchAny, List.any_cons, hk, Bool.true_or, if_true]
      rfl
    · rw [if_neg hk, ih]
      simp only [Parser.matchAny, List.any_cons, hk, Bool.false_or]

theorem consume_eq (kind : TokenKind) (message : String) (p : Parser) : consume kind message p =
    some ((p.consume kind message).1.mapError .fault, (p.consume kind message).2) := by
  rw [consume, bind_of_ok (check_eq kind p)]
  by_cases hk : p.check kind = true
  · obtain ⟨t, us, hr, hadvance⟩ := advance_of_check hk
    rw [if_pos hk, hadvance, Parser.consume, hr]
    simp only [hk, if_true]
    rfl
  · rw [if_neg hk, Parser.consume]
    cases hr : p.rest with
    | nil =>
      rw [failHere, get_bind, hr]
      rfl
    | cons t us =>
      rw [failHere, get_bind, hr]
      simp only [hk]
      rfl

end Walk

end Trellis
