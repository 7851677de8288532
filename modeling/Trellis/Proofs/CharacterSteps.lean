import Trellis.Proofs.Tiling

/-!
# Scanning as a program of character steps

The scan once more, this time as a program that goes from character to character with one cursor, counts
the line ends that it passes and looks two characters ahead at most; where no character is left it sees a
NUL. A step past the last character is refused, and a loop takes so many turns and no more; if they are
too few, it has no result. Neither is ruled out by the types of the programs.

* `Scanner.readPiece`, `Scanner.readAll`, `Scanner.rescan`: the programs;
* `Scanner.passed`: what a row of steps does to the cursor and the line;
* `readPiece_eq`: one turn reads the piece that the text ahead begins with;
* `rescan_eq`: **the program leaves behind what `Scanner.tokenize` does**.
-/

namespace Trellis.Scanner

/-! ## Single steps -/

/-- The characters from the cursor on. -/
def ahead (s : Scanner) : List Char := s.source.toList.drop s.pos

/-- The cursor is past the last character. -/
def isAtEnd (s : Scanner) : Bool := s.source.toList.length ≤ s.pos

/-- The character at a distance from the cursor, or NUL past the last one. -/
def peek (s : Scanner) (distance : Nat := 0) : Char :=
  s.source.toList[s.pos + distance]?.getD '\x00'

/-- Moves past the next character. -/
def advance (s : Scanner) : Option (Char × Scanner) :=
  s.source.toList[s.pos]?.map fun c => (c, { s with pos := s.pos + 1 })

/-- Moves past the next character if it is the given one. -/
def matchNext (s : Scanner) (c : Char) : Bool × Scanner :=
  if s.source.toList[s.pos]? = some c then (true, { s with pos := s.pos + 1 }) else (false, s)

/-- The characters of the source text between two offsets. -/
def slice (s : Scanner) (first last : Nat) : List Char :=
  (s.source.toList.drop first).take (last - first)

/-- Adds the token that has been read since the start of the piece. -/
def addToken (s : Scanner) (kind : TokenKind) (literal : Value := .null) : Scanner :=
  { s with
    tokens := s.tokens ++ [⟨kind, String.ofList (s.slice s.start s.pos), literal, s.startLine⟩] }

/-! ## The programs -/

/-- Takes a step as long as a condition holds, for `n - 1` turns at most. -/
def stepWhile (goOn : Scanner → Bool) (step : Scanner → Option Scanner) :
    Nat → Scanner → Option Scanner
  | 0, _ => none
  | n + 1, s => if goOn s then (step s).bind (stepWhile goOn step n) else some s

/-- Moves past the next character. -/
def skip (s : Scanner) : Option Scanner := s.advance.map (·.2)

/-- Moves past the next character, and counts it if it is a line end. -/
def skipCounting (s : Scanner) : Option Scanner :=
  (if s.peek = '\n' then { s with line := s.line + 1 } else s).skip

/-- One turn for each character, and one more, are never too few. -/
def turns (s : Scanner) : Nat := s.source.toList.length + 1

/-- Reads a string after its opening quote. -/
def readString (s : Scanner) : Option (Option LexicalError × Scanner) := do
  let s ← stepWhile (fun s => s.peek ≠ '"' && !s.isAtEnd) skipCounting s.turns s
  if s.isAtEnd then some (some ⟨.unclosedString, s.line⟩, s)
  else
    let (_, s) ← s.advance
    some (none, s.addToken .string (.text (String.ofList (s.slice (s.start + 1) (s.pos - 1)))))

/-- Moves past the digits ahead. -/
def skipDigits (s : Scanner) : Option Scanner := stepWhile (fun s => isDigit s.peek) skip s.turns s

/-- Moves past a point and the digits behind it, if there is a digit behind it. -/
def skipFraction (s : Scanner) : Option Scanner :=
  if s.peek = '.' ∧ isDigit (s.peek 1) then do
    let (_, s) ← s.advance
    s.skipDigits
  else some s

/-- Reads a number after its first digit. -/
def readNumber (s : Scanner) : Option (Option LexicalError × Scanner) := do
  let s ← s.skipDigits
  let s ← s.skipFraction
  let value ← Number.ofText? (String.ofList (s.slice s.start s.pos))
  some (none, s.addToken .number (.number value))

/-- Reads a word after its first letter. -/
def readWord (s : Scanner) : Option (Option LexicalError × Scanner) := do
  let s ← stepWhile (fun s => isWordChar s.peek) skip s.turns s
  some (none, s.addToken (kindOfWord (s.slice s.start s.pos)))

/-- Reads the rest of a piece after its first character. It may stop with an error, and then the
scanner stands where the error arose. -/
def readAfter (c : Char) (s : Scanner) : Option (Option LexicalError × Scanner) :=
  match punctuation.lookup c, operators.lookup c with
  | some kind, _ => some (none, s.addToken kind)
  | none, some (single, double) =>
    let (matched, s) := s.matchNext '='
    some (none, s.addToken (if matched then double else single))
  | none, none =>
    if c = '/' then
      let (matched, s) := s.matchNext '/'
      if matched then do
        let s ← stepWhile (fun s => s.peek ≠ '\n' && !s.isAtEnd) skip s.turns s
        some (none, s)
      else some (none, s.addToken .slash)
    else if c = ' ' ∨ c = '\r' ∨ c = '\t' then some (none, s)
    else if c = '\n' then some (none, { s with line := s.line + 1 })
    else if c = '"' then s.readString
    else if isDigit c then s.readNumber
    else if isLetter c then s.readWord
    else some (some ⟨.strayCharacter c, s.line⟩, s)

/-- Reads one piece. -/
def readPiece (s : Scanner) : Option (Option LexicalError × Scanner) := do
  let (c, s) ← s.advance
  s.readAfter c

/-- Records and reports an error, if there is one. -/
def record (s : Scanner) : Option LexicalError → Scanner
  | none => s
  | some e => { s with errors := s.errors ++ [e], sink := s.sink.add e.diagnostic }

/-- Reads pieces up to the end of the text. -/
def readAll : Nat → Scanner → Option Scanner
  | 0, _ => none
  | n + 1, s =>
    if s.isAtEnd then some s
    else do
      let (error, s) ← { s with start := s.pos, startLine := s.line }.readPiece
      readAll n (s.record error)

/-- Scans the source text, whatever an earlier scan has left behind. -/
def rescan (s : Scanner) : Option Scanner := do
  let s ← readAll s.turns { s with start := 0, pos := 0, line := 1, tokens := [], errors := [] }
  let s := { s with tokens := s.tokens ++ [endToken s.line] }
  some { s with
    sink := s.sink.trace "crumble.lexer.lexer"
      ("scanned " ++ toString s.tokens.length ++ " tokens with " ++ toString s.errors.length
        ++ " errors") }

/-! ## Moving along the text -/

/-- The scanner after it has moved past some characters and counted the line ends among them. -/
def passed (s : Scanner) (w : List Char) : Scanner :=
  { s with pos := s.pos + w.length, line := s.line + w.count '\n' }

variable {s : Scanner} {c : Char} {w v cs after : List Char} {n : Nat}

@[simp] theorem passed_nil (s : Scanner) : s.passed [] = s := rfl

theorem passed_append (s : Scanner) (w v : List Char) : s.passed (w ++ v) = (s.passed w).passed v := by
  simp [passed, Nat.add_assoc]

theorem passed_cons (s : Scanner) (c : Char) (w : List Char) :
    s.passed (c :: w) = (s.passed [c]).passed w :=
  s.passed_append [c] w

theorem passed_character (s : Scanner) (hc : c ≠ '\n') :
    s.passed [c] = { s with pos := s.pos + 1 } := by
  simp [passed, hc]

theorem ahead_passed (h : s.ahead = w ++ after) : (s.passed w).ahead = after := by
  unfold ahead at h ⊢
  rw [passed, ← List.drop_drop, h, List.drop_left]

theorem peek_eq (s : Scanner) (distance : Nat) : s.peek distance = s.ahead[distance]?.getD '\x00' := by
  rw [peek, ahead, List.getElem?_drop]

theorem isAtEnd_eq (s : Scanner) : s.isAtEnd = s.ahead.isEmpty := by
  rw [Bool.eq_iff_iff, List.isEmpty_iff]
  simp [isAtEnd, ahead]

theorem getElem?_pos (s : Scanner) : s.source.toList[s.pos]? = s.ahead.head? := by
  rw [ahead, List.head?_drop]

theorem advance_eq (h : s.ahead = c :: cs) : s.advance = some (c, { s with pos := s.pos + 1 }) := by
  rw [advance, getElem?_pos, h]
  rfl

theorem matchNext_eq (h : s.ahead = c :: cs) (hc : c ≠ '\n') :
    s.matchNext c = (true, s.passed [c]) := by
  rw [matchNext, getElem?_pos, h, passed_character s hc]
  exact if_pos rfl

theorem matchNext_of_ne (h : s.ahead.head? ≠ some c) : s.matchNext c = (false, s) := by
  rw [matchNext, getElem?_pos, if_neg h]

theorem length_ahead_lt (s : Scanner) : s.ahead.length < s.turns := by
  simp only [ahead, turns, List.length_drop]
  omega

theorem skip_eq (h : s.ahead = c :: cs) (hc : c ≠ '\n') : s.skip = some (s.passed [c]) := by
  rw [skip, advance_eq h, passed_character s hc]
  rfl

theorem skipCounting_eq (h : s.ahead = c :: cs) : s.skipCounting = some (s.passed [c]) := by
  have hpeek : s.peek = c := by rw [peek_eq, h]; rfl
  by_cases hc : c = '\n'
  · rw [skipCounting, if_pos (hpeek.trans hc), skip,
      advance_eq (s := { s with line := s.line + 1 }) h]
    simp [passed, hc]
  · rw [skipCounting, if_neg (by rwa [hpeek]), skip_eq h hc]

/-- A loop that goes on before the characters of one sort passes the run of these that lies ahead. -/
theorem stepWhile_eq {goOn : Scanner → Bool} {step : Scanner → Option Scanner} {sort : Char → Bool}
    (hgo : ∀ s, goOn s = s.ahead.head?.any sort)
    (hstep : ∀ s c cs, s.ahead = c :: cs → sort c → step s = some (s.passed [c]))
    (hn : s.ahead.length < n) :
    stepWhile goOn step n s = some (s.passed (s.ahead.takeWhile sort)) := by
  induction n generalizing s with
  | zero => omega
  | succ n ih =>
    rw [stepWhile, hgo]
    cases h : s.ahead with
    | nil => rfl
    | cons c cs =>
      by_cases hc : sort c
      · have hcs : (s.passed [c]).ahead = cs := ahead_passed (w := [c]) h
        have hrest := ih (s := s.passed [c]) (by rw [hcs]; rw [h] at hn; simpa using hn)
        rw [hcs] at hrest
        rw [List.takeWhile_cons_of_pos hc, passed_cons, ← hrest, hstep s c cs h hc]
        simp [hc]
      · simp [hc]

/-- At the end of the text, a NUL is seen, which is of none of the sorts that a piece goes on with. -/
theorem sort_peek {sort : Char → Bool} (hnul : sort '\x00' = false) (s : Scanner) :
    sort s.peek = s.ahead.head?.any sort := by
  rw [peek_eq]
  cases s.ahead with
  | nil => exact hnul
  | cons c cs => rfl

/-- A NUL in the text stops nothing, since the end of the text is told apart from it. -/
theorem before_peek (stop : Char) (s : Scanner) :
    (s.peek ≠ stop && !s.isAtEnd) = s.ahead.head?.any (· ≠ stop) := by
  rw [peek_eq, isAtEnd_eq]
  cases s.ahead with
  | nil => simp
  | cons c cs => simp

/-- A loop over characters of one sort, which are no line ends. -/
theorem skipRun_eq {sort : Char → Bool} (hnul : sort '\x00' = false) (hline : sort '\n' = false)
    (hn : s.ahead.length < n) :
    stepWhile (fun s => sort s.peek) skip n s = some (s.passed (s.ahead.takeWhile sort)) := by
  refine stepWhile_eq (sort_peek hnul) ?_ hn
  intro s c cs h hc
  refine skip_eq h ?_
  rintro rfl
  rw [hline] at hc
  cases hc

/-! ## One piece -/

theorem slice_eq {first last : Nat} (h : s.source.toList.drop first = w ++ after)
    (hlast : last = first + w.length) : s.slice first last = w := by
  rw [slice, h, hlast, Nat.add_sub_cancel_left, List.take_left]

/-- A piece has just begun. -/
structure Begins (s : Scanner) : Prop where
  start : s.start = s.pos
  startLine : s.startLine = s.line

/-- The scanner after a piece that has been read to its end. -/
def piecePassed (s : Scanner) (p : Piece) : Scanner :=
  { s.passed p.text with tokens := s.tokens ++ (Placed.token? ⟨p, s.pos, s.line⟩).toList }

theorem Begins.slice_passed (hb : s.Begins) (h : s.ahead = w ++ after) :
    (s.passed w).slice s.start (s.passed w).pos = w := by
  have hdrop : s.source.toList.drop s.start = w ++ after := by
    rw [hb.start]
    exact h
  refine slice_eq hdrop ?_
  rw [hb.start]
  rfl

theorem Begins.addToken_passed (hb : s.Begins) (h : s.ahead = w ++ after) (k : TokenKind) (v : Value) :
    (s.passed w).addToken k v =
      { s.passed w with tokens := s.tokens ++ [⟨k, String.ofList w, v, s.line⟩] } := by
  have hstart : (s.passed w).start = s.start := rfl
  have hline : (s.passed w).startLine = s.line := hb.startLine
  simp only [addToken, hstart, hline, hb.slice_passed h]
  rfl

theorem length_passed_lt (s : Scanner) (w : List Char) : (s.passed w).ahead.length < s.turns :=
  length_ahead_lt _

/-- What is added as a token is a piece of the token's form. -/
theorem Begins.addToken_eq (hb : s.Begins) {k : TokenKind} {v : Value} (h : s.ahead = w ++ after)
    (hl : Lexeme w k v) : (s.passed w).addToken k v = s.piecePassed ⟨.token k, w⟩ := by
  rw [hb.addToken_passed h, piecePassed, Placed.token?, literal_of_lexeme hl]
  rfl

/-- A piece that is no token only moves the scanner. -/
theorem piecePassed_eq {p : Piece} (h : Placed.token? ⟨p, s.pos, s.line⟩ = none) :
    s.piecePassed p = s.passed p.text := by
  simp [piecePassed, passed, h]

/-! ### Strings, numbers and words -/

theorem readString_eq (hb : s.Begins) (h : s.ahead = '"' :: cs) :
    (s.passed ['"']).readString =
      match stringTail? cs with
      | some (tail, _) => some (none, s.piecePassed ⟨.token .string, '"' :: tail⟩)
      | none => some (some ⟨.unclosedString, (s.passed ('"' :: cs)).line⟩, s.passed ('"' :: cs)) := by
  have hcs : (s.passed ['"']).ahead = cs := ahead_passed (w := ['"']) h
  have hloop := stepWhile_eq (before_peek '"') (fun s c cs h _ => skipCounting_eq h)
    (s.length_passed_lt ['"'])
  rw [hcs, ← passed_append] at hloop
  have hturns : (s.passed ['"']).turns = s.turns := rfl
  rw [readString, hturns, hloop, Option.bind_eq_bind, Option.bind_some, isAtEnd_eq]
  rcases stringTail?_cases cs with ⟨hq, hs⟩ | ⟨body, rest, hq, rfl, hs⟩
  · have hall : cs.takeWhile (· ≠ '"') = cs := takeWhile_all (all_ne_of_not_mem hq)
    have hend : (s.passed ('"' :: cs)).ahead = [] := ahead_passed (by simpa using h)
    rw [hall, List.singleton_append, hend, hs]
    rfl
  · have hbody : (body ++ '"' :: rest).takeWhile (· ≠ '"') = body :=
      takeWhile_stop (all_ne_of_not_mem hq) _ (by simp)
    have hend : (s.passed ('"' :: body)).ahead = '"' :: rest := ahead_passed (by simpa using h)
    have hmoved : { s.passed ('"' :: body) with pos := (s.passed ('"' :: body)).pos + 1 } =
        s.passed ('"' :: (body ++ ['"'])) := by
      rw [← passed_character _ (c := '"') (by decide), ← passed_append]
      rfl
    have hslice : (s.passed ('"' :: (body ++ ['"']))).slice (s.start + 1)
        ((s.passed ('"' :: (body ++ ['"']))).pos - 1) = body := by
      have hdrop : s.source.toList.drop (s.start + 1) = body ++ '"' :: rest := by
        rw [hb.start]
        exact hcs
      refine slice_eq hdrop ?_
      rw [hb.start]
      simp only [passed, List.length_cons, List.length_append, List.length_nil]
      omega
    rw [hbody, List.singleton_append, hend, hs, advance_eq hend, hmoved]
    simp only [List.isEmpty_cons, Bool.false_eq_true, if_false, Option.bind_eq_bind, Option.bind_some]
    have hstart : (s.passed ('"' :: (body ++ ['"']))).start = s.start := rfl
    rw [hstart, hslice]
    exact congrArg (fun s => some (none, s))
      (hb.addToken_eq (by simpa using h) (.string hq))

theorem skipDigits_eq (s : Scanner) : s.skipDigits = some (s.passed (s.ahead.takeWhile isDigit)) :=
  skipRun_eq (by decide) (by decide) s.length_ahead_lt

theorem skipFraction_eq (h : s.ahead = cs.dropWhile isDigit) :
    ∃ w, s.skipFraction = some (s.passed w) ∧ (numberTail cs).1 = cs.takeWhile isDigit ++ w := by
  rw [skipFraction, peek_eq, peek_eq, h]
  fun_cases numberTail cs
  case case1 whole d more hcs hd =>
    have hpoint : (s.passed ['.']).ahead = d :: more := ahead_passed (w := ['.']) (h.trans hcs)
    have hdigits := skipDigits_eq (s.passed ['.'])
    rw [hpoint, List.takeWhile_cons_of_pos hd, ← passed_append] at hdigits
    refine ⟨'.' :: d :: more.takeWhile isDigit, ?_, rfl⟩
    rw [advance_eq (h.trans hcs), ← passed_character s (c := '.') (by decide)]
    simpa [hcs, hd] using hdigits
  case case2 whole d more hcs hd =>
    refine ⟨[], ?_, (List.append_nil _).symm⟩
    simp [hcs, hd]
  case case3 whole hnone =>
    refine ⟨[], if_neg ?_, (List.append_nil _).symm⟩
    rintro ⟨hpoint, hdigit⟩
    -- a point that ends the text has no digit behind it
    match hcs : cs.dropWhile isDigit with
    | [] =>
      rw [hcs] at hpoint
      exact absurd hpoint (by decide)
    | [c] =>
      rw [hcs] at hdigit
      exact absurd hdigit (by simp; decide)
    | c :: d :: more =>
      rw [hcs] at hpoint
      obtain rfl : c = '.' := hpoint
      exact hnone d more hcs

theorem readNumber_eq (hb : s.Begins) (h : s.ahead = c :: cs) (hc : isDigit c) :
    (s.passed [c]).readNumber =
      some (none, s.piecePassed ⟨.token .number, c :: (numberTail cs).1⟩) := by
  have hcs : (s.passed [c]).ahead = cs := ahead_passed (w := [c]) h
  have hdigits := skipDigits_eq (s.passed [c])
  rw [hcs] at hdigits
  have hrest : ((s.passed [c]).passed (cs.takeWhile isDigit)).ahead = cs.dropWhile isDigit := by
    refine ahead_passed ?_
    rw [hcs, List.takeWhile_append_dropWhile]
  obtain ⟨w, hfraction, htail⟩ := skipFraction_eq hrest
  have hread : ((s.passed [c]).passed (cs.takeWhile isDigit)).passed w =
      s.passed (c :: (numberTail cs).1) := by
    rw [htail, ← passed_append, ← passed_append]
    rfl
  have hsplit : s.ahead = c :: (numberTail cs).1 ++ (numberTail cs).2 := by
    rw [h, List.cons_append, numberTail_append]
  have hslice := hb.slice_passed hsplit
  have hnumeral := numeral_numberTail hc cs
  rw [hread] at hfraction
  have hstart : (s.passed (c :: (numberTail cs).1)).start = s.start := rfl
  rw [readNumber, hdigits, Option.bind_eq_bind, Option.bind_some, hfraction, Option.bind_eq_bind,
    Option.bind_some, hstart, hslice, ofText?_numeral hnumeral]
  exact congrArg (fun s => some (none, s))
    (hb.addToken_eq hsplit (.number hnumeral (ofText?_numeral hnumeral)))

theorem readWord_eq (hb : s.Begins) (h : s.ahead = c :: cs) (hc : isLetter c) :
    (s.passed [c]).readWord =
      some (none, s.piecePassed ⟨.token (kindOfWord (c :: cs.takeWhile isWordChar)),
        c :: cs.takeWhile isWordChar⟩) := by
  have hcs : (s.passed [c]).ahead = cs := ahead_passed (w := [c]) h
  have hnul : isWordChar '\x00' = false := by decide
  have hloop := skipRun_eq hnul (by decide) (s.length_passed_lt [c])
  rw [hcs, ← passed_append, List.singleton_append] at hloop
  have hturns : (s.passed [c]).turns = s.turns := rfl
  have hstart : (s.passed (c :: cs.takeWhile isWordChar)).start = s.start := rfl
  have hsplit : s.ahead = c :: cs.takeWhile isWordChar ++ cs.dropWhile isWordChar := by
    rw [h, List.cons_append, List.takeWhile_append_dropWhile]
  rw [readWord, hturns, hloop, Option.bind_eq_bind, Option.bind_some, hstart,
    hb.slice_passed hsplit]
  exact congrArg (fun s => some (none, s))
    (hb.addToken_eq hsplit (.word hc (fun d => mem_takeWhile) (wordKind_iff.2 rfl)))

/-! ### The piece ahead -/

theorem readAfter_eq (hb : s.Begins) (h : s.ahead = c :: cs) (hc : c ≠ '\n') :
    (s.passed [c]).readAfter c = some (Placed.error? ⟨(Piece.read c cs).1, s.pos, s.line⟩,
      s.piecePassed (Piece.read c cs).1) := by
  have hcs : (s.passed [c]).ahead = cs := ahead_passed (w := [c]) h
  unfold readAfter
  fun_cases Piece.read c cs
  case case1 k hk =>
    simp only [hk]
    rw [hb.addToken_eq h (.punctuation (lookup_punctuation.1 hk))]
    rfl
  case case2 k k' hk hp after =>
    simp only [hk, hp, matchNext_eq hcs (by decide), if_true, ← passed_cons]
    rw [hb.addToken_eq h (.operatorEqual (lookup_operators.1 hk))]
    rfl
  case case3 k k' hk hp hno =>
    have hne : (s.passed [c]).ahead.head? ≠ some '=' := by
      rw [hcs]
      intro he
      obtain ⟨after, rfl⟩ := List.head?_eq_some_iff.1 he
      exact hno after rfl
    simp only [hk, hp, matchNext_of_ne hne, Bool.false_eq_true, if_false]
    rw [hb.addToken_eq h (.operator (lookup_operators.1 hk))]
    rfl
  case case4 ho hp hslash after =>
    subst hslash
    have hafter : ((s.passed ['/']).passed ['/']).ahead = after := ahead_passed (w := ['/']) hcs
    have hloop := stepWhile_eq (before_peek '\n') (fun s c cs h hc => skip_eq h (by simpa using hc))
      ((s.passed ['/']).length_passed_lt ['/'])
    have hturns : ((s.passed ['/']).passed ['/']).turns = (s.passed ['/']).turns := rfl
    simp only [ho, hp, matchNext_eq hcs (by decide), if_true, hturns, hloop]
    rw [hafter, ← passed_cons, ← passed_cons, piecePassed_eq rfl]
    rfl
  case case5 ho hp hslash hno =>
    subst hslash
    have hne : (s.passed ['/']).ahead.head? ≠ some '/' := by
      rw [hcs]
      intro he
      obtain ⟨after, rfl⟩ := List.head?_eq_some_iff.1 he
      exact hno after rfl
    simp only [ho, hp, matchNext_of_ne hne, if_true, Bool.false_eq_true, if_false]
    rw [hb.addToken_eq h .slash]
    rfl
  case case6 ho hp hslash hblank =>
    have hblank' : c = ' ' ∨ c = '\r' ∨ c = '\t' := by simpa [hc] using hblank
    simp only [ho, hp, hslash, hblank', if_true, if_false]
    rw [piecePassed_eq rfl]
    rfl
  case case7 ho hp hslash hblank hquote tail after htail =>
    subst hquote
    have hread := readString_eq hb h
    rw [htail] at hread
    simp only [ho, hp]
    exact hread
  case case8 ho hp hslash hblank hquote htail =>
    subst hquote
    have hread := readString_eq hb h
    rw [htail] at hread
    simp only [ho, hp]
    rw [piecePassed_eq rfl]
    exact hread
  case case9 ho hp hslash hblank hquote hdigit =>
    have hblank' : ¬ (c = ' ' ∨ c = '\r' ∨ c = '\t') := by simpa [hc] using hblank
    simp only [ho, hp, hslash, hblank', hc, hquote, hdigit, if_true, if_false]
    exact readNumber_eq hb h hdigit
  case case10 ho hp hslash hblank hquote hdigit hletter word =>
    have hblank' : ¬ (c = ' ' ∨ c = '\r' ∨ c = '\t') := by simpa [hc] using hblank
    simp only [ho, hp, hslash, hblank', hc, hquote, hdigit, hletter, if_true, if_false]
    exact readWord_eq hb h hletter
  case case11 ho hp hslash hblank hquote hdigit hletter =>
    have hblank' : ¬ (c = ' ' ∨ c = '\r' ∨ c = '\t') := by simpa [hc] using hblank
    have hline : (s.passed [c]).line = s.line := by simp [passed, hc]
    simp only [ho, hp, hslash, hblank', hc, hquote, hdigit, hletter, hline, if_false]
    rw [piecePassed_eq rfl]
    rfl

/-- One turn of the program reads the piece that the text ahead begins with. -/
theorem readPiece_eq (hb : s.Begins) (h : s.ahead = c :: cs) :
    s.readPiece = some (Placed.error? ⟨(Piece.read c cs).1, s.pos, s.line⟩,
      s.piecePassed (Piece.read c cs).1) := by
  rw [readPiece, advance_eq h, Option.bind_eq_bind, Option.bind_some]
  by_cases hc : c = '\n'
  · subst hc
    rw [read_blank (by decide), piecePassed_eq rfl]
    rfl
  · rw [← passed_character s hc]
    exact readAfter_eq hb h hc

/-! ## All pieces -/

/-- The scanner after all pieces ahead have been read. -/
def allRead (s : Scanner) : Scanner :=
  let found := place s.pos s.line (pieces s.ahead)
  { s with
    sink := s.sink.addAll ((found.filterMap Placed.error?).map LexicalError.diagnostic)
    start := (found.getLast?.map (·.offset)).getD s.start
    pos := s.pos + s.ahead.length
    line := s.line + s.ahead.count '\n'
    startLine := (found.getLast?.map (·.line)).getD s.startLine
    tokens := s.tokens ++ found.filterMap Placed.token?
    errors := s.errors ++ found.filterMap Placed.error? }

theorem record_eq (s : Scanner) (e : Option LexicalError) : s.record e =
    { s with
      errors := s.errors ++ e.toList
      sink := s.sink.addAll (e.toList.map LexicalError.diagnostic) } := by
  cases e with
  | none => simp [record, Sink.addAll]
  | some e => rfl

/-- The scanner after a turn that has read the given piece. -/
def turned (s : Scanner) (p : Piece) : Scanner :=
  ({ s with start := s.pos, startLine := s.line }.piecePassed p).record
    (Placed.error? ⟨p, s.pos, s.line⟩)

theorem turned_eq (s : Scanner) (p : Piece) : s.turned p =
    { s with
      sink := s.sink.addAll ((Placed.error? ⟨p, s.pos, s.line⟩).toList.map LexicalError.diagnostic)
      start := s.pos
      pos := s.pos + p.text.length
      line := s.line + p.newlines
      startLine := s.line
      tokens := s.tokens ++ (Placed.token? ⟨p, s.pos, s.line⟩).toList
      errors := s.errors ++ (Placed.error? ⟨p, s.pos, s.line⟩).toList } := by
  rw [turned, record_eq]
  rfl

theorem ahead_turned {p : Piece} (h : s.ahead = p.text ++ after) : (s.turned p).ahead = after := by
  rw [turned_eq]
  exact ahead_passed h

/-- Reading one piece and then all others reads them all. -/
theorem allRead_turned (h : s.ahead = c :: cs) : (s.turned (Piece.read c cs).1).allRead = s.allRead := by
  have hsplit : s.ahead = (Piece.read c cs).1.text ++ (Piece.read c cs).2 := by
    rw [h, Piece.read_text_append]
  have hahead := ahead_turned hsplit
  have hpieces : pieces s.ahead = (Piece.read c cs).1 :: pieces (Piece.read c cs).2 := by
    rw [h, pieces]
  simp only [allRead, hahead, hpieces, place, filterMap_cons_toList, List.map_append,
    List.getLast?_cons]
  rw [hsplit, turned_eq]
  simp only [Piece.newlines, Sink.addAll, List.foldl_append, List.length_append, List.count_append,
    List.append_assoc, Nat.add_assoc, Option.map_some, Option.getD_some]
  -- the last piece is one of those behind, or else the one just read
  cases (place _ _ (pieces (Piece.read c cs).2)).getLast? <;> rfl

theorem readAll_eq (hn : s.ahead.length < n) : readAll n s = some s.allRead := by
  generalize ht : s.ahead = text at hn
  fun_induction pieces text generalizing s n with
  | case1 =>
    cases n with
    | zero => simp at hn
    | succ n =>
      have hend : s.isAtEnd = true := by rw [isAtEnd_eq, ht]; rfl
      rw [readAll, if_pos hend]
      simp [allRead, ht, pieces, place, Sink.addAll]
  | case2 c rest ih =>
    cases n with
    | zero => simp at hn
    | succ n =>
      have hend : ¬ s.isAtEnd = true := by simp [isAtEnd_eq, ht]
      have hread := readPiece_eq (s := { s with start := s.pos, startLine := s.line }) ⟨rfl, rfl⟩ ht
      have hle := Piece.read_length_le c rest
      have hahead := ahead_turned (p := (Piece.read c rest).1)
        (ht.trans (Piece.read_text_append c rest).symm)
      rw [readAll, if_neg hend, hread, Option.bind_eq_bind, Option.bind_some, ← allRead_turned ht]
      refine ih hahead ?_
      simp only [List.length_cons] at hn
      omega

/-- **The program leaves behind what a scan does.** Whatever an earlier scan has left behind, it never
takes a step that is refused, and ends. -/
theorem rescan_eq (s : Scanner) : s.rescan = some s.tokenize := by
  let fresh : Scanner := { s with start := 0, pos := 0, line := 1, tokens := [], errors := [] }
  have hread : readAll s.turns fresh = some fresh.allRead := readAll_eq fresh.length_ahead_lt
  rw [rescan, Option.bind_eq_bind, hread, Option.bind_some]
  simp [fresh, tokenize, allRead, scan, placedPieces, ahead, lastLine, Scan.reportTo]

end Trellis.Scanner
