import Trellis.Proofs.CharacterSteps

/-!
# Lexical errors and the modes of a text

Which errors a scan finds does not depend on how the text is cut into tokens. A machine with four modes
that goes along the characters, one at a time and without looking ahead, predicts all of them: it need
only know whether it is inside a string or a comment, or just behind a slash that may begin one.

* `Mode.next`, `Mode.after`: the machine;
* `Mode.strays`: the characters that it finds fault with;
* `predicted_read`: over one piece, the machine finds what the scan does, and is back where it was;
* `Scanner.errors_predicted`: **it predicts the errors of a scan**.
-/

namespace Trellis

/-! ## The machine -/

/-- What the machine knows of the characters behind it. -/
inductive Mode where
  | code
  /-- Behind a slash that may begin a comment. -/
  | slash
  | comment
  | string
deriving DecidableEq

/-- The characters, besides letters and digits, that source text outside strings and comments is
written with. -/
def symbols : List Char :=
  [' ', '\t', '\r', '\n', '(', ')', '{', '}', ',', '.', '-', '+', ';', '*', '!', '=', '<', '>', '/', '"']

/-- A character that source text outside strings and comments is written with. -/
def isKnown (c : Char) : Bool := isLetter c || isDigit c || c ∈ symbols

namespace Mode

/-- The mode behind a character. -/
def next : Mode → Char → Mode
  | code, '"' => string
  | code, '/' => slash
  | code, _ => code
  | slash, '"' => string
  | slash, '/' => comment
  | slash, _ => code
  | comment, '\n' => code
  | comment, _ => comment
  | string, '"' => code
  | string, _ => string

/-- The mode behind a text. -/
def after (m : Mode) (text : List Char) : Mode := text.foldl next m

/-- Outside strings and comments. -/
def reads : Mode → Bool
  | code | slash => true
  | comment | string => false

/-- The error of a character, if the machine finds fault with it. -/
def stray? (m : Mode) (line : Nat) (c : Char) : Option LexicalError :=
  if m.reads && !isKnown c then some ⟨.strayCharacter c, line⟩ else none

/-- The errors of all characters with which the machine finds fault. -/
def strays (m : Mode) (line : Nat) : List Char → List LexicalError
  | [] => []
  | c :: cs => (m.stray? line c).toList ++ (m.next c).strays (line + [c].count '\n') cs

/-- The error of a text behind which the machine is inside a string. -/
def unclosed (m : Mode) (line : Nat) (text : List Char) : List LexicalError :=
  if m.after text = string then [⟨.unclosedString, (line + text.count '\n' : Nat)⟩] else []

/-- All errors that the machine predicts. -/
def predicted (m : Mode) (line : Nat) (text : List Char) : List LexicalError :=
  m.strays line text ++ m.unclosed line text

end Mode

open Mode

variable {c : Char} {w rest : List Char} {m : Mode} {line : Nat}

/-! ## Runs of characters -/

theorem newlines_cons (c : Char) (cs : List Char) :
    (c :: cs).count '\n' = [c].count '\n' + cs.count '\n' := by
  rw [← List.count_append, List.singleton_append]

theorem predicted_cons (m : Mode) (line : Nat) (c : Char) (cs : List Char) :
    m.predicted line (c :: cs) =
      (m.stray? line c).toList ++ (m.next c).predicted (line + [c].count '\n') cs := by
  have hcount := newlines_cons c cs
  simp [predicted, strays, unclosed, Mode.after, hcount, Nat.add_assoc]

/-- Characters that leave the machine in its mode, and with which it finds no fault. -/
def Stays (m : Mode) (w : List Char) : Prop := ∀ c ∈ w, m.next c = m ∧ ∀ line, m.stray? line c = none

theorem predicted_stays (h : Stays m w) (line : Nat) (rest : List Char) :
    m.predicted line (w ++ rest) = m.predicted (line + w.count '\n') rest := by
  induction w generalizing line with
  | nil => rfl
  | cons c cs ih =>
    obtain ⟨hnext, hstray⟩ := h c List.mem_cons_self
    rw [List.cons_append, predicted_cons, hnext, hstray, ih fun d hd => h d (List.mem_cons_of_mem c hd),
      newlines_cons c cs, Nat.add_assoc]
    rfl

theorem next_code (hq : c ≠ '"') (hs : c ≠ '/') : code.next c = code := by
  unfold next
  split <;> simp_all

theorem next_slash (hs : c ≠ '/') : slash.next c = code.next c := by
  unfold next
  split <;> simp_all

theorem stays_string (h : '"' ∉ w) : Stays string w := by
  intro c hc
  refine ⟨?_, fun line => rfl⟩
  unfold next
  split <;> simp_all

theorem stays_comment (h : '\n' ∉ w) : Stays comment w := by
  intro c hc
  refine ⟨?_, fun line => rfl⟩
  unfold next
  split <;> simp_all

/-- A character of a piece that is neither a string nor begins with a slash. -/
def Plain (c : Char) : Prop := isKnown c ∧ c ≠ '"' ∧ c ≠ '/'

instance (c : Char) : Decidable (Plain c) := inferInstanceAs (Decidable (_ ∧ _ ∧ _))

theorem stays_code (h : ∀ c ∈ w, Plain c) : Stays code w := by
  intro c hc
  obtain ⟨hk, hq, hs⟩ := h c hc
  refine ⟨next_code hq hs, fun line => ?_⟩
  simp [stray?, hk]

/-- A slash that no other follows changes nothing. -/
theorem predicted_slash (h : rest.head? ≠ some '/') (line : Nat) :
    slash.predicted line rest = code.predicted line rest := by
  cases rest with
  | nil => rfl
  | cons c cs =>
    have hc : c ≠ '/' := by
      rintro rfl
      exact h rfl
    rw [predicted_cons, predicted_cons, next_slash hc]
    rfl

/-- A comment ends before a line end, or with the text. -/
theorem predicted_comment (h : '\n' ∉ w) (hr : ∀ d ∈ rest.head?, d = '\n') (line : Nat) :
    code.predicted line ('/' :: '/' :: (w ++ rest)) =
      code.predicted (line + ('/' :: '/' :: w).count '\n') rest := by
  have hend : ∀ line, comment.predicted line rest = code.predicted line rest := by
    intro line
    cases rest with
    | nil => rfl
    | cons c cs =>
      obtain rfl := hr c rfl
      rw [predicted_cons, predicted_cons]
      rfl
  have hcount : ('/' :: '/' :: w).count '\n' = w.count '\n' := by simp
  rw [predicted_cons, predicted_cons, hcount, ← hend, ← predicted_stays (stays_comment h)]
  rfl

/-- A string ends behind the next quote. -/
theorem predicted_string (h : '"' ∉ w) (line : Nat) (rest : List Char) :
    code.predicted line ('"' :: (w ++ '"' :: rest)) =
      code.predicted (line + ('"' :: (w ++ ['"'])).count '\n') rest := by
  have hcount : ('"' :: (w ++ ['"'])).count '\n' = w.count '\n' := by simp
  have hend : string.predicted (line + w.count '\n') ('"' :: rest) =
      code.predicted (line + w.count '\n') rest := predicted_cons _ _ _ _
  rw [predicted_cons, hcount, ← hend, ← predicted_stays (stays_string h)]
  rfl

/-- Without another quote, the text ends inside the string. -/
theorem predicted_unclosed (h : '"' ∉ w) (line : Nat) : code.predicted line ('"' :: w) =
    [⟨.unclosedString, (line + ('"' :: w).count '\n' : Nat)⟩] := by
  have hcount : ('"' :: w).count '\n' = w.count '\n' := by simp
  have hrun := predicted_stays (stays_string h) line []
  rw [List.append_nil] at hrun
  rw [predicted_cons, hcount]
  exact hrun

/-! ## The characters of pieces -/

theorem plain_punctuation : ∀ p ∈ punctuation, Plain p.1 := by
  simp [punctuation, Plain, isKnown, symbols]

theorem plain_operators : ∀ p ∈ operators, Plain p.1 := by
  simp [operators, Plain, isKnown, symbols]

theorem plain_blanks : ∀ c ∈ blanks, Plain c := by
  simp [blanks, Plain, isKnown, symbols]

theorem plain_word (h : isWordChar c) : Plain c := by
  refine ⟨?_, ?_, ?_⟩
  · simp only [isWordChar, Bool.or_eq_true] at h
    simp [isKnown, h]
  all_goals
    rintro rfl
    exact absurd h (by decide)

theorem plain_numeral (h : Numeral w) : ∀ c ∈ w, Plain c := by
  intro c hc
  rcases numeral_chars h c hc with hd | rfl
  · exact plain_word (by simp [isWordChar, hd])
  · decide

/-- Every symbol begins a piece. -/
theorem symbols_begin : ∀ c ∈ symbols, (punctuation.lookup c).isSome ∨ (operators.lookup c).isSome ∨
    c ∈ blanks ∨ c = '"' ∨ c = '/' := by
  simp [symbols, punctuation, operators, blanks]

/-! ## One piece -/

/-- Over the piece that a text begins with, the machine finds the error that the scan finds, and is back
in the mode `code` behind it, or as good as there. -/
theorem predicted_read (c : Char) (rest : List Char) (offset line : Nat) :
    code.predicted line (c :: rest) =
      (Placed.error? ⟨(Piece.read c rest).1, offset, line⟩).toList ++
        code.predicted (line + (Piece.read c rest).1.newlines) (Piece.read c rest).2 := by
  fun_cases Piece.read c rest
  case case1 k hk =>
    have hc := plain_punctuation _ (lookup_punctuation.1 hk)
    exact predicted_stays (w := [c]) (stays_code (by simpa using hc)) line rest
  case case2 k k' hk _ after =>
    have hc := plain_operators _ (lookup_operators.1 hk)
    have heq : Plain '=' := by decide
    exact predicted_stays (w := [c, '=']) (stays_code (by simpa [heq] using hc)) line after
  case case3 k k' hk _ _ =>
    have hc := plain_operators _ (lookup_operators.1 hk)
    exact predicted_stays (w := [c]) (stays_code (by simpa using hc)) line rest
  case case4 hc after =>
    subst hc
    have hw : '\n' ∉ after.takeWhile (· ≠ '\n') := by
      intro h
      simpa using mem_takeWhile h
    have hr : ∀ d ∈ (after.dropWhile (· ≠ '\n')).head?, d = '\n' := by
      intro d hd
      have hnot := List.head?_dropWhile_not (· ≠ '\n') after
      rw [hd] at hnot
      simpa using hnot
    have hrun := predicted_comment hw hr line
    rw [List.takeWhile_append_dropWhile] at hrun
    exact hrun
  case case5 hc hno =>
    subst hc
    have hr : rest.head? ≠ some '/' := by
      intro he
      obtain ⟨after, rfl⟩ := List.head?_eq_some_iff.1 he
      exact hno after rfl
    rw [predicted_cons]
    exact predicted_slash hr line
  case case6 hc =>
    have hb : c ∈ blanks := by simpa [blanks] using hc
    exact predicted_stays (w := [c]) (stays_code (by simpa using plain_blanks c hb)) line rest
  case case7 hc tail after h =>
    subst hc
    rcases stringTail?_cases rest with ⟨-, hn⟩ | ⟨body, after', hb, rfl, hs⟩
    · rw [h] at hn
      cases hn
    · rw [h] at hs
      cases hs
      exact predicted_string hb line _
  case case8 hc h =>
    subst hc
    rcases stringTail?_cases rest with ⟨hb, -⟩ | ⟨body, after', -, -, hs⟩
    · exact predicted_unclosed hb line
    · rw [h] at hs
      cases hs
  case case9 hc =>
    have hn := numeral_numberTail hc rest
    have hsplit : c :: rest = c :: (numberTail rest).1 ++ (numberTail rest).2 := by
      rw [List.cons_append, numberTail_append]
    rw [hsplit]
    exact predicted_stays (stays_code (plain_numeral hn)) line _
  case case10 hc word =>
    have hsplit : c :: rest = word ++ rest.dropWhile isWordChar := by
      rw [List.cons_append, List.takeWhile_append_dropWhile]
    rw [hsplit]
    refine predicted_stays (stays_code ?_) line _
    intro d hd
    rcases List.mem_cons.1 hd with rfl | hd
    · exact plain_word (by simp [isWordChar, hc])
    · exact plain_word (mem_takeWhile hd)
  case case11 ho hp hs hb hq hd hl =>
    have hk : isKnown c = false := by
      have hsymbol : c ∉ symbols := by
        intro h
        rcases symbols_begin c h with hs' | hs' | hs' | hs' | hs'
        · rw [hp] at hs'
          cases hs'
        · rw [ho] at hs'
          cases hs'
        · exact hb (by simpa [blanks] using hs')
        · exact hq hs'
        · exact hs hs'
      simp [isKnown, hd, hl, hsymbol]
    have hn : [c].count '\n' = 0 := by
      have hc : c ≠ '\n' := fun h => hb (.inr (.inr (.inr h)))
      simp [hc]
    rw [predicted_cons, next_code hq hs, Piece.newlines, hn]
    simp [stray?, hk, reads, Placed.error?]

/-- The machine predicts the errors of all pieces. -/
theorem predicted_pieces (text : List Char) (offset line : Nat) :
    code.predicted line text = (place offset line (pieces text)).filterMap Placed.error? := by
  fun_induction pieces text generalizing offset line with
  | case1 => rfl
  | case2 c rest ih =>
    rw [place, filterMap_cons_toList, predicted_read c rest offset line, ← ih]

/-! ## The scanner -/

theorem strays_code {text : List Char} : ∀ e ∈ m.strays line text, e.fault.code = "L001" := by
  induction text generalizing m line with
  | nil => simp [strays]
  | cons c cs ih =>
    intro e he
    rcases List.mem_append.1 he with he | he
    · obtain ⟨-, rfl⟩ : (m.reads && !isKnown c) ∧ ⟨.strayCharacter c, line⟩ = e := by
        simpa [stray?] using he
      rfl
    · exact ih e he

theorem mem_unclosed {text : List Char} {e : LexicalError} : e ∈ m.unclosed line text ↔
    m.after text = string ∧ e = ⟨.unclosedString, (line + text.count '\n' : Nat)⟩ := by
  simp [unclosed]

theorem unclosed_code {text : List Char} : ∀ e ∈ m.unclosed line text, e.fault.code = "L002" := by
  intro e he
  obtain ⟨-, rfl⟩ := mem_unclosed.1 he
  rfl

/-- The codes tell the two sorts of errors apart. -/
theorem filter_predicted (m : Mode) (line : Nat) (text : List Char) :
    (m.predicted line text).filter (·.fault.code = "L001") = m.strays line text ∧
      (m.predicted line text).filter (·.fault.code = "L002") = m.unclosed line text := by
  have hstrays : ∀ e ∈ m.strays line text, e.fault.code = "L001" := strays_code
  have hunclosed : ∀ e ∈ m.unclosed line text, e.fault.code = "L002" := unclosed_code
  constructor
  · have hall : (m.strays line text).filter (·.fault.code = "L001") = m.strays line text :=
      List.filter_eq_self.2 (by simpa using hstrays)
    have hnone : (m.unclosed line text).filter (·.fault.code = "L001") = [] :=
      List.filter_eq_nil_iff.2 fun e he => by simp [hunclosed e he]
    rw [predicted, List.filter_append, hall, hnone, List.append_nil]
  · have hnone : (m.strays line text).filter (·.fault.code = "L002") = [] :=
      List.filter_eq_nil_iff.2 fun e he => by simp [hstrays e he]
    have hall : (m.unclosed line text).filter (·.fault.code = "L002") = m.unclosed line text :=
      List.filter_eq_self.2 (by simpa using hunclosed)
    rw [predicted, List.filter_append, hall, hnone, List.nil_append]

theorem exists_unclosed_iff {text : List Char} :
    (∃ e ∈ m.predicted line text, e.fault.code = "L002") ↔ m.after text = string := by
  constructor
  · rintro ⟨e, he, hcode⟩
    rcases List.mem_append.1 he with he | he
    · rw [strays_code e he] at hcode
      exact absurd hcode (by decide)
    · exact (mem_unclosed.1 he).1
  · intro hend
    have he : ⟨.unclosedString, (line + text.count '\n' : Nat)⟩ ∈ m.unclosed line text :=
      mem_unclosed.2 ⟨hend, rfl⟩
    exact ⟨_, List.mem_append_right _ he, rfl⟩

/-- **The machine predicts the errors of a scan.** They are the characters with which it finds fault, in
the order of the text, and behind them at most one string that is not closed: if, and only if, the text
ends inside a string. They are what is reported. -/
theorem Scanner.errors_predicted (s : Scanner) :
    let text := s.source.toList
    let errors := s.tokenize.errors
    s.rescan = some s.tokenize ∧ errors = code.strays 1 text ++ code.unclosed 1 text ∧
    errors.filter (·.fault.code = "L001") = code.strays 1 text ∧
    errors.filter (·.fault.code = "L002") = code.unclosed 1 text ∧
    ((∃ e ∈ errors, e.fault.code = "L002") ↔ code.after text = string) ∧
    s.tokenize.sink.diagnostics = s.sink.diagnostics ++ errors.map LexicalError.diagnostic ∧
    (s.tokenize.hasErrors = true ↔ ∃ e, e ∈ errors) := by
  intro text errors
  have herrors : errors = code.predicted 1 text := (predicted_pieces text 0 1).symm
  obtain ⟨hstrays, hunclosed⟩ := filter_predicted code 1 text
  rw [← herrors] at hstrays hunclosed
  refine ⟨s.rescan_eq, herrors, hstrays, hunclosed, ?_, ?_, ?_⟩
  · rw [herrors]
    exact exists_unclosed_iff
  · simp [errors, tokenize, Scan.reportTo]
  · rw [hasErrors, Bool.not_eq_true', List.isEmpty_eq_false_iff_exists_mem]

/-- A quote in a comment begins no string, and two slashes in a string begin no comment. -/
example : code.predicted 1 "// \"\n@\"//@".toList =
    [⟨.strayCharacter '@', 2⟩, ⟨.unclosedString, 2⟩] := by decide

end Trellis
