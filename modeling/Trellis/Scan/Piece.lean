import Trellis.Token.Kind

/-!
# Cutting source text into pieces

Source text falls into pieces: tokens, layout, characters that begin nothing, and at most one string
that is never closed. Each piece is the longest one that the text can begin with. Nothing of the text
is lost, and every piece holds at least one character, so that cutting ends.

* `Piece.read`: the first piece of a text, and what follows it;
* `read_text_append`: piece and remainder are the text;
* `pieces`: all pieces of a text.
-/

namespace Trellis

/-- What a piece of source text is. -/
inductive Form where
  /-- A token of the given kind. -/
  | token (kind : TokenKind)
  /-- A blank, a line end or a comment. -/
  | layout
  /-- A character that begins no piece of another form. -/
  | stray
  /-- A string without a closing quote: the whole rest of the text. -/
  | unclosed
deriving DecidableEq

/-- A piece of source text. -/
structure Piece where
  form : Form
  text : List Char
deriving DecidableEq

/-- An ASCII digit. -/
def isDigit (c : Char) : Bool := '0' ≤ c && c ≤ '9'

/-- An ASCII letter or the underscore. -/
def isLetter (c : Char) : Bool := ('a' ≤ c && c ≤ 'z') || ('A' ≤ c && c ≤ 'Z') || c == '_'

/-- A character that continues a word. -/
def isWordChar (c : Char) : Bool := isLetter c || isDigit c

/-- The kind of a word: a reserved word, or else an identifier. -/
def kindOfWord (word : List Char) : TokenKind :=
  (keywords.lookup (String.ofList word)).getD .identifier

/-- The characters after the first digit that belong to a number, and what follows them. A point
belongs to the number only when a digit follows it. -/
def numberTail (rest : List Char) : List Char × List Char :=
  let whole := rest.takeWhile isDigit
  match rest.dropWhile isDigit with
  | '.' :: d :: more =>
    if isDigit d then
      (whole ++ '.' :: d :: more.takeWhile isDigit, more.dropWhile isDigit)
    else (whole, '.' :: d :: more)
  | after => (whole, after)

/-- The characters after the opening quote up to the closing one, and what follows them, if there is
a closing quote. -/
def stringTail? (rest : List Char) : Option (List Char × List Char) :=
  match rest.dropWhile (· ≠ '"') with
  | [] => none
  | quote :: after => some (rest.takeWhile (· ≠ '"') ++ [quote], after)

theorem numberTail_append (rest : List Char) : (numberTail rest).1 ++ (numberTail rest).2 = rest := by
  have h := List.takeWhile_append_dropWhile (p := isDigit) (l := rest)
  unfold numberTail
  split
  · rename_i d more heq
    rw [heq] at h
    split
    · have hm := List.takeWhile_append_dropWhile (p := isDigit) (l := more)
      simp only [List.append_assoc, List.cons_append, hm, h]
    · exact h
  · exact h

theorem stringTail?_append {rest tail after : List Char}
    (h : stringTail? rest = some (tail, after)) : tail ++ after = rest := by
  have hr := List.takeWhile_append_dropWhile (p := (· ≠ '"')) (l := rest)
  unfold stringTail? at h
  split at h
  · simp at h
  · rename_i quote more heq
    rw [heq] at hr
    simp only [Option.some.injEq, Prod.mk.injEq] at h
    rw [← h.1, ← h.2, List.append_assoc]
    exact hr

namespace Piece

/-- The first piece of the text `c :: rest`, and what follows it. -/
def read (c : Char) (rest : List Char) : Piece × List Char :=
  match punctuation.lookup c, operators.lookup c with
  | some kind, _ => (⟨.token kind, [c]⟩, rest)
  | none, some (single, double) =>
    match rest with
    | '=' :: after => (⟨.token double, [c, '=']⟩, after)
    | _ => (⟨.token single, [c]⟩, rest)
  | none, none =>
    if c = '/' then
      match rest with
      | '/' :: after =>
        (⟨.layout, '/' :: '/' :: after.takeWhile (· ≠ '\n')⟩, after.dropWhile (· ≠ '\n'))
      | _ => (⟨.token .slash, [c]⟩, rest)
    else if c = ' ' ∨ c = '\r' ∨ c = '\t' ∨ c = '\n' then (⟨.layout, [c]⟩, rest)
    else if c = '"' then
      match stringTail? rest with
      | some (tail, after) => (⟨.token .string, c :: tail⟩, after)
      | none => (⟨.unclosed, c :: rest⟩, [])
    else if isDigit c then
      (⟨.token .number, c :: (numberTail rest).1⟩, (numberTail rest).2)
    else if isLetter c then
      let word := c :: rest.takeWhile isWordChar
      (⟨.token (kindOfWord word), word⟩, rest.dropWhile isWordChar)
    else (⟨.stray, [c]⟩, rest)

theorem read_text_ne_nil (c : Char) (rest : List Char) : (read c rest).1.text ≠ [] := by
  unfold read
  repeat' split
  all_goals simp

/-- A piece and what follows it are the text that was read. -/
theorem read_text_append (c : Char) (rest : List Char) :
    (read c rest).1.text ++ (read c rest).2 = c :: rest := by
  unfold read
  repeat' split
  all_goals grind [numberTail_append, stringTail?_append, List.takeWhile_append_dropWhile]

theorem read_length_le (c : Char) (rest : List Char) : (read c rest).2.length ≤ rest.length := by
  have h := congrArg List.length (read_text_append c rest)
  have hne := List.length_pos_iff.2 (read_text_ne_nil c rest)
  simp only [List.length_append, List.length_cons] at h
  omega

end Piece

/-- The pieces of a text, in order. -/
def pieces : List Char → List Piece
  | [] => []
  | c :: rest => (Piece.read c rest).1 :: pieces (Piece.read c rest).2
termination_by text => text.length
decreasing_by exact Nat.lt_succ_of_le (Piece.read_length_le c rest)

end Trellis
