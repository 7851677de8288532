import Mathlib
import Trellis.Proofs.Listing
import Trellis.Proofs.NumberText

/-!
# Quoted tokens are told apart

Quoted text ends at its closing quote whatever it holds, since each of its characters can be read back
with the place where the next one begins. So the quoted form of a token can be cut into its four parts
again.

* `Text.readChar`: the character at the front of quoted text, and what follows it;
* `Text.quotedChars_inj`: quoted text tells the text, and where it ends;
* `Value.quoted_inj`: the same of a value before a comma;
* `Token.quoted_injective`: **the quoted form of a token identifies it**.
-/

namespace Trellis

namespace Text

/-! ## Hexadecimal digits -/

/-- The value of a hexadecimal digit. -/
def hexDigit (c : Char) : Nat := if c.isDigit then c.toNat - '0'.toNat else c.toNat - 'a'.toNat + 10

/-- The number that hexadecimal digits write. -/
def valueOfHex (ds : List Char) : Nat := ds.foldl (fun n c => 16 * n + hexDigit c) 0

theorem hexDigit_digitChar : ∀ n < 16, hexDigit (Nat.digitChar n) = n := by decide

theorem length_hex (w n : Nat) : (hex w n).length = w := by
  induction w generalizing n with
  | zero => rfl
  | succ w ih => simp [hex, ih]

theorem valueOfHex_hex {w n : Nat} (h : n < 16 ^ w) : valueOfHex (hex w n) = n := by
  induction w generalizing n with
  | zero =>
    have hn : n = 0 := by simpa using h
    simp [hex, valueOfHex, hn]
  | succ w ih =>
    have hhigh : valueOfHex (hex w (n / 16)) = n / 16 := by
      apply ih
      rw [pow_succ] at h
      omega
    unfold valueOfHex at hhigh ⊢
    rw [hex, List.foldl_append, hhigh, List.foldl_cons, List.foldl_nil,
      hexDigit_digitChar _ (Nat.mod_lt n (by decide))]
    omega

/-! ## Reading one character -/

/-- The character of a code point in `w` hexadecimal digits, and what follows them. -/
def readHex (w : Nat) (text : List Char) : Char × List Char :=
  (Char.ofNat (valueOfHex (text.take w)), text.drop w)

/-- The character that is escaped behind a backslash, and what follows it. -/
def readEscape : List Char → Option (Char × List Char)
  | [] => none
  | 'n' :: rest => some ('\n', rest)
  | 'r' :: rest => some ('\r', rest)
  | 't' :: rest => some ('\t', rest)
  | 'x' :: rest => some (readHex 2 rest)
  | 'u' :: rest => some (readHex 4 rest)
  | 'U' :: rest => some (readHex 8 rest)
  | c :: rest => some (c, rest)

/-- The character at the front of quoted text, and what follows it. -/
def readChar : List Char → Option (Char × List Char)
  | [] => none
  | '\\' :: rest => readEscape rest
  | c :: rest => some (c, rest)

variable {quote c c' : Char} {text text' rest rest' : List Char}

theorem readHex_hex {w : Nat} (h : c.toNat < 16 ^ w) (rest : List Char) :
    readHex w (hex w c.toNat ++ rest) = (c, rest) := by
  have htake : (hex w c.toNat ++ rest).take w = hex w c.toNat :=
    List.take_left' (length_hex w _)
  have hdrop : (hex w c.toNat ++ rest).drop w = rest := List.drop_left' (length_hex w _)
  rw [readHex, htake, hdrop, valueOfHex_hex h, Char.ofNat_toNat]

/-- The two kinds of quotes. -/
def quotes : List Char := ['\'', '"']

theorem quoteFor_mem (text : List Char) : quoteFor text ∈ quotes := by
  unfold quoteFor
  split <;> decide

/-- A character is read back, and the rest of the text with it. -/
theorem readChar_escaped (hq : quote ∈ quotes) (c : Char) (rest : List Char) :
    readChar (escaped quote c ++ rest) = some (c, rest) := by
  unfold escaped
  split
  · rename_i h
    have hc : c = '\'' ∨ c = '"' ∨ c = '\\' := by
      rcases h with rfl | rfl
      · simpa [quotes, or_assoc] using Or.inl hq
      · simp
    rcases hc with rfl | rfl | rfl <;> rfl
  split
  · rename_i h
    rw [h]
    rfl
  split
  · rename_i h
    rw [h]
    rfl
  split
  · rename_i h
    rw [h]
    rfl
  split
  · rename_i h _ _ _ _
    have hc : c ≠ '\\' := fun hc => h (.inr hc)
    rw [List.cons_append, List.nil_append, readChar]
    exact hc
  split
  · rename_i h
    exact congrArg some (readHex_hex h rest)
  split
  · rename_i h
    exact congrArg some (readHex_hex h rest)
  · exact congrArg some (readHex_hex (Nat.lt_of_lt_of_le c.val.toNat_lt (by decide)) rest)

theorem escaped_head (hq : quote ∈ quotes) (c : Char) (rest : List Char) :
    (escaped quote c ++ rest).head? ≠ some quote := by
  have hback : '\\' ≠ quote := by
    rintro rfl
    exact absurd hq (by decide)
  unfold escaped
  grind

/-! ## Reading a text -/

/-- A quote ends the text, and nothing before it does. -/
theorem escaped_inj (hq : quote ∈ quotes)
    (h : text.flatMap (escaped quote) ++ quote :: rest =
      text'.flatMap (escaped quote) ++ quote :: rest') : text = text' ∧ rest = rest' := by
  induction text generalizing text' with
  | nil =>
    cases text' with
    | nil => exact ⟨rfl, List.tail_eq_of_cons_eq h⟩
    | cons c text' =>
      rw [List.flatMap_cons, List.append_assoc] at h
      exact absurd (congrArg List.head? h.symm) (escaped_head hq c _)
  | cons c text ih =>
    rw [List.flatMap_cons, List.append_assoc] at h
    cases text' with
    | nil => exact absurd (congrArg List.head? h) (escaped_head hq c _)
    | cons c' text' =>
      rw [List.flatMap_cons, List.append_assoc] at h
      have hread := congrArg readChar h
      rw [readChar_escaped hq, readChar_escaped hq] at hread
      obtain ⟨rfl, hrest⟩ := Prod.mk.inj (Option.some.inj hread)
      obtain ⟨rfl, rfl⟩ := ih hrest
      exact ⟨rfl, rfl⟩

/-- Quoted text tells the text, and where it ends. -/
theorem quotedChars_inj (h : quotedChars text ++ rest = quotedChars text' ++ rest') :
    text = text' ∧ rest = rest' := by
  simp only [quotedChars, List.cons_append, List.append_assoc, List.nil_append] at h
  obtain ⟨hquote, h⟩ := List.cons.inj h
  rw [← hquote] at h
  exact escaped_inj (quoteFor_mem text) h

end Text

/-! ## Values -/

namespace Value

variable {v v' : Value} {rest rest' : List Char}

/-- The values that are listed by a word. -/
def words : List Value := [.null, .truth false, .truth true]

/-- The values that stand without quotes. -/
def Plain (v : Value) : Prop := v ∈ words ∨ ∃ x, v = .number x

theorem plain_or_text (v : Value) : v.Plain ∨ ∃ s, v = .text s := by
  cases v with
  | null => exact .inl (.inl (by decide))
  | truth b => cases b <;> exact .inl (.inl (by decide))
  | number x => exact .inl (.inr ⟨x, rfl⟩)
  | text s => exact .inr ⟨s, rfl⟩

theorem quoted_plain (h : v.Plain) : v.quoted = v.listed := by
  rcases h with h | ⟨x, rfl⟩
  · revert v
    decide
  · rfl

/-- Neither a comma nor a quote is in a value that stands without quotes. -/
theorem chars_plain (h : v.Plain) : ∀ c ∈ v.quoted.toList, c ≠ ',' ∧ c ∉ Text.quotes := by
  rw [quoted_plain h]
  rcases h with h | ⟨x, rfl⟩
  · have hwords : ∀ v ∈ words, v.listed.toList.all fun c => c ≠ ',' ∧ c ∉ Text.quotes := by
      decide +kernel
    intro c hc
    simpa using List.all_eq_true.1 (hwords v h) c hc
  · intro c hc
    have hchar := numberChar_text x c hc
    constructor
    · rintro rfl
      exact absurd hchar (by decide)
    · intro hquote
      simp only [Text.quotes, List.mem_cons, List.not_mem_nil, or_false] at hquote
      rcases hquote with rfl | rfl <;> exact absurd hchar (by decide)

/-- A word begins with a letter that no number is written with. -/
theorem text_ne_word (x : Number) (h : v ∈ words) : x.text ≠ v.listed := by
  have hwords : ∀ v ∈ words, v.listed.toList.any fun c => ¬ NumberChar c := by decide +kernel
  obtain ⟨c, hc, hno⟩ := List.any_eq_true.1 (hwords v h)
  intro heq
  rw [← heq] at hc
  exact absurd (numberChar_text x c hc) (by simpa using hno)

theorem listed_inj (hv : v.Plain) (hv' : v'.Plain) (h : v.listed = v'.listed) : v = v' := by
  have hwords : ∀ v ∈ words, ∀ v' ∈ words, v.listed = v'.listed → v = v' := by decide
  rcases hv with hv | ⟨x, rfl⟩
  · rcases hv' with hv' | ⟨y, rfl⟩
    · exact hwords v hv v' hv' h
    · exact absurd h.symm (text_ne_word y hv)
  · rcases hv' with hv' | ⟨y, rfl⟩
    · exact absurd h (text_ne_word x hv')
    · exact congrArg Value.number (text_injective h)

theorem toList_quoted_text (s : String) : (Value.text s).quoted.toList = Text.quotedChars s.toList :=
  String.toList_ofList

/-- What begins with a quote is a text. -/
theorem plain_ne_text {s : String} (h : v.Plain) :
    v.quoted.toList ++ ',' :: rest ≠ (Value.text s).quoted.toList ++ rest' := by
  intro heq
  have hall : ∀ c ∈ (v.quoted.toList ++ ',' :: rest).head?, c ∉ Text.quotes := by
    intro c hc
    cases hlist : v.quoted.toList with
    | nil =>
      rw [hlist] at hc
      cases hc
      decide
    | cons d w =>
      rw [hlist] at hc
      cases hc
      exact (chars_plain h c (by simp [hlist])).2
  rw [heq, toList_quoted_text] at hall
  exact hall _ rfl (Text.quoteFor_mem s.toList)

/-- A value before a comma tells the value, and where it ends. -/
theorem quoted_inj (h : v.quoted.toList ++ ',' :: rest = v'.quoted.toList ++ ',' :: rest') :
    v = v' ∧ rest = rest' := by
  rcases v.plain_or_text with hv | ⟨s, rfl⟩
  · rcases v'.plain_or_text with hv' | ⟨s', rfl⟩
    · have hcomma : ',' ∉ v.quoted.toList := fun hc => (chars_plain hv ',' hc).1 rfl
      have hcomma' : ',' ∉ v'.quoted.toList := fun hc => (chars_plain hv' ',' hc).1 rfl
      obtain ⟨hquoted, hrest⟩ := cut_inj h hcomma hcomma'
      rw [String.toList_inj, quoted_plain hv, quoted_plain hv'] at hquoted
      exact ⟨listed_inj hv hv' hquoted, hrest⟩
    · exact absurd h (plain_ne_text hv)
  · rcases v'.plain_or_text with hv' | ⟨s', rfl⟩
    · exact absurd h.symm (plain_ne_text hv')
    · rw [toList_quoted_text, toList_quoted_text] at h
      obtain ⟨hs, hrest⟩ := Text.quotedChars_inj h
      exact ⟨congrArg Value.text (String.toList_inj.1 hs), List.tail_eq_of_cons_eq hrest⟩

end Value

/-! ## Tokens -/

namespace Token

theorem comma_notMem_name (k : TokenKind) : ',' ∉ k.name.toList := by
  cases k <;> decide

theorem toList_quoted (t : Token) : t.quoted.toList =
    "Token(".toList ++ (t.kind.name.toList ++ ',' :: ' ' :: (Text.quotedChars t.lexeme.toList ++
      ',' :: ' ' :: (t.literal.quoted.toList ++ ',' :: ' ' :: ((toString t.line).toList ++ [')'])))) := by
  simp only [quoted, Text.quoted, String.toList_append, String.toList_ofList, List.append_assoc]
  rfl

/-- **The quoted form of a token identifies it**: the kind, the lexeme with all that quotes, commas or
backslashes in it may look like, the literal in kind and value, and the line. -/
theorem quoted_injective : Function.Injective Token.quoted := by
  intro t t' h
  have h := congrArg String.toList h
  rw [toList_quoted, toList_quoted, List.append_cancel_left_eq] at h
  obtain ⟨hname, h⟩ := cut_inj h (comma_notMem_name _) (comma_notMem_name _)
  obtain ⟨hlexeme, h⟩ := Text.quotedChars_inj (List.tail_eq_of_cons_eq h)
  obtain ⟨hliteral, h⟩ := Value.quoted_inj (List.tail_eq_of_cons_eq (List.tail_eq_of_cons_eq h))
  have hline := List.append_cancel_right (List.tail_eq_of_cons_eq h)
  cases t
  cases t'
  rw [Token.mk.injEq]
  exact ⟨name_injective (String.toList_inj.1 hname), String.toList_inj.1 hlexeme, hliteral,
    Int.repr_injective (String.toList_inj.1 hline)⟩

end Token

end Trellis
