import Mathlib.Data.List.Nodup
import Trellis.Proofs.Respaced
import Trellis.Proofs.Run

/-!
# Reading a token listing back

A listing shows each token by the name of its kind, its lexeme and its value. Strings may run over lines,
and hold lines that look like those of other tokens. Still the entries are told apart: the name of a kind
ends at a space, and the kind tells where the entry ends.

* `Shown`: what is listed of a token behind the name of its kind;
* `shown_inj`, `entry_inj`: where an entry ends is told by the entry;
* `listing_inj`: a listing is that of one row of tokens, but for the lines;
* `run_listing_iff`: **a token listing is unambiguous**.
-/

namespace Trellis

/-- What is listed of a token behind the name of its kind: a string twice, and the second time without
its quotes; a number and its value; any other lexeme, which is within one line. -/
inductive Shown : TokenKind → List Char → List Char → Prop
  | string {body : List Char} (h : '"' ∉ body) :
      Shown .string ('"' :: (body ++ ['"'])) ('"' :: (body ++ '"' :: ' ' :: body))
  | number {u : List Char} {x : Number} (hu : Numeral u)
      (hx : Number.ofText? (String.ofList u) = some x) :
      Shown .number u (u ++ ' ' :: x.text.toList)
  | plain {k : TokenKind} {u : List Char} (hk : k ≠ .string ∧ k ≠ .number) (h : '\n' ∉ u) :
      Shown k u u

/-- The entry of a token in a listing, with its line end. -/
def Token.entry (t : Token) : List Char := t.listed.toList ++ ['\n']

/-- A token that is listed in one of the ways in which those of a scan are. -/
def Token.Listable (t : Token) : Prop :=
  ∃ p, Shown t.kind t.lexeme.toList p ∧ t.entry = t.kind.name.toList ++ ' ' :: (p ++ ['\n'])

/-- The kind and the lexeme of a token. -/
def Token.head (t : Token) : TokenKind × String := (t.kind, t.lexeme)

variable {k : TokenKind} {u u' p p' r r' : List Char} {t t' : Token} {ts ts' : List Token}

/-! ## Cutting an entry -/

/-- Two texts that are equal are cut alike at the first place where a character stands. -/
theorem cut_inj {c : Char} {x x' y y' : List Char} (h : x ++ c :: y = x' ++ c :: y')
    (hx : c ∉ x) (hx' : c ∉ x') : x = x' ∧ y = y' := by
  have hstop : ∀ z : List Char, ∀ a ∈ (c :: z).head?, ¬ decide (a ≠ c) := by simp
  have htake := congrArg (List.takeWhile (decide <| · ≠ c)) h
  have hdrop := congrArg (List.dropWhile (decide <| · ≠ c)) h
  rw [takeWhile_stop (all_ne_of_not_mem hx) _ (hstop y),
    takeWhile_stop (all_ne_of_not_mem hx') _ (hstop y')] at htake
  rw [dropWhile_stop (all_ne_of_not_mem hx) _ (hstop y),
    dropWhile_stop (all_ne_of_not_mem hx') _ (hstop y')] at hdrop
  exact ⟨htake, List.tail_eq_of_cons_eq hdrop⟩

theorem space_notMem (h : Numeral u) : ' ' ∉ u := by
  intro hs
  rcases numeral_chars h _ hs with hs | hs <;> exact absurd hs (by decide)

/-- Behind the name of a kind, the kind tells where the entry ends. -/
theorem shown_inj (h : Shown k u p) (h' : Shown k u' p')
    (heq : p ++ '\n' :: r = p' ++ '\n' :: r') : u = u' ∧ r = r' := by
  cases h with
  | string hq =>
    cases h' with
    | string hq' =>
      -- the first copy ends at its quote, and tells the second
      simp only [List.cons_append, List.append_assoc, List.cons.injEq, true_and] at heq
      obtain ⟨rfl, heq⟩ := cut_inj heq hq hq'
      simp_all
    | plain hk => exact absurd rfl hk.1
  | number hu hx =>
    cases h' with
    | number hu' hx' =>
      -- the numeral ends at the space, and tells the value
      simp only [List.cons_append, List.append_assoc] at heq
      obtain ⟨rfl, heq⟩ := cut_inj heq (space_notMem hu) (space_notMem hu')
      cases hx.symm.trans hx'
      simp_all
    | plain hk => exact absurd rfl hk.2
  | plain hk hn =>
    cases h' with
    | string => exact absurd rfl hk.1
    | number => exact absurd rfl hk.2
    | plain _ hn' => exact cut_inj heq hn hn'

/-- Kind and lexeme tell all that is listed. -/
theorem shown_unique (h : Shown k u p) (h' : Shown k u' p') (hu : u = u') : p = p' := by
  cases h with
  | string =>
    cases h' with
    | string =>
      obtain rfl := List.append_cancel_right (List.tail_eq_of_cons_eq hu)
      rfl
    | plain hk => exact absurd rfl hk.1
  | number _ hx =>
    cases h' with
    | number _ hx' =>
      subst hu
      cases hx.symm.trans hx'
      rfl
    | plain hk => exact absurd rfl hk.2
  | plain hk =>
    cases h' with
    | string => exact absurd rfl hk.1
    | number => exact absurd rfl hk.2
    | plain => exact hu

/-! ## Entries -/

theorem name_injective {k k' : TokenKind} (h : k.name = k'.name) : k = k' := by
  have hnames : (TokenKind.all.map TokenKind.name).Nodup := by decide +kernel
  exact List.inj_on_of_nodup_map hnames (TokenKind.mem_all k) (TokenKind.mem_all k') h

theorem space_notMem_name (k : TokenKind) : ' ' ∉ k.name.toList := by
  cases k <;> decide

/-- An entry tells the token, and where the next entry begins. -/
theorem entry_inj (ht : t.Listable) (ht' : t'.Listable) (h : t.entry ++ r = t'.entry ++ r') :
    t.head = t'.head ∧ r = r' := by
  obtain ⟨p, hp, hentry⟩ := ht
  obtain ⟨p', hp', hentry'⟩ := ht'
  rw [hentry, hentry'] at h
  simp only [List.append_assoc, List.cons_append, List.nil_append] at h
  obtain ⟨hname, h⟩ := cut_inj h (space_notMem_name _) (space_notMem_name _)
  have hkind := name_injective (String.toList_inj.1 hname)
  rw [← hkind] at hp'
  obtain ⟨hlexeme, hrest⟩ := shown_inj hp hp' h
  exact ⟨Prod.ext hkind (String.toList_inj.1 hlexeme), hrest⟩

theorem entry_unique (ht : t.Listable) (ht' : t'.Listable) (h : t.head = t'.head) :
    t.entry = t'.entry := by
  obtain ⟨p, hp, hentry⟩ := ht
  obtain ⟨p', hp', hentry'⟩ := ht'
  obtain ⟨hkind, hlexeme⟩ := Prod.mk.inj h
  rw [← hkind] at hp'
  rw [hentry, hentry', hkind, shown_unique hp hp' (congrArg String.toList hlexeme)]

theorem entry_ne_nil (t : Token) : t.entry ≠ [] := by
  simp [Token.entry]

/-- Listings are equal exactly if the kinds and lexemes are. -/
theorem listing_inj (hts : ∀ t ∈ ts, t.Listable) (hts' : ∀ t ∈ ts', t.Listable) :
    ts.flatMap Token.entry = ts'.flatMap Token.entry ↔ ts.map Token.head = ts'.map Token.head := by
  induction ts generalizing ts' with
  | nil => cases ts' <;> simp [entry_ne_nil]
  | cons t ts ih =>
    cases ts' with
    | nil => simp [entry_ne_nil]
    | cons t' ts' =>
      obtain ⟨ht, hts⟩ := List.forall_mem_cons.1 hts
      obtain ⟨ht', hts'⟩ := List.forall_mem_cons.1 hts'
      rw [List.flatMap_cons, List.flatMap_cons, List.map_cons, List.map_cons, List.cons.injEq,
        ← ih hts hts']
      constructor
      · exact entry_inj ht ht'
      · rintro ⟨hhead, hrest⟩
        rw [entry_unique ht ht' hhead, hrest]

/-! ## The listing of a scan -/

theorem listable_of_shown {v : Value} {line : Int} (h : Shown k u p)
    (hentry : (⟨k, String.ofList u, v, line⟩ : Token).entry =
      k.name.toList ++ ' ' :: (p ++ ['\n'])) :
    (⟨k, String.ofList u, v, line⟩ : Token).Listable := by
  refine ⟨p, ?_, hentry⟩
  rwa [String.toList_ofList]

theorem listable_of_lexeme {v : Value} (h : Lexeme u k v) (line : Int) :
    (⟨k, String.ofList u, v, line⟩ : Token).Listable := by
  cases valued_of_lexeme h with
  | string hq =>
    exact listable_of_shown (.string hq) (by simp [Token.entry, Token.listed, Value.listed])
  | number hu hx =>
    exact listable_of_shown (.number hu hx) (by simp [Token.entry, Token.listed, Value.listed])
  | symbol hk =>
    simp only [List.mem_cons, List.not_mem_nil, or_false, not_or] at hk
    have hline := newlines_of_lexeme h hk.2
    exact listable_of_shown (.plain hk.symm hline) (by simp [Token.entry, Token.listed])

theorem listable_end (line : Int) : (endToken line).Listable := by
  refine ⟨[], .plain (by simp [endToken]) (by simp [endToken]), ?_⟩
  simp [Token.entry, Token.listed, endToken]

theorem listable_scan (source : String) : ∀ t ∈ (scan source).tokens, t.Listable := by
  obtain ⟨ts, last, htokens, hlexemes⟩ := lexemes_of_scan source
  rw [htokens, List.forall_mem_append, List.forall_mem_singleton]
  refine ⟨?_, listable_end last⟩
  intro t ht
  have hlistable := listable_of_lexeme (hlexemes t ht) t.line
  rwa [String.ofList_toList] at hlistable

theorem toList_listing (ts : List Token) :
    (String.join (ts.map fun t => t.listed ++ "\n")).toList = ts.flatMap Token.entry := by
  rw [String.toList_join, List.flatMap_map]
  congr 1
  funext t
  rw [String.toList_append]
  rfl

/-- **A token listing is unambiguous.** Where no error keeps a run from listing the tokens, two source
texts have the same listing exactly if their tokens have the same kinds and lexemes, whatever the strings
among them hold. -/
theorem run_listing_iff {r r' : Runner} {source source' : String} (hr : r.Clear source)
    (hr' : r'.Clear source') (ht : r.showTokens = true) (ht' : r'.showTokens = true) :
    (r.run source).1 = (r'.run source').1 ↔
      (scan source).tokens.map Token.head = (scan source').tokens.map Token.head := by
  rw [Runner.run_of_showTokens (Runner.hadError_of_clear hr) ht,
    Runner.run_of_showTokens (Runner.hadError_of_clear hr') ht', ← String.toList_inj,
    toList_listing, toList_listing]
  exact listing_inj (listable_scan source) (listable_scan source')

/-- A string with a line of its own that looks like the last of a listing. Layout is not listed. -/
theorem listing_of_listing_lines :
    let source := "\"x\nEOF \n\"+1"
    let source' := "\"x\nEOF \n\" // y\n+ 1"
    let r : Runner := { showTokens := true }
    r.Clear source ∧ r.Clear source' ∧ r.showTokens = true ∧
      (r.run source).1 = (r.run source').1 ∧
      (scan source).tokens.map Token.head = (scan source').tokens.map Token.head ∧
      (scan source).tokens ≠ (scan source').tokens := by
  intro source source' r
  have hr : r.Clear source := ⟨rfl, by decide +kernel⟩
  have hr' : r.Clear source' := ⟨rfl, by decide +kernel⟩
  have hheads : (scan source).tokens.map Token.head = (scan source').tokens.map Token.head := by
    decide +kernel
  exact ⟨hr, hr', rfl, (run_listing_iff hr hr' rfl rfl).2 hheads, hheads, by decide +kernel⟩

end Trellis
