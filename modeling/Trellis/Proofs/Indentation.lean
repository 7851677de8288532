import Mathlib.Data.List.Chain
import Trellis.Proofs.Outline

/-!
# What the indentation of an outline tells

Every line of an outline begins with an indent of branches, trunks and blanks. A part is moved in by four
columns when it is joined to its node, however its own lines look. So the indent of a line is four columns
for each step from the root, and the lines name the nodes in the order of a walk along the parts.

* `Row`: a line, as the width of its indent and the text behind it;
* `rows_branch`: joining a part to its node moves its rows by four columns, and changes nothing else;
* `Expr.SingleLine`: no operator and no literal is written with a line feed; `rows_binary` and its like: the
  rows of such a tree, from those of its parts;
* `Row.Follows`: what may come below a row;
* `outline_walk`: **the rows are those of a walk**, with one more for the operator of each operation.
-/

namespace Trellis

/-- A line of an outline: the width of its indent, and the text behind the indent. -/
structure Row where
  width : Nat
  text : List Char

/-- A character of an indent: a space or a box-drawing character. -/
def isIndent (c : Char) : Bool := c == ' ' || (0x2500 ≤ c.toNat && c.toNat ≤ 0x257f)

namespace Row

/-- A line without its indent. -/
def ofLine (line : String) : Row where
  width := (line.toList.takeWhile isIndent).length
  text := line.toList.dropWhile isIndent

/-- The row shows an operator. -/
def showsOperator (r : Row) : Bool := "Operator: ".toList.isPrefixOf r.text

/-- The name of the node that the row begins with, if it begins with one. -/
def name? (r : Row) : Option String :=
  ["Binary", "Grouping", "Literal", "Unary"].find? (·.toList.isPrefixOf r.text)

/-- The row is that of a binary or a prefix operation. -/
def isOperation (r : Row) : Bool := r.name? = some "Binary" || r.name? = some "Unary"

/-- The row, moved in by four columns. -/
def shift (r : Row) : Row := { r with width := r.width + 4 }

/-- One row may stand directly below another: an operator in the next level below an operation, and no
operator below anything else. -/
def Follows (r s : Row) : Prop :=
  if r.isOperation then s.showsOperator ∧ s.width = r.width + 4 else ¬ s.showsOperator

end Row

/-- The rows of an outline. -/
def Expr.rows (e : Expr) : List Row := (Text.lines e.outline).map Row.ofLine

/-- No operator and no literal in the tree is written with a line feed. -/
def Expr.SingleLine : Expr → Prop
  | .binary a t b => a.SingleLine ∧ '\n' ∉ t.lexeme.toList ∧ b.SingleLine
  | .grouping e => e.SingleLine
  | .literal v => '\n' ∉ v.spelling.toList
  | .unary t e => '\n' ∉ t.lexeme.toList ∧ e.SingleLine

/-- Rows without those of operators, as depths and names. -/
def namedRows (rs : List Row) : List (Nat × Option String) :=
  (rs.filter (!·.showsOperator)).map fun r => (r.width / 4, r.name?)

variable {a b e : Expr} {t : Token} {v : Value} {r s : Row} {rs ss : List Row} {ls : List String}

/-! ## One row -/

@[simp] theorem showsOperator_shift (r : Row) : r.shift.showsOperator = r.showsOperator := rfl

@[simp] theorem name?_shift (r : Row) : r.shift.name? = r.name? := rfl

@[simp] theorem isOperation_shift (r : Row) : r.shift.isOperation = r.isOperation := rfl

theorem follows_shift : r.shift.Follows s.shift ↔ r.Follows s := by
  have hwidth : s.shift.width = r.shift.width + 4 ↔ s.width = r.width + 4 := Nat.add_right_cancel_iff
  simp only [Row.Follows, isOperation_shift, showsOperator_shift, hwidth]

/-- A line that begins with no character of an indent is a row as it stands. -/
theorem ofLine_of_head {l : String} (h : l.toList.head?.any isIndent = false) :
    Row.ofLine l = ⟨0, l.toList⟩ := by
  cases hl : l.toList with
  | nil => simp [Row.ofLine, hl]
  | cons c cs =>
    have hc : isIndent c = false := by simpa [hl] using h
    simp [Row.ofLine, hl, hc]

/-- Four characters of an indent in front of a line move its row. -/
theorem ofLine_append {stem : String} (hstem : stem.toList.all isIndent) (hlen : stem.toList.length = 4)
    (l : String) : Row.ofLine (stem ++ l) = (Row.ofLine l).shift := by
  have hall := List.all_eq_true.1 hstem
  simp only [Row.ofLine, Row.shift, String.toList_append, List.takeWhile_append_of_pos hall,
    List.dropWhile_append_of_pos hall, List.length_append, hlen, Nat.add_comm]

/-- Joining a part to its node moves its rows, and changes nothing else. -/
theorem rows_branch (last : Bool) (ls : List String) :
    (Expr.branch last ls).map Row.ofLine = (ls.map Row.ofLine).map Row.shift := by
  cases ls with
  | nil => rfl
  | cons first rest =>
    cases last <;>
      simp (disch := decide) only [Expr.branch, List.map_cons, List.map_map, Function.comp_def,
        Bool.false_eq_true, if_true, if_false, ofLine_append]

/-! ## The rows of an outline -/

theorem rows_eq (e : Expr) : e.rows = e.outlineLines.map Row.ofLine := by
  rw [Expr.rows, Expr.lines_outline]

/-- A label and a text without line feeds are one row. -/
theorem rows_leafLines {label text : String} (hhead : label.toList.head?.any isIndent = false)
    (hlabel : '\n' ∉ label.toList) (htext : '\n' ∉ text.toList) :
    (Expr.leafLines label text).map Row.ofLine = [⟨0, (label ++ ": " ++ text).toList⟩] := by
  have hline : '\n' ∉ (label ++ ": " ++ text).toList := by
    simp only [String.toList_append, List.mem_append, not_or]
    exact ⟨⟨hlabel, by decide⟩, htext⟩
  have hfirst : (label ++ ": " ++ text).toList.head?.any isIndent = false := by
    cases hl : label.toList with
    | nil => simp [hl]; decide
    | cons c cs => simpa [hl] using hhead
  rw [Expr.leafLines, Text.lines, List.splitOn_eq_singleton hline, List.map_singleton,
    String.ofList_toList, List.map_singleton, ofLine_of_head hfirst]

/-- The row of an operator, joined to its operation. -/
theorem rows_operator (h : '\n' ∉ t.lexeme.toList) :
    (Expr.branch false (Expr.leafLines "Operator" t.lexeme)).map Row.ofLine =
      [⟨4, ("Operator: " ++ t.lexeme).toList⟩] := by
  rw [rows_branch, rows_leafLines rfl (by decide) h]
  rfl

theorem rows_binary (h : '\n' ∉ t.lexeme.toList) : (Expr.binary a t b).rows =
    ⟨0, "Binary".toList⟩ :: ⟨4, ("Operator: " ++ t.lexeme).toList⟩ ::
      (a.rows.map Row.shift ++ b.rows.map Row.shift) := by
  simp only [rows_eq, Expr.outlineLines, List.map_cons, List.map_append, rows_operator h, rows_branch,
    Expr.label, List.cons_append, List.nil_append]
  rw [ofLine_of_head (l := "Binary") rfl]

theorem rows_grouping (e : Expr) :
    (Expr.grouping e).rows = ⟨0, "Grouping".toList⟩ :: e.rows.map Row.shift := by
  simp only [rows_eq, Expr.outlineLines, List.map_cons, rows_branch, Expr.label]
  rw [ofLine_of_head (l := "Grouping") rfl]

theorem rows_literal (h : '\n' ∉ v.spelling.toList) :
    (Expr.literal v).rows = [⟨0, ("Literal: " ++ v.spelling).toList⟩] := by
  rw [rows_eq, Expr.outlineLines, Expr.label,
    rows_leafLines rfl (by decide) h]
  rfl

theorem rows_unary (h : '\n' ∉ t.lexeme.toList) : (Expr.unary t e).rows =
    ⟨0, "Unary".toList⟩ :: ⟨4, ("Operator: " ++ t.lexeme).toList⟩ :: e.rows.map Row.shift := by
  simp only [rows_eq, Expr.outlineLines, List.map_cons, List.map_append, rows_operator h, rows_branch,
    Expr.label, List.cons_append, List.nil_append]
  rw [ofLine_of_head (l := "Unary") rfl]

/-! ## What the rows show -/

theorem showsOperator_operator (n : Nat) (lexeme : String) :
    Row.showsOperator ⟨n, ("Operator: " ++ lexeme).toList⟩ = true := by
  simp [Row.showsOperator]

theorem name?_operator (n : Nat) (lexeme : String) :
    Row.name? ⟨n, ("Operator: " ++ lexeme).toList⟩ = none := by
  simp [Row.name?]

theorem showsOperator_literal (n : Nat) (text : String) :
    Row.showsOperator ⟨n, ("Literal: " ++ text).toList⟩ = false := by
  simp [Row.showsOperator, List.isPrefixOf]

theorem name?_literal (n : Nat) (text : String) :
    Row.name? ⟨n, ("Literal: " ++ text).toList⟩ = some "Literal" := by
  simp [Row.name?]

/-- Every indent is a number of whole levels. -/
theorem four_dvd_width (h : e.SingleLine) : ∀ r ∈ e.rows, 4 ∣ r.width := by
  have hshift : ∀ {rs : List Row},
      (∀ r ∈ rs, 4 ∣ r.width) → ∀ r ∈ rs.map Row.shift, 4 ∣ r.width := by
    intro rs hrs r hr
    obtain ⟨s, hs, rfl⟩ := List.mem_map.1 hr
    exact Nat.dvd_add (hrs s hs) (Nat.dvd_refl 4)
  induction e with
  | binary a t b iha ihb =>
    obtain ⟨ha, ht, hb⟩ := h
    rw [rows_binary ht, List.forall_mem_cons, List.forall_mem_cons, List.forall_mem_append]
    exact ⟨Nat.dvd_zero 4, Nat.dvd_refl 4, hshift (iha ha), hshift (ihb hb)⟩
  | grouping e ih =>
    rw [rows_grouping, List.forall_mem_cons]
    exact ⟨Nat.dvd_zero 4, hshift (ih h)⟩
  | literal v =>
    rw [rows_literal h, List.forall_mem_singleton]
    exact Nat.dvd_zero 4
  | unary t e ih =>
    obtain ⟨ht, he⟩ := h
    rw [rows_unary ht, List.forall_mem_cons, List.forall_mem_cons]
    exact ⟨Nat.dvd_zero 4, Nat.dvd_refl 4, hshift (ih he)⟩

/-! ## The walk -/

/-- One level deeper. -/
def deeper {α : Type} (p : Nat × α) : Nat × α := (p.1 + 1, p.2)

theorem preorder_succ (d : Nat) (e : Expr) : e.preorder (d + 1) = (e.preorder d).map deeper := by
  induction e generalizing d with
  | binary a t b iha ihb => simp [Expr.preorder, iha, ihb, deeper]
  | grouping e ih => simp [Expr.preorder, ih, deeper]
  | literal v => rfl
  | unary t e ih => simp [Expr.preorder, ih, deeper]

theorem namedRows_append (rs ss : List Row) : namedRows (rs ++ ss) = namedRows rs ++ namedRows ss := by
  simp [namedRows]

theorem namedRows_shift (rs : List Row) :
    namedRows (rs.map Row.shift) = (namedRows rs).map deeper := by
  have hdepth : ∀ r : Row, r.shift.width / 4 = r.width / 4 + 1 := fun r => Nat.add_div_right _ (by decide)
  simp [namedRows, List.filter_map, Function.comp_def, deeper, hdepth]

theorem namedRows_node (name : String) (rs : List Row)
    (h : Row.showsOperator ⟨0, name.toList⟩ = false) :
    namedRows (⟨0, name.toList⟩ :: rs) = (0, Row.name? ⟨0, name.toList⟩) :: namedRows rs := by
  simp [namedRows, h]

theorem namedRows_operator (lexeme : String) (rs : List Row) :
    namedRows (⟨4, ("Operator: " ++ lexeme).toList⟩ :: rs) = namedRows rs := by
  rw [namedRows, List.filter_cons_of_neg (by rw [showsOperator_operator]; decide), namedRows]

/-- But for operators, the rows of a tree name its nodes with their depths. -/
theorem namedRows_rows (h : e.SingleLine) :
    namedRows e.rows = (e.preorder 0).map fun p => (p.1, some p.2) := by
  have hdeeper : ∀ e : Expr, namedRows e.rows = (e.preorder 0).map (fun p => (p.1, some p.2)) →
      namedRows (e.rows.map Row.shift) = (e.preorder 1).map fun p => (p.1, some p.2) := by
    intro e he
    rw [namedRows_shift, he, preorder_succ 0]
    simp [deeper]
  induction e with
  | binary a t b iha ihb =>
    obtain ⟨ha, ht, hb⟩ := h
    rw [rows_binary ht, namedRows_node _ _ rfl, namedRows_operator, namedRows_append,
      hdeeper a (iha ha), hdeeper b (ihb hb), ← List.map_append]
    rfl
  | grouping e ih =>
    rw [rows_grouping, namedRows_node _ _ rfl, hdeeper e (ih h)]
    rfl
  | literal v =>
    rw [rows_literal h, namedRows_node _ _ (showsOperator_literal 0 _), name?_literal]
    rfl
  | unary t e ih =>
    obtain ⟨ht, he⟩ := h
    rw [rows_unary ht, namedRows_node _ _ rfl, namedRows_operator, hdeeper e (ih he)]
    rfl

/-! ## Operators below their operations -/

/-- Rows one below another; the first shows no operator, and the last waits for none. -/
structure WellPlaced (rs : List Row) : Prop where
  chain : rs.IsChain Row.Follows
  first : ∀ r ∈ rs.head?, r.showsOperator = false
  last : ∀ r ∈ rs.getLast?, r.isOperation = false

theorem wellPlaced_shift (h : WellPlaced rs) : WellPlaced (rs.map Row.shift) := by
  constructor
  · rw [List.isChain_map]
    simpa only [follows_shift] using h.chain
  · simpa using h.first
  · simpa using h.last

theorem wellPlaced_append (hr : WellPlaced rs) (hs : WellPlaced ss) : WellPlaced (rs ++ ss) := by
  constructor
  · refine List.isChain_append.2 ⟨hr.chain, hs.chain, ?_⟩
    intro r hlast s hfirst
    simp [Row.Follows, hr.last r hlast, hs.first s hfirst]
  · intro r h
    rw [List.head?_append, Option.mem_def, Option.or_eq_some_iff] at h
    exact h.elim (hr.first r) fun h => hs.first r h.2
  · intro r h
    rw [List.getLast?_append, Option.mem_def, Option.or_eq_some_iff] at h
    exact h.elim (hs.last r) fun h => hr.last r h.2

theorem wellPlaced_node (hs : r.showsOperator = false) (ho : r.isOperation = false) :
    WellPlaced [r] := by
  constructor <;> simp [hs, ho]

/-- A row that shows an operator names no node. -/
theorem name?_of_showsOperator (h : r.showsOperator = true) : r.name? = none := by
  obtain ⟨rest, hrest⟩ := List.isPrefixOf_iff_prefix.1 h
  have htext : ("Operator: " ++ String.ofList rest).toList = r.text := by
    simpa using hrest
  have hname := name?_operator r.width (String.ofList rest)
  rwa [htext] at hname

theorem isOperation_of_showsOperator (h : r.showsOperator = true) : r.isOperation = false := by
  simp [Row.isOperation, name?_of_showsOperator h]

theorem showsOperator_of_isOperation (h : r.isOperation = true) : r.showsOperator = false := by
  cases hs : r.showsOperator with
  | false => rfl
  | true =>
    rw [isOperation_of_showsOperator hs] at h
    cases h

/-- An operation and its operator. -/
theorem wellPlaced_operation (hr : r.isOperation = true) (hs : s.showsOperator = true)
    (hwidth : s.width = r.width + 4) : WellPlaced [r, s] := by
  constructor
  · simp [Row.Follows, hr, hs, hwidth]
  · rintro r ⟨⟩
    exact showsOperator_of_isOperation hr
  · rintro s ⟨⟩
    exact isOperation_of_showsOperator hs

theorem wellPlaced_rows (h : e.SingleLine) : WellPlaced e.rows := by
  induction e with
  | binary a t b iha ihb =>
    obtain ⟨ha, ht, hb⟩ := h
    have hop := showsOperator_operator 4 t.lexeme
    have htop := wellPlaced_operation (r := ⟨0, "Binary".toList⟩) rfl hop rfl
    rw [rows_binary ht]
    exact wellPlaced_append htop
      (wellPlaced_append (wellPlaced_shift (iha ha)) (wellPlaced_shift (ihb hb)))
  | grouping e ih =>
    have htop := wellPlaced_node (r := ⟨0, "Grouping".toList⟩) rfl rfl
    rw [rows_grouping]
    exact wellPlaced_append htop (wellPlaced_shift (ih h))
  | literal v =>
    rw [rows_literal h]
    exact wellPlaced_node (showsOperator_literal 0 _) (by rw [Row.isOperation, name?_literal]; rfl)
  | unary t e ih =>
    obtain ⟨ht, he⟩ := h
    have hop := showsOperator_operator 4 t.lexeme
    have htop := wellPlaced_operation (r := ⟨0, "Unary".toList⟩) rfl hop rfl
    rw [rows_unary ht]
    exact wellPlaced_append htop (wellPlaced_shift (ih he))

/-- Directly below an operation stands one operator, in the next level. -/
theorem operator_below (h : WellPlaced rs) {i : Nat} (hr : rs[i]? = some r)
    (ho : r.isOperation = true) :
    (∃ s, rs[i + 1]? = some s ∧ s.showsOperator = true ∧ s.width = r.width + 4) ∧
      ∀ s, rs[i + 2]? = some s → s.showsOperator = false := by
  have hchain := List.isChain_iff_getElem.1 h.chain
  obtain ⟨hi, rfl⟩ := List.getElem?_eq_some_iff.1 hr
  have hnext : i + 1 < rs.length := by
    by_contra hend
    have hlast : rs.getLast? = some rs[i] := by
      rw [List.getLast?_eq_getElem?, ← hr]
      congr 1
      omega
    rw [h.last _ hlast] at ho
    cases ho
  have hbelow := hchain i hnext
  rw [Row.Follows, if_pos ho] at hbelow
  refine ⟨⟨rs[i + 1], List.getElem?_eq_getElem hnext, hbelow⟩, ?_⟩
  intro s hs
  obtain ⟨hi', rfl⟩ := List.getElem?_eq_some_iff.1 hs
  have hbelow' := hchain (i + 1) hi'
  rw [Row.Follows, isOperation_of_showsOperator hbelow.1] at hbelow'
  simpa using hbelow'

/-- **The rows of an outline are those of a walk.** Where no text in the tree runs over several lines, every
indent is a number of whole levels of four columns. But for those that show an operator, the rows tell in
order the depths and the names of the nodes on a walk, which comes to a node and then to its children, from
left to right and one level deeper. Directly below the row of a binary or a prefix operation stands exactly
one that shows an operator, in the next level. -/
theorem outline_walk (h : e.SingleLine) :
    (∀ r ∈ e.rows, 4 ∣ r.width) ∧
      (∀ d (node : Expr), node.preorder d =
        (d, node.label) :: node.children.flatMap fun child => child.preorder (d + 1)) ∧
      namedRows e.rows = (e.preorder 0).map (fun p => (p.1, some p.2)) ∧
      ∀ i r, e.rows[i]? = some r → r.isOperation = true →
        (∃ s, e.rows[i + 1]? = some s ∧ s.showsOperator = true ∧ s.width = r.width + 4) ∧
        ∀ s, e.rows[i + 2]? = some s → s.showsOperator = false :=
  ⟨four_dvd_width h, Expr.preorder_eq_children, namedRows_rows h,
    fun _ _ => operator_below (wellPlaced_rows h)⟩

/-- A literal that looks like the row of an operator, and an operator that looks like an indent. -/
theorem outline_of_lookalikes :
    let e : Expr := .binary (.grouping (.literal (.text "Operator: +")))
      { kind := .plus, lexeme := "└── ", line := 1 }
      (.unary { kind := .minus, lexeme := "-", line := 1 } (.literal .null))
    e.SingleLine ∧ (∀ r ∈ e.rows, 4 ∣ r.width) ∧
      namedRows e.rows = [(0, some "Binary"), (1, some "Grouping"), (2, some "Literal"),
        (1, some "Unary"), (2, some "Literal")] := by
  intro e
  have htext : '\n' ∉ "Operator: +".toList := by decide
  have hnull : '\n' ∉ "null".toList := by decide
  have h : e.SingleLine := ⟨htext, by decide, by decide, hnull⟩
  obtain ⟨hwidth, -, hnamed, -⟩ := outline_walk h
  exact ⟨h, hwidth, hnamed⟩

end Trellis
