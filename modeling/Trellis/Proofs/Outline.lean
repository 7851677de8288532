import Trellis.Expr.Outline
import Trellis.Proofs.Lines

/-!
# What an outline tells

The first character of a line tells whether it begins a part or goes on with one. So the lines below a
node fall into those of its parts in one way, whatever texts stand in them.

* `Expr.Resembles`: the same shape, the same operator lexemes and the same spellings of literals;
* `lines_outline`: an outline is cut into the lines that it was joined from;
* `branch_append_inj`: the lines of a part, with other parts below it, tell the part;
* `outline_eq_iff`: **the outline determines the expression** up to resemblance.
-/

namespace Trellis.Expr

/-- The same nodes at the same places, with the same operator lexemes and spellings of literals. -/
inductive Resembles : Expr → Expr → Prop
  | binary {a a' b b' : Expr} {o o' : Token} (left : Resembles a a')
      (operator : o.lexeme = o'.lexeme) (right : Resembles b b') :
      Resembles (.binary a o b) (.binary a' o' b')
  | grouping {e e' : Expr} (inner : Resembles e e') : Resembles (.grouping e) (.grouping e')
  | literal {v v' : Value} (spelling : v.spelling = v'.spelling) :
      Resembles (.literal v) (.literal v')
  | unary {e e' : Expr} {o o' : Token} (operator : o.lexeme = o'.lexeme)
      (operand : Resembles e e') : Resembles (.unary o e) (.unary o' e')

variable {last : Bool} {ls ls' below below' : List String}

/-! ## The lines of an outline -/

theorem not_mem_branch (h : ∀ l ∈ ls, '\n' ∉ l.toList) : ∀ l ∈ branch last ls, '\n' ∉ l.toList := by
  cases ls with
  | nil => simp [branch]
  | cons first rest =>
    obtain ⟨hfirst, hrest⟩ := List.forall_mem_cons.1 h
    rw [branch, List.forall_mem_cons, List.forall_mem_map]
    constructor
    · cases last <;> simpa using hfirst
    · intro l hl
      cases last <;> simpa using hrest l hl

theorem not_mem_label (e : Expr) : '\n' ∉ e.label.toList := by
  cases e <;> simp [label]

theorem not_mem_outlineLines (e : Expr) : ∀ l ∈ e.outlineLines, '\n' ∉ l.toList := by
  have hleaf (label text : String) : ∀ l ∈ leafLines label text, '\n' ∉ l.toList :=
    fun l hl => Text.not_mem_of_mem_lines hl
  induction e with
  | binary left operator right ihl ihr =>
    rw [outlineLines, List.forall_mem_cons, List.forall_mem_append, List.forall_mem_append]
    exact ⟨not_mem_label _, ⟨not_mem_branch (hleaf _ _), not_mem_branch ihl⟩, not_mem_branch ihr⟩
  | grouping inner ih =>
    rw [outlineLines, List.forall_mem_cons]
    exact ⟨not_mem_label _, not_mem_branch ih⟩
  | literal value => exact hleaf _ _
  | unary operator operand ih =>
    rw [outlineLines, List.forall_mem_cons, List.forall_mem_append]
    exact ⟨not_mem_label _, not_mem_branch (hleaf _ _), not_mem_branch ih⟩

theorem leafLines_ne_nil (label text : String) : leafLines label text ≠ [] :=
  Text.lines_ne_nil _

theorem outlineLines_ne_nil (e : Expr) : e.outlineLines ≠ [] := by
  cases e with
  | literal value => exact leafLines_ne_nil _ _
  | _ => simp [outlineLines]

/-- An outline is cut into the lines that it was joined from. -/
theorem lines_outline (e : Expr) : Text.lines e.outline = e.outlineLines :=
  Text.lines_intercalate e.outlineLines_ne_nil e.not_mem_outlineLines

theorem head?_intercalate {l : String} (h : l ≠ "") (ls : List String) :
    ("\n".intercalate (l :: ls)).toList.head? = l.toList.head? := by
  obtain ⟨c, cs, hc⟩ := List.exists_cons_of_ne_nil (mt String.toList_eq_nil_iff.1 h)
  cases ls with
  | nil => rw [String.intercalate_singleton]
  | cons l' ls => simp [hc]

/-- An outline begins as the name of its topmost node does. -/
theorem head?_outline (e : Expr) : e.outline.toList.head? = e.label.toList.head? := by
  cases e with
  | literal value => simp [outline, outlineLines, leafLines, Text.intercalate_lines, label]
  | _ => exact head?_intercalate (by simp [label]) _

/-! ## The lines of a part -/

/-- Nothing comes, or a line that begins a part. -/
def Opens (ls : List String) : Prop :=
  ∀ l ∈ ls.head?, l.toList.head? = some '├' ∨ l.toList.head? = some '└'

theorem opens_nil : Opens [] := by
  simp [Opens]

theorem opens_branch_append (hls : ls ≠ []) : Opens (branch last ls ++ below) := by
  cases ls with
  | nil => exact absurd rfl hls
  | cons first rest => cases last <;> simp [Opens, branch]

theorem opens_branch (hls : ls ≠ []) : Opens (branch last ls) := by
  rw [← List.append_nil (branch last ls)]
  exact opens_branch_append hls

theorem not_opens_stem {stem : String}
    (hstem : stem.toList.head? = some '│' ∨ stem.toList.head? = some ' ') (l : String) :
    ¬ Opens ((stem ++ l) :: below) := by
  intro h
  have hopen := h _ rfl
  rw [String.toList_append, List.head?_append] at hopen
  rcases hstem with hs | hs <;> simp [hs] at hopen

/-- Lines that go on with a part, and what opens below them, tell each other apart. -/
theorem stem_append_inj {stem : String}
    (hstem : stem.toList.head? = some '│' ∨ stem.toList.head? = some ' ')
    (hb : Opens below) (hb' : Opens below')
    (h : ls.map (stem ++ ·) ++ below = ls'.map (stem ++ ·) ++ below') :
    ls = ls' ∧ below = below' := by
  induction ls generalizing ls' with
  | nil =>
    cases ls' with
    | nil => exact ⟨rfl, h⟩
    | cons l' ls' =>
      rw [List.map_nil, List.nil_append] at h
      rw [h] at hb
      exact absurd hb (not_opens_stem hstem _)
  | cons l ls ih =>
    cases ls' with
    | nil =>
      rw [List.map_nil, List.nil_append] at h
      rw [← h] at hb'
      exact absurd hb' (not_opens_stem hstem _)
    | cons l' ls' =>
      obtain ⟨hl, hrest⟩ := List.cons.inj h
      obtain ⟨rfl, hbelow⟩ := ih hrest
      exact ⟨by rw [(String.append_right_inj stem).1 hl], hbelow⟩

/-- The lines of a part, with other parts below it, tell the part. -/
theorem branch_append_inj (hls : ls ≠ []) (hls' : ls' ≠ []) (hb : Opens below) (hb' : Opens below')
    (h : branch last ls ++ below = branch last ls' ++ below') : ls = ls' ∧ below = below' := by
  obtain ⟨first, rest, rfl⟩ := List.exists_cons_of_ne_nil hls
  obtain ⟨first', rest', rfl⟩ := List.exists_cons_of_ne_nil hls'
  obtain ⟨hfirst, hrest⟩ := List.cons.inj h
  have hstem : (if last then "    " else "│   ").toList.head? = some '│' ∨
      (if last then "    " else "│   ").toList.head? = some ' ' := by
    cases last with
    | false => exact .inl rfl
    | true => exact .inr rfl
  obtain ⟨rfl, hbelow⟩ := stem_append_inj hstem hb hb' hrest
  exact ⟨by rw [(String.append_right_inj _).1 hfirst], hbelow⟩

theorem branch_inj (hls : ls ≠ []) (hls' : ls' ≠ []) (h : branch last ls = branch last ls') :
    ls = ls' := by
  rw [← List.append_nil (branch last ls), ← List.append_nil (branch last ls')] at h
  exact (branch_append_inj hls hls' opens_nil opens_nil h).1

theorem leafLines_inj {label text text' : String} (h : leafLines label text = leafLines label text') :
    text = text' :=
  (String.append_right_inj _).1 (Text.lines_injective h)

/-! ## The outline -/

theorem outlineLines_eq_of_resembles {a b : Expr} (h : a.Resembles b) :
    a.outlineLines = b.outlineLines := by
  induction h with
  | binary _ operator _ ihl ihr => simp only [outlineLines, label, operator, ihl, ihr]
  | grouping _ ih => simp only [outlineLines, label, ih]
  | literal spelling => simp only [outlineLines, label, spelling]
  | unary operator _ ih => simp only [outlineLines, label, operator, ih]

theorem head?_label_eq {a b : Expr} (h : a.outlineLines = b.outlineLines) :
    a.label.toList.head? = b.label.toList.head? := by
  rw [← head?_outline, ← head?_outline, outline, outline, h]

theorem resembles_of_outlineLines_eq {a b : Expr} (h : a.outlineLines = b.outlineLines) :
    a.Resembles b := by
  -- the names of the four nodes begin differently, so both trees have the same node on top
  induction a generalizing b with
  | binary left operator right ihl ihr =>
    cases b with
    | binary left' operator' right' =>
      have hparts := (List.cons.inj h).2
      rw [List.append_assoc, List.append_assoc] at hparts
      obtain ⟨hop, hrest⟩ := branch_append_inj (leafLines_ne_nil _ _) (leafLines_ne_nil _ _)
        (opens_branch_append left.outlineLines_ne_nil)
        (opens_branch_append left'.outlineLines_ne_nil) hparts
      obtain ⟨hl, hr⟩ := branch_append_inj left.outlineLines_ne_nil left'.outlineLines_ne_nil
        (opens_branch right.outlineLines_ne_nil) (opens_branch right'.outlineLines_ne_nil) hrest
      have hr := branch_inj right.outlineLines_ne_nil right'.outlineLines_ne_nil hr
      exact .binary (ihl hl) (leafLines_inj hop) (ihr hr)
    | _ => exact absurd (head?_label_eq h) (by simp [label])
  | grouping inner ih =>
    cases b with
    | grouping inner' =>
      have hparts := (List.cons.inj h).2
      exact .grouping (ih (branch_inj inner.outlineLines_ne_nil inner'.outlineLines_ne_nil hparts))
    | _ => exact absurd (head?_label_eq h) (by simp [label])
  | literal value =>
    cases b with
    | literal value' => exact .literal (leafLines_inj h)
    | _ => exact absurd (head?_label_eq h) (by simp [label])
  | unary operator operand ih =>
    cases b with
    | unary operator' operand' =>
      have hparts := (List.cons.inj h).2
      obtain ⟨hop, hrest⟩ := branch_append_inj (leafLines_ne_nil _ _) (leafLines_ne_nil _ _)
        (opens_branch operand.outlineLines_ne_nil) (opens_branch operand'.outlineLines_ne_nil)
        hparts
      have he := branch_inj operand.outlineLines_ne_nil operand'.outlineLines_ne_nil hrest
      exact .unary (leafLines_inj hop) (ih he)
    | _ => exact absurd (head?_label_eq h) (by simp [label])

/-- **The outline determines the expression.** Two expressions have one outline exactly if they resemble
each other, even where the texts in them run over several lines and look like lines of an outline. -/
theorem outline_eq_iff (a b : Expr) : a.outline = b.outline ↔ a.Resembles b := by
  constructor
  · intro h
    apply resembles_of_outlineLines_eq
    rw [← lines_outline, ← lines_outline, h]
  · intro h
    rw [outline, outline, outlineLines_eq_of_resembles h]

end Trellis.Expr
