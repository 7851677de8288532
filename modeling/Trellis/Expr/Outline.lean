import Trellis.Expr.Basic
import Trellis.Text.Lines

/-!
# The outline of an expression

The outline of an expression is an indented text: the name of a node, and below it the outlines of its
parts, joined to it by branches. An operator is shown as a first part. A text that runs over several
lines is indented as a whole.

An expression of any height has an outline. The height has no bound, since the limit on nesting does not
count the operations of a chain such as `1 + 1 + 1`; where outlining such a chain recurses on a stack of
limited depth, it may run out of it. That limit is idealised away.

* `Expr.outlineLines`: the lines of the outline;
* `Expr.outline`: the outline as one text.
-/

namespace Trellis.Expr

/-- Joins the lines of a part to its node: a branch before the first line, and the trunk or, after the
last part, blanks before the others. -/
def branch (last : Bool) : List String → List String
  | [] => []
  | first :: rest =>
    ((if last then "└── " else "├── ") ++ first)
      :: rest.map ((if last then "    " else "│   ") ++ ·)

/-- A label with a text, which may run over several lines. -/
def leafLines (label text : String) : List String := Text.lines (label ++ ": " ++ text)

/-- The lines of the outline of an expression. -/
def outlineLines : Expr → List String
  | e@(.binary left operator right) =>
    e.label :: (branch false (leafLines "Operator" operator.lexeme)
      ++ branch false left.outlineLines ++ branch true right.outlineLines)
  | e@(.grouping inner) => e.label :: branch true inner.outlineLines
  | e@(.literal value) => leafLines e.label value.spelling
  | e@(.unary operator operand) =>
    e.label :: (branch false (leafLines "Operator" operator.lexeme)
      ++ branch true operand.outlineLines)

/-- The outline of an expression. -/
def outline (e : Expr) : String := "\n".intercalate e.outlineLines

end Trellis.Expr
