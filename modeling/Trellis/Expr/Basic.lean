import Trellis.Token.Basic

/-!
# Expressions

An expression is a binary operation, an expression in parentheses, a literal, or a prefix operation.
Operations keep the token of their operator.

Expressions of any height are walked and compared. A comparison that recurses on a stack of limited depth may
run out of it on a long chain of operators; that limit is idealised away.

* `Expr.children`, `Expr.preorder`: the parts of an expression, and all of its nodes with their depths;
* `Expr.same`: equality of expressions; literals compare by kind and value, and operators as tokens;
* `Expr.countDistinct`: how many different expressions a list holds.
-/

namespace Trellis

/-- An expression tree. -/
inductive Expr where
  | binary (left : Expr) (operator : Token) (right : Expr)
  | grouping (inner : Expr)
  | literal (value : Value)
  | unary (operator : Token) (operand : Expr)
deriving DecidableEq, Inhabited

namespace Expr

/-- The name of the topmost node. -/
def label : Expr → String
  | .binary .. => "Binary"
  | .grouping _ => "Grouping"
  | .literal _ => "Literal"
  | .unary .. => "Unary"

/-- The direct parts of an expression, from left to right. -/
def children : Expr → List Expr
  | .binary left _ right => [left, right]
  | .grouping inner => [inner]
  | .literal _ => []
  | .unary _ operand => [operand]

/-- The names of all nodes with their depths, each node before its parts. -/
def preorder (depth : Nat) : Expr → List (Nat × String)
  | e@(.binary left _ right) =>
    (depth, e.label) :: preorder (depth + 1) left ++ preorder (depth + 1) right
  | e@(.grouping inner) => (depth, e.label) :: preorder (depth + 1) inner
  | e@(.literal _) => [(depth, e.label)]
  | e@(.unary _ operand) => (depth, e.label) :: preorder (depth + 1) operand

theorem preorder_eq_children (depth : Nat) (e : Expr) :
    e.preorder depth = (depth, e.label) :: e.children.flatMap (preorder (depth + 1)) := by
  cases e <;> simp [preorder, children]

/-- Equality of expressions: the same shape, operators that agree, literals of one kind and value. -/
def same : Expr → Expr → Bool
  | .binary l o r, .binary l' o' r' => l.same l' && o.agrees o' && r.same r'
  | .grouping e, .grouping e' => e.same e'
  | .literal v, .literal v' => v.same v'
  | .unary o e, .unary o' e' => o.agrees o' && e.same e'
  | _, _ => false

/-- Equality of expressions that may be missing: a missing one is equal to a missing one only. -/
def sameOption : Option Expr → Option Expr → Bool
  | none, none => true
  | some e, some e' => e.same e'
  | _, _ => false

/-- How many different expressions a list holds. -/
def countDistinct (es : List (Option Expr)) : Nat :=
  (es.foldl (fun seen e => if seen.any (sameOption e) then seen else e :: seen) []).length

end Expr

end Trellis
