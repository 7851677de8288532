import Trellis.Expr.Basic

/-!
# Sets of expressions

A set keeps an expression if it holds no equal one yet. It compares an expression only with those of the same
hash, so that hashes have to respect equality. An expression is hashed along its structure. How values,
kinds and lines are hashed and how hashes are combined is left open, but for one thing: values that agree
have one hash, even where one is a truth value and the other a number.

Expressions of any height are hashed and put into sets. As in comparing them, the depth of the stack that a
long chain of operators takes is idealised away.

* `Hashing`: a way to hash; `Hashing.residues`: one such way;
* `Expr.hash`: the hash of an expression;
* `Hashing.collect`: the set of the expressions in a list.
-/

namespace Trellis

/-- The types of values. -/
inductive ValueType where
  | null | truth | number | text

/-- The type of a value. -/
def Value.type : Value → ValueType
  | .null => .null
  | .truth _ => .truth
  | .number _ => .number
  | .text _ => .text

/-- A way to hash what an expression is made of. -/
structure Hashing where
  value : Value → Int
  value_eq : ∀ v w, v.agrees w = true → value v = value w
  type : ValueType → Int
  kind : TokenKind → Int
  line : Int → Int
  combine : List Int → Int

/-- The hash of a token. -/
def Token.hash (h : Hashing) (t : Token) : Int :=
  h.combine [h.kind t.kind, h.value (.text t.lexeme), h.value t.literal, h.line t.line]

/-- The hash of an expression. That of a literal is made from the type of its value, too. -/
def Expr.hash (h : Hashing) : Expr → Int
  | .binary left operator right => h.combine [left.hash h, operator.hash h, right.hash h]
  | .grouping inner => h.combine [inner.hash h]
  | .literal value => h.combine [h.type value.type, h.value value]
  | .unary operator operand => h.combine [operator.hash h, operand.hash h]

namespace Hashing

/-- Puts an expression into a set, unless an equal one of the same hash is there. -/
def insert (h : Hashing) (seen : List Expr) (e : Expr) : List Expr :=
  if seen.any fun x => x.hash h == e.hash h && x.same e then seen else e :: seen

/-- The set of the expressions in a list, which are put into it one after another. -/
def collect (h : Hashing) (es : List Expr) : List Expr := es.foldl h.insert []

/-! ## Residues -/

/-- The residue of a magnitude modulo `2 ^ 61 - 1`, for which `2 ^ -1074` is `2 ^ 24`. -/
def residue (m : Magnitude) : Nat :=
  if m = .infinity then 314159 else m.units * Nat.pow 2 24 % (Nat.pow 2 61 - 1)

/-- The hash of a number: its residue with its sign. -/
def number : Number → Int
  | .nan => 0
  | .signed negative m =>
    let r : Int := if negative then -(residue m : Int) else residue m
    if r = -1 then -2 else r

/-- The hash of characters, each counted in a higher place than the one before it. -/
def text (cs : List Char) : Int := cs.foldr (fun c n => c.toNat + 1114112 * n) 0

/-- The hash of a value; a truth value is hashed as a number. -/
def ofValue : Value → Int
  | .null => 0
  | .truth b => number (Value.numberOfTruth b)
  | .number x => number x
  | .text s => text s.toList

theorem number_eq {x y : Number} (h : x.agrees y = true) : number x = number y := by
  cases x with
  | nan => cases h
  | signed n m =>
    cases y with
    | nan => cases h
    | signed n' m' =>
      simp only [Number.agrees, Bool.and_eq_true, Bool.or_eq_true, beq_iff_eq] at h
      obtain ⟨rfl, rfl | rfl⟩ := h
      · rfl
      · have hzero : residue .zero = 0 := by decide
        cases n <;> cases n' <;> simp [number, hzero]

theorem ofValue_eq (v w : Value) (h : v.agrees w = true) : ofValue v = ofValue w := by
  cases v with
  | null =>
    cases w with
    | null => rfl
    | _ => cases h
  | truth a =>
    cases w with
    | truth b => exact congrArg (fun b => number (Value.numberOfTruth b)) (beq_iff_eq.1 h)
    | number y => exact number_eq h
    | _ => cases h
  | number x =>
    cases w with
    | truth b => exact number_eq h
    | number y => exact number_eq h
    | _ => cases h
  | text s =>
    cases w with
    | text s' => exact congrArg (fun s : String => text s.toList) (beq_iff_eq.1 h)
    | _ => cases h

/-- A way to hash in which numbers are hashed by their residues. -/
def residues : Hashing where
  value := ofValue
  value_eq := ofValue_eq
  type
    | .null => 1
    | .truth => 2
    | .number => 3
    | .text => 4
  kind k := text k.name.toList
  line n := n
  combine hs := hs.foldl (fun n h => 1000003 * n + h) hs.length

end Hashing

end Trellis
