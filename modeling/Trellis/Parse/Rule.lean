import Trellis.Expr.Basic
import Trellis.Parse.Error

/-!
# The grammar rules

An expression is read by seven rules, from the loosest to the tightest: a rule for expressions as a
whole, one for each of the four levels of binary operators, one for prefix operators, and one for
literals and parentheses.

    expression  -> equality
    equality    -> comparison ( ( "==" | "!=" ) comparison )*
    comparison  -> term ( ( ">" | ">=" | "<" | "<=" ) term )*
    term        -> factor ( ( "-" | "+" ) factor )*
    factor      -> unary ( ( "/" | "*" ) unary )*
    unary       -> ( "!" | "-" ) unary | primary
    primary     -> NUMBER | STRING | "true" | "false" | "null" | "(" expression ")"

A rule reads a tree from the front of a list of tokens and leaves what follows it, which is always
less than there was; so reading ends. Operators of one level associate to the left. The depth counts
the parentheses and prefix operators that are open; it may not exceed `maxNestingDepth`. There is no other
bound: a stack is taken to hold the calls that this depth asks for.

* `Rule.parse`: reads a tree by a rule;
* `Parsed`: a tree with the tokens after it; `Failure`: an error and where it arose.
-/

namespace Trellis

/-- The greatest number of parentheses and prefix operators open at once. -/
def maxNestingDepth : Nat := 100

/-- The levels of binary operators, loosest first. -/
inductive Level where
  | equality | comparison | term | factor
deriving DecidableEq

/-- The rules of the grammar, loosest first. -/
inductive Rule where
  | expression
  | binary (level : Level)
  | unary
  | primary
deriving DecidableEq

namespace Level

/-- The operators of a level. -/
def operators : Level → List TokenKind
  | .equality => [.equalEqual, .bangEqual]
  | .comparison => [.greater, .greaterEqual, .less, .lessEqual]
  | .term => [.minus, .plus]
  | .factor => [.slash, .star]

/-- The rule for the operands of a level. -/
def operand : Level → Rule
  | .equality => .binary .comparison
  | .comparison => .binary .term
  | .term => .binary .factor
  | .factor => .unary

end Level

namespace Rule

/-- The seven rules, loosest first. -/
def all : List Rule :=
  [.expression, .binary .equality, .binary .comparison, .binary .term, .binary .factor, .unary,
   .primary]

/-- How many rules are tighter than a rule. -/
def height : Rule → Nat
  | .expression => 6
  | .binary .equality => 5
  | .binary .comparison => 4
  | .binary .term => 3
  | .binary .factor => 2
  | .unary => 1
  | .primary => 0

theorem height_le (r : Rule) : r.height ≤ 6 := by
  cases r with
  | binary l => cases l <;> decide
  | _ => decide

end Rule

theorem Level.height_operand_lt (l : Level) : l.operand.height < (Rule.binary l).height := by
  cases l <;> decide

/-- The prefix operators. -/
def prefixOperators : List TokenKind := [.bang, .minus]

/-- A tree and the tokens that follow it, fewer than a given number. -/
structure Parsed (bound : Nat) where
  tree : Expr
  rest : List Token
  length_lt : rest.length < bound

/-- The same tree and tokens under a greater bound. -/
def Parsed.weaken {m n : Nat} (p : Parsed m) (h : m ≤ n) : Parsed n :=
  ⟨p.tree, p.rest, Nat.lt_of_lt_of_le p.length_lt h⟩

/-- An error, with the tokens not yet read and the depth when it arose. -/
structure Failure where
  error : ParseError
  rest : List Token
  depth : Nat

/-- The value of a token that is a literal. -/
def Token.literalValue? (t : Token) : Option Value :=
  match t.kind with
  | .kwFalse => some (.truth false)
  | .kwTrue => some (.truth true)
  | .kwNull => some .null
  | .number | .string => some t.literal
  | _ => none

/-- The fault of a group without its closing parenthesis. -/
def missingParen : ParseFault := .missingToken .rightParen "Expect ')' after expression."

namespace Rule

/-- The failure where an error is found at the next token, or at the end of the list. The line of an
error past the last token is `endLine`. -/
def failAt (fault : ParseFault) (endLine : Int) (depth : Nat) (tokens : List Token) : Failure where
  error := ⟨fault, tokens.head?, (tokens.head?.map (·.line)).getD endLine⟩
  rest := tokens
  depth := depth

/-- The failure where an opening token is nested too deeply. -/
def failNested (opening : Token) (depth : Nat) (rest : List Token) : Failure where
  error := ⟨.nestedTooDeeply, some opening, opening.line⟩
  rest := rest
  depth := depth

/-- Reads the closing parenthesis of a group. -/
def closeGroup (endLine : Int) (depth : Nat) (tokens : List Token) :
    Except Failure { rest : List Token // rest.length ≤ tokens.length } :=
  match tokens with
  | [] => .error (failAt missingParen endLine depth [])
  | t :: rest =>
    if t.kind = .rightParen then .ok ⟨rest, Nat.le_succ _⟩
    else .error (failAt missingParen endLine depth (t :: rest))

mutual

/-- Reads a tree by a rule from the front of a list of tokens. -/
def parse (endLine : Int) (rule : Rule) (depth : Nat) (tokens : List Token) :
    Except Failure (Parsed tokens.length) :=
  match rule, tokens with
  | .expression, tokens => parse endLine (.binary .equality) depth tokens
  | .binary level, tokens =>
    match parse endLine level.operand depth tokens with
    | .error f => .error f
    | .ok left =>
      match parseChain endLine level left.tree depth left.rest with
      | .error f => .error f
      | .ok p => .ok (p.weaken left.length_lt)
  | .unary, [] => parse endLine .primary depth []
  | .unary, t :: rest =>
    if t.kind ∈ prefixOperators then
      if depth + 1 > maxNestingDepth then .error (failNested t (depth + 1) rest)
      else
        match parse endLine .unary (depth + 1) rest with
        | .error f => .error f
        | .ok operand => .ok ⟨.unary t operand.tree, operand.rest, by grind [operand.length_lt]⟩
    else parse endLine .primary depth (t :: rest)
  | .primary, [] => .error (failAt .operandExpected endLine depth [])
  | .primary, t :: rest =>
    match t.literalValue? with
    | some value => .ok ⟨.literal value, rest, Nat.lt_succ_self _⟩
    | none =>
      if t.kind = .leftParen then
        if depth + 1 > maxNestingDepth then .error (failNested t (depth + 1) rest)
        else
          match parse endLine .expression (depth + 1) rest with
          | .error f => .error f
          | .ok inner =>
            match closeGroup endLine (depth + 1) inner.rest with
            | .error f => .error f
            | .ok after =>
              .ok ⟨.grouping inner.tree, after.1, by grind [inner.length_lt, after.2]⟩
      else .error (failAt .operandExpected endLine depth (t :: rest))
termination_by 8 * tokens.length + rule.height
decreasing_by
  · exact Nat.add_lt_add_left (by decide) _
  · exact Nat.add_lt_add_left level.height_operand_lt _
  · have := left.length_lt
    omega
  · decide
  · simp only [List.length_cons]
    omega
  · exact Nat.add_lt_add_left (by decide) _
  · simp only [List.length_cons, Rule.height]
    omega

/-- Reads operators of a level with their right operands, after a left operand has been read. -/
def parseChain (endLine : Int) (level : Level) (left : Expr) (depth : Nat) (tokens : List Token) :
    Except Failure (Parsed (tokens.length + 1)) :=
  match tokens with
  | [] => .ok ⟨left, [], Nat.lt_succ_self _⟩
  | t :: rest =>
    if t.kind ∈ level.operators then
      match parse endLine level.operand depth rest with
      | .error f => .error f
      | .ok right =>
        match parseChain endLine level (.binary left t right.tree) depth right.rest with
        | .error f => .error f
        | .ok p => .ok (p.weaken (by grind [right.length_lt]))
    else .ok ⟨left, t :: rest, Nat.lt_succ_self _⟩
termination_by 8 * tokens.length + 7
decreasing_by
  · have := level.operand.height_le
    simp only [List.length_cons]
    omega
  · have := right.length_lt
    simp only [List.length_cons]
    omega

end

end Rule

end Trellis
