import Trellis.Diagnostic.Sink
import Trellis.Parse.Rule

/-!
# Parsing with a cursor

A parser holds a list of tokens and a cursor into it, the depth of open parentheses and prefix
operators, the errors recorded so far, and a sink. Its cursor can be moved one token at a time or by a
grammar rule. A whole parse begins at depth zero; where it fails, the error is recorded and the cursor
goes on to a place where a statement may begin, so that parsing can be tried again from there.

* `Parser.parse`: reads one expression, or records one error and moves on;
* `Parser.runRule`: reads a tree by one rule and reports a failure to the sink;
* `Parser.synchronize`: moves past tokens up to a likely statement boundary;
* `Parser.consume`, `Parser.matchAny`, `Parser.advance`: the single steps of the cursor.
-/

namespace Trellis

/-- A parser between two steps. -/
structure Parser where
  tokens : List Token
  /-- The number of tokens before the cursor. -/
  current : Nat := 0
  /-- The parentheses and prefix operators that count as open. -/
  depth : Nat := 0
  errors : List ParseError := []
  sink : Sink := {}

/-- The kinds of tokens that end a statement. -/
def statementEnds : List TokenKind := [.semicolon]

/-- The kinds of tokens that begin a statement. -/
def statementStarts : List TokenKind :=
  [.kwClass, .kwFun, .kwVar, .kwFor, .kwIf, .kwWhile, .kwPrint, .kwReturn]

/-- How many tokens to discard after the token `previous`, up to the end of input, the place after a
statement's end, or the place before a statement's beginning. -/
def countToBoundary (previous : Token) : List Token → Nat
  | [] => 0
  | t :: rest =>
    if t.kind = .endOfInput ∨ previous.kind ∈ statementEnds ∨ t.kind ∈ statementStarts then 0
    else countToBoundary t rest + 1

namespace Parser

/-- The tokens from the cursor on. -/
def rest (p : Parser) : List Token := p.tokens.drop p.current

/-- The line for errors past the last token: that of the last token, or else the first line. -/
def endLine (p : Parser) : Int := (p.tokens.getLast?.map (·.line)).getD 1

/-- No token is left, or the next one marks the end of input. -/
def isAtEnd (p : Parser) : Bool :=
  match p.rest with
  | [] => true
  | t :: _ => t.kind == .endOfInput

/-- The next token is of the given kind, and is not the end of input. -/
def check (p : Parser) (kind : TokenKind) : Bool :=
  match p.rest with
  | [] => false
  | t :: _ => t.kind != .endOfInput && t.kind == kind

/-- The next token; the cursor moves past it. -/
def advance (p : Parser) : Except CursorError Token × Parser :=
  match p.rest with
  | [] => (.error .advanceAtEnd, p)
  | t :: _ => (.ok t, { p with current := p.current + 1 })

/-- The next token. -/
def peek (p : Parser) : Except CursorError Token :=
  match p.rest with
  | [] => .error .peekAtEnd
  | t :: _ => .ok t

/-- The token before the cursor. -/
def previous (p : Parser) : Except CursorError Token :=
  match (p.tokens.take p.current).getLast? with
  | none => .error .previousAtStart
  | some t => .ok t

/-- Moves past the next token if it is of one of the given kinds. -/
def matchAny (p : Parser) (kinds : List TokenKind) : Bool × Parser :=
  if kinds.any p.check then (true, { p with current := p.current + 1 }) else (false, p)

/-- Reports an error to the sink. -/
def reportError (p : Parser) (e : ParseError) : Parser := { p with sink := p.sink.add e.diagnostic }

/-- Moves past the next token, which has to be of the given kind. -/
def consume (p : Parser) (kind : TokenKind) (message : String) : Except ParseError Token × Parser :=
  match p.rest with
  | t :: _ =>
    if p.check kind then (.ok t, { p with current := p.current + 1 })
    else
      let e : ParseError := ⟨.missingToken kind message, some t, t.line⟩
      (.error e, p.reportError e)
  | [] =>
    let e : ParseError := ⟨.missingToken kind message, none, p.endLine⟩
    (.error e, p.reportError e)

/-- Reads a tree by a rule from the cursor on. A failure is reported to the sink and leaves the cursor
and the depth where it arose. -/
def runRule (p : Parser) (rule : Rule) : Except ParseError Expr × Parser :=
  match rule.parse p.endLine p.depth p.rest with
  | .ok found => (.ok found.tree, { p with current := p.tokens.length - found.rest.length })
  | .error f =>
    (.error f.error,
      { p with current := p.tokens.length - f.rest.length, depth := f.depth }.reportError f.error)

/-- Discards the next token and those up to a statement boundary. -/
def synchronize (p : Parser) : Parser :=
  match p.rest with
  | [] => p
  | t :: rest => { p with current := p.current + 1 + countToBoundary t rest }

/-- Reads one expression from the cursor on; after an error there is no tree, and the cursor has moved
on to a statement boundary. -/
def parse (p : Parser) : Option Expr × Parser :=
  match { p with depth := 0 }.runRule .expression with
  | (.ok tree, q) => (some tree, q)
  | (.error e, q) =>
    (none,
      { q with
        errors := q.errors ++ [e]
        sink := q.sink.trace "crumble.parser.parser"
          ("parse failed: " ++ e.diagnostic.headline) }.synchronize)

/-- Puts the cursor after the given number of tokens. -/
def setCurrent (p : Parser) (current : Nat) : Parser := { p with current }

/-- Gives the parser other tokens, with the cursor before the first. -/
def setTokens (p : Parser) (tokens : List Token) : Parser := { p with tokens, current := 0 }

/-- Clears the parser's sink. -/
def resetSink (p : Parser) : Parser := { p with sink := p.sink.reset }

end Parser

/-- Parses one expression from the front of a list of tokens. -/
def parseTokens (tokens : List Token) (sink : Sink) : Option Expr × Sink :=
  let (tree, p) := { tokens, sink : Parser }.parse
  (tree, p.sink)

end Trellis
