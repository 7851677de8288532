import Trellis.Scan.Basic

/-!
# A scanner that is used again

A scanner holds a source text, a sink, and what the last scan left: the tokens, the errors, and where
it stood at the end. Scanning begins afresh each time; only the line of the last piece outlives a scan
of an empty text, and nothing depends on it.

* `Scanner.tokenize`: scans the current source text;
* `Scanner.setSource`, `Scanner.resetSink`: change what the next scan reads and where it reports.
-/

namespace Trellis

/-- A scanner between two scans. -/
structure Scanner where
  source : String
  sink : Sink := {}
  /-- The offset at which the last piece began. -/
  start : Nat := 0
  /-- The offset after the last character read. -/
  pos : Nat := 0
  line : Nat := 1
  /-- The line on which the last piece began. -/
  startLine : Nat := 1
  tokens : List Token := []
  errors : List LexicalError := []

namespace Scanner

/-- Scans the source text and reports its errors to the sink. -/
def tokenize (s : Scanner) : Scanner :=
  let found := scan s.source
  let last := (placedPieces s.source).getLast?
  { s with
    sink := found.reportTo s.sink
    start := (last.map (·.offset)).getD 0
    pos := s.source.toList.length
    line := lastLine s.source
    startLine := (last.map (·.line)).getD s.startLine
    tokens := found.tokens
    errors := found.errors }

/-- Gives the scanner another source text. -/
def setSource (s : Scanner) (source : String) : Scanner := { s with source }

/-- Clears the scanner's sink. -/
def resetSink (s : Scanner) : Scanner := { s with sink := s.sink.reset }

/-- The last scan found an error. -/
def hasErrors (s : Scanner) : Bool := !s.errors.isEmpty

end Scanner

end Trellis
