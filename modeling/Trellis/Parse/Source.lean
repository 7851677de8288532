import Trellis.Parse.Session
import Trellis.Scan.Basic

/-!
# Parsing source text

Source text is scanned and its tokens are parsed; the errors of both go to one sink. Parsing runs over
the tokens that were found even if the scan reported errors.
-/

namespace Trellis

/-- Parses one expression from source text. -/
def parseSource (source : String) (sink : Sink) : Option Expr × Sink :=
  let found := scan source
  parseTokens found.tokens (found.reportTo sink)

end Trellis
