import Trellis.Scan.Basic
import Trellis.Text.Lines

/-!
# Scanning files

The content of a source file is UTF-8, strictly read; its line ends are unified, and a byte order mark
stays a character of the text.
-/

namespace Trellis

/-- Why a file gives no source text. -/
inductive ReadError where
  | cannotOpen
  | notText
deriving DecidableEq

/-- The source text in the content of a file; there is no content if the file cannot be opened. -/
def readSource (content : Option ByteArray) : Except ReadError String :=
  match content with
  | none => .error .cannotOpen
  | some bytes =>
    match String.fromUTF8? bytes with
    | none => .error .notText
    | some text => .ok (Text.unifyNewlines text)

/-- Scans the content of a file. -/
def scanFile (content : Option ByteArray) (sink : Sink) : Except ReadError (Scan × Sink) :=
  match readSource content with
  | .error e => .error e
  | .ok source => .ok (scan source, (scan source).reportTo sink)

end Trellis
