/-!
# Lines of text

Stored text may end its lines in a carriage return, a line feed, or both; `Text.unifyNewlines` makes
each of these one line feed. Text that arrives piece by piece is cut after its line feeds only.

* `Text.unifyNewlines`: the text with every line end turned into a line feed;
* `Text.inputLines`: the lines of a text without their line feeds; what follows the last line feed
  is a line too unless it is empty.
-/

namespace Trellis.Text

/-- Turns every line end into a line feed. -/
def unifyNewlinesChars : List Char → List Char
  | [] => []
  | '\r' :: '\n' :: rest => '\n' :: unifyNewlinesChars rest
  | '\r' :: rest => '\n' :: unifyNewlinesChars rest
  | c :: rest => c :: unifyNewlinesChars rest

/-- The text with every line end turned into a line feed. -/
def unifyNewlines (text : String) : String := String.ofList (unifyNewlinesChars text.toList)

/-- The lines of a text, cut at every line feed: one line more than there are line feeds. -/
def lines (text : String) : List String := (text.toList.splitOn '\n').map String.ofList

/-- The lines of an input, without their line feeds. -/
def inputLines (text : String) : List String :=
  let all := lines text
  if all.getLast? = some "" then all.dropLast else all

end Trellis.Text
