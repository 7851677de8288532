import Trellis.Diagnostic.Basic

/-!
# The sink of diagnostics

A sink keeps the diagnostics of a run in the order they were added, remembers whether one of them was
an error, and writes the headline of each to its stream. A sink that traces also keeps a log of what the
program does, one stamped line for each step. The log is not part of the stream, though a console that
gets both shows their lines in the order they came. Resetting forgets the diagnostics but takes back
nothing that was written.

* `Entry`: a line of the stream or of the log;
* `Sink.add`, `Sink.addAll`, `Sink.report`: record diagnostics;
* `Sink.trace`: write a line about the program's progress, if the sink traces;
* `Sink.reset`: start over;
* `Sink.written`, `Sink.console`: the text of the stream, and that of stream and log together.
-/

namespace Trellis

/-- A line that is written. -/
inductive Entry where
  /-- The headline of a diagnostic, on the stream. -/
  | headline (d : Diagnostic)
  /-- A stamped line about the progress of a part of the program, in the log. -/
  | progress (stamp part message : String)
deriving DecidableEq

namespace Entry

/-- The text of a line. -/
def text : Entry → String
  | .headline d => d.headline ++ "\n"
  | .progress stamp part message => stamp ++ " " ++ part ++ " DEBUG " ++ message ++ "\n"

/-- What a line adds to the stream; one of the log adds nothing. -/
def onStream : Entry → String
  | e@(.headline _) => e.text
  | .progress .. => ""

end Entry

/-- The diagnostics of a run and the lines written about them. -/
structure Sink where
  diagnostics : List Diagnostic := []
  hadError : Bool := false
  /-- A silent sink has no stream; it records diagnostics and writes no headlines. -/
  silent : Bool := false
  /-- The stamp that begins each line of the log; without one nothing is traced. -/
  stamp : Option String := none
  /-- The lines of the stream and of the log, in the order they were written. -/
  entries : List Entry := []
deriving DecidableEq, Inhabited

namespace Sink

/-- Writes a line. -/
def write (s : Sink) (e : Entry) : Sink := { s with entries := s.entries ++ [e] }

/-- The text written to the stream. -/
def written (s : Sink) : String := String.join (s.entries.map Entry.onStream)

/-- What a console shows that gets both the stream and the log. -/
def console (s : Sink) : String := String.join (s.entries.map Entry.text)

/-- Writes a line about the progress of a part of the program, if the sink traces. -/
def trace (s : Sink) (part message : String) : Sink :=
  match s.stamp with
  | none => s
  | some stamp => s.write (.progress stamp part message)

/-- Writes the headline of a diagnostic, unless the sink is silent. -/
def writeHeadline (s : Sink) (d : Diagnostic) : Sink :=
  if s.silent then s else s.write (.headline d)

/-- Records a diagnostic and writes its headline. -/
def add (s : Sink) (d : Diagnostic) : Sink :=
  ({ s with diagnostics := s.diagnostics ++ [d], hadError := s.hadError || d.isError }.trace
    "crumble.diagnostics" ("diagnostic " ++ d.details)).writeHeadline d

/-- Records diagnostics in order. -/
def addAll (s : Sink) (ds : List Diagnostic) : Sink := ds.foldl add s

/-- Records an error with the given message. -/
def report (s : Sink) (line : Int) (message : String) (location : String := "") : Sink :=
  s.add { message, line, location }

/-- Forgets the diagnostics and whether there was an error. -/
def reset (s : Sink) : Sink := { s with diagnostics := [], hadError := false }

/-- The recorded diagnostics that count as errors. -/
def errors (s : Sink) : List Diagnostic := s.diagnostics.filter (·.isError)

end Sink

end Trellis
