/-!
# Usage and help texts

The texts that tell how the command is used: two lines of usage, which also stand above every report
of a mistake, and the full help.
-/

namespace Trellis.CommandLine

/-- The name of the command. -/
def commandName : String := "crumble"

/-- How the command is used. -/
def usage : String :=
  "usage: crumble [-h] [--tokens] [--log-level \x7bDEBUG,INFO,WARNING,ERROR\x7d]\n"
    ++ "               [script ...]\n"

/-- The full help text. -/
def helpText : String :=
  usage ++ "\n"
    ++ "Scan and parse Crumble expressions\n"
    ++ "\n"
    ++ "positional arguments:\n"
    ++ "  script                Source file to run (omit for the interactive prompt)\n"
    ++ "\n"
    ++ "options:\n"
    ++ "  -h, --help            show this help message and exit\n"
    ++ "  --tokens              Print tokens instead of the syntax tree\n"
    ++ "  --log-level \x7bDEBUG,INFO,WARNING,ERROR\x7d\n"
    ++ "                        Logging level (default: WARNING)\n"
    ++ "\n"
    ++ "Examples:\n"
    ++ "    crumble                      # Interactive prompt\n"
    ++ "    crumble expr.cr              # Parse a file and print its tree\n"
    ++ "    crumble --tokens expr.cr     # Print the token stream\n"
    ++ "        \n"

/-- The text printed when more than one script is named. -/
def oneScriptText : String := "Usage: crumble [script]\n"

end Trellis.CommandLine
