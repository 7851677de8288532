import Trellis.Text.DecimalDigit
import Trellis.Text.Quoted

/-!
# Command line arguments

The command takes any number of operands, which name scripts, and three options. An argument is an
option if it begins with a dash, unless it is a lone dash, a negative number, or holds a space and
names no option. Two dashes alone make operands of all that follows. A long option may be shortened as
long as it stays unique, and its value may follow it after `=`.

Only the first unbroken row of operands names scripts; operands after a later option are refused, as
are unknown options, once all else has been accepted. All arguments are told apart before the first
option takes effect; then options take effect in order, so that the first request for help or the
first mistake decides.

* `Word.ofArgument`: what an argument is;
* `Invocation.ofArguments`: what the arguments ask for;
* `UsageError.message`: how a mistake is reported.
-/

namespace Trellis

/-- How much the program says about its own progress. -/
inductive LogLevel where
  | debug | info | warning | error
deriving DecidableEq

namespace LogLevel

/-- All levels. -/
def all : List LogLevel := [.debug, .info, .warning, .error]

/-- The name of a level as an option value. -/
def name : LogLevel → String
  | .debug => "DEBUG"
  | .info => "INFO"
  | .warning => "WARNING"
  | .error => "ERROR"

/-- The level with a given name. -/
def ofName? (name : String) : Option LogLevel := all.find? (·.name == name)

end LogLevel

/-- An option of the command line. -/
inductive Flag where
  | help | tokens | logLevel
deriving DecidableEq

namespace Flag

/-- Every spelling of an option, in the order in which they are listed. -/
def spellings : List (String × Flag) :=
  [("-h", .help), ("--help", .help), ("--tokens", .tokens), ("--log-level", .logLevel)]

/-- How error messages name an option. -/
def name : Flag → String
  | .help => "-h/--help"
  | .tokens => "--tokens"
  | .logLevel => "--log-level"

end Flag

/-- A mistake in the use of the command line. -/
inductive UsageError where
  /-- A shortened option with several completions. -/
  | ambiguous (argument : String) (completions : List String)
  /-- A value for an option that takes none. -/
  | needlessValue (flag : Flag) (value : String)
  /-- No value for an option that takes one. -/
  | missingValue (flag : Flag)
  | unknownLevel (value : String)
  | unrecognized (arguments : List String)
deriving DecidableEq

/-- The text that reports a mistake. -/
def UsageError.message : UsageError → String
  | .ambiguous argument completions =>
    "ambiguous option: " ++ argument ++ " could match " ++ ", ".intercalate completions
  | .needlessValue flag value =>
    "argument " ++ flag.name ++ ": ignored explicit argument " ++ Text.quoted value
  | .missingValue flag => "argument " ++ flag.name ++ ": expected one argument"
  | .unknownLevel value =>
    "argument " ++ Flag.logLevel.name ++ ": invalid choice: " ++ Text.quoted value
      ++ " (choose from " ++ ", ".intercalate (LogLevel.all.map (Text.quoted ·.name)) ++ ")"
  | .unrecognized arguments => "unrecognized arguments: " ++ " ".intercalate arguments

/-- What an argument is. -/
inductive Word where
  | operand (text : String)
  | flag (flag : Flag) (value : Option String)
  /-- A short request for help with letters given to it, right after it or after `=`. -/
  | helpWith (letters : List Char)
  | unknown (text : String)
deriving DecidableEq

namespace Word

/-- The characters after the dash of a negative number: digits, or a point with digits after it and
perhaps before it. One line feed may follow them. -/
def isNumberTail (text : List Char) : Bool :=
  let body := if text.getLast? = some '\n' then text.dropLast else text
  match body.dropWhile Text.isDecimalDigit with
  | [] => body ≠ []
  | '.' :: fraction => fraction ≠ [] && fraction.all Text.isDecimalDigit
  | _ => false

/-- What is before the first `=` of an argument, and what follows it if there is one. -/
def splitValue (argument : String) : String × Option String :=
  let text := argument.toList
  let name := String.ofList (text.takeWhile (· ≠ '='))
  match text.dropWhile (· ≠ '=') with
  | [] => (name, none)
  | _ :: value => (name, some (String.ofList value))

/-- What an argument is that begins with a dash and spells no option. -/
def ofUnlisted (argument : String) : Word :=
  if isNumberTail (argument.toList.drop 1) ∨ ' ' ∈ argument.toList then .operand argument
  else .unknown argument

/-- What an argument is. -/
def ofArgument (argument : String) : Except UsageError Word :=
  match argument.toList with
  | '-' :: second :: letters =>
    let (name, value) := splitValue argument
    match Flag.spellings.lookup name, value with
    | some .help, some value =>
      if name = "-h" then .ok (.helpWith value.toList) else .ok (.flag .help (some value))
    | some named, value => .ok (.flag named value)
    | none, value =>
      if second = '-' then
        match Flag.spellings.filter (name.toList.isPrefixOf ·.1.toList) with
        | [] => .ok (ofUnlisted argument)
        | [(_, completed)] => .ok (.flag completed value)
        | several => .error (.ambiguous argument (several.map (·.1)))
      else if second = 'h' then .ok (.helpWith letters)
      else .ok (ofUnlisted argument)
  | _ => .ok (.operand argument)

/-- The value given in vain to a short request for help: what is left of the letters given with it
after any that repeat the request. Letters that all repeat it are no value; no letters at all, after
`=`, are an empty one. -/
def needlessValue? (letters : List Char) : Option String :=
  match letters, letters.dropWhile (· = 'h') with
  | _ :: _, [] => none
  | _, value => some (String.ofList value)

end Word

/-- What the options ask for. -/
structure Options where
  scripts : List String := []
  showTokens : Bool := false
  logLevel : LogLevel := .warning
deriving DecidableEq

/-- What a command line asks for. -/
inductive Invocation where
  | help
  | run (options : Options)
  | refuse (error : UsageError)
deriving DecidableEq

/-- The arguments taken so far. -/
structure Progress where
  options : Options := {}
  /-- An option has followed the operands that name scripts. -/
  closed : Bool := false
  /-- The arguments that nothing takes. -/
  extras : List String := []

namespace Progress

/-- Takes an operand. -/
def addOperand (p : Progress) (text : String) : Progress :=
  if p.closed then { p with extras := p.extras ++ [text] }
  else { p with options := { p.options with scripts := p.options.scripts ++ [text] } }

/-- Ends the row of operands that name scripts, if it has begun. -/
def close (p : Progress) : Progress :=
  { p with closed := p.closed || !p.options.scripts.isEmpty }

/-- Takes the operands after two dashes; the dashes belong to those that nothing takes. -/
def addTrailing (p : Progress) : List String → Progress
  | [] => p
  | dashes :: operands =>
    if p.closed then { p with extras := p.extras ++ dashes :: operands }
    else { p with options := { p.options with scripts := p.options.scripts ++ operands } }

end Progress

namespace Invocation

/-- Takes the words before two dashes one after another, and then what follows these. -/
def ofWords (trailing : List String) (p : Progress) : List Word → Invocation
  | [] =>
    let all := p.addTrailing trailing
    if all.extras = [] then .run all.options else .refuse (.unrecognized all.extras)
  | .operand text :: rest => ofWords trailing (p.addOperand text) rest
  | .unknown text :: rest =>
    ofWords trailing { p.close with extras := p.extras ++ [text] } rest
  | .helpWith letters :: _ =>
    match Word.needlessValue? letters with
    | none => .help
    | some value => .refuse (.needlessValue .help value)
  | .flag .help none :: _ => .help
  | .flag .tokens none :: rest =>
    ofWords trailing { p.close with options := { p.options with showTokens := true } } rest
  | .flag .logLevel none :: .operand value :: rest
  | .flag .logLevel (some value) :: rest =>
    match LogLevel.ofName? value with
    | none => .refuse (.unknownLevel value)
    | some logLevel =>
      ofWords trailing { p.close with options := { p.options with logLevel } } rest
  | .flag .logLevel none :: _ => .refuse (.missingValue .logLevel)
  | .flag flag (some value) :: _ => .refuse (.needlessValue flag value)

/-- What the arguments ask for. -/
def ofArguments (arguments : List String) : Invocation :=
  match (arguments.takeWhile (· ≠ "--")).mapM Word.ofArgument with
  | .error e => .refuse e
  | .ok words => ofWords (arguments.dropWhile (· ≠ "--")) {} words

end Invocation

end Trellis
