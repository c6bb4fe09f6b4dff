import ColumnLineage.Text.Digits

/-!
# Command lines

The words of a command line: a command, the words it is given, and options before and behind it.
An option is written `--name value`, `--name=value`, `-n value`, `-nvalue` or `-n=value`, and
options of one letter that take no value may stand in one word. Behind `--` every word is plain.
-/

namespace ColumnLineage

/-! ## Commands -/

/-- How the result of an analysis is printed. -/
inductive OutputFormat
  | human
  | json
deriving DecidableEq, Repr

namespace OutputFormat

def name : OutputFormat → String
  | .human => "human"
  | .json => "json"

def ofName? (name : String) : Option OutputFormat :=
  [OutputFormat.human, .json].find? fun f => f.name = name

end OutputFormat

/-- How much is logged. -/
inductive LogLevel
  | debug
  | info
  | warning
  | error
deriving DecidableEq, Repr

namespace LogLevel

def name : LogLevel → String
  | .debug => "debug"
  | .info => "info"
  | .warning => "warning"
  | .error => "error"

def ofName? (name : String) : Option LogLevel :=
  [LogLevel.debug, .info, .warning, .error].find? fun l => l.name = name

/-- Whether it is logged what is going on. -/
def showsProgress : LogLevel → Bool
  | .debug | .info => true
  | .warning | .error => false

end LogLevel

/-- The analysis of a directory. What is not given is taken from the configuration. -/
structure AnalyzeArguments where
  directory : String
  schema : Option String := none
  outputDirectory : Option String := none
  dialect : Option String := none
  defaultCatalog : Option String := none
  defaultSchema : Option String := none
  /-- How deeply queries are walked at most. -/
  maxDepth : Option Nat := none
  format : Option OutputFormat := none
  config : Option String := none
deriving DecidableEq, Repr

/-- What is to be done. -/
inductive Command
  | analyze (arguments : AnalyzeArguments)
  | tables (files : List String) (dialect : String)
  /-- Show the catalog that a file describes. -/
  | schema (file : String)
  | parse (file : String) (dialect : String)
deriving DecidableEq, Repr

/-- A command line. -/
structure CommandLine where
  command : Command
  verbosity : Nat := 0
  quiet : Bool := false
  /-- The level of logging that is asked for. -/
  logLevel : Option LogLevel := none
deriving DecidableEq, Repr

/-- How much is logged: the level asked for, or else only errors, or else what is going on. -/
def CommandLine.level (a : CommandLine) : LogLevel :=
  a.logLevel.getD (if a.quiet then .error else if a.verbosity = 0 then .info else .debug)

/-- Why a command line leads to no command. -/
inductive Stop
  | misuse
  | help
  /-- It asks for the version of the program of that title. -/
  | version (title : String)
deriving DecidableEq, Repr

/-! ## Options -/

/-- An option of a command. -/
structure OptionRule where
  long : String
  short : Option Char := none
  /-- The values it takes, if it takes one. -/
  accepts : Option (String → Bool) := none
  /-- Whether it may be given more than once. -/
  repeatable : Bool := false

/-- The part of a command line that is read: what stands before the command or behind it. -/
structure ArgumentRules where
  /-- The title under which the version is shown. -/
  title : String
  options : List OptionRule
  /-- Whether reading ends at the first plain word. -/
  endsAtWord : Bool := false
  /-- How many plain words there may be; any number if nothing is said. -/
  places : Option Nat := none

/-- What is read so far. -/
structure GivenArguments where
  /-- The options with their values, in the order in which they are given. -/
  options : List (String × String) := []
  words : List String := []
deriving DecidableEq, Repr

namespace GivenArguments

def has (g : GivenArguments) (long : String) : Bool :=
  g.options.any fun o => o.1 = long

def count (g : GivenArguments) (long : String) : Nat :=
  g.options.countP fun o => o.1 = long

def value? (g : GivenArguments) (long : String) : Option String :=
  (g.options.find? fun o => o.1 = long).map Prod.snd

end GivenArguments

/-- Whether a word is an option. A single line stands for itself. -/
def isOption (word : String) : Bool :=
  word.toList.head? = some '-' && word ≠ "-"

namespace ArgumentRules

def record (r : ArgumentRules) (option : OptionRule) (value : String) (g : GivenArguments) :
    Except Stop GivenArguments :=
  if option.long = "help" then .error .help
  else if option.long = "version" then .error (.version r.title)
  else if !option.repeatable && g.has option.long then .error .misuse
  else if option.accepts.all fun accepts => accepts value then
    .ok { g with options := g.options ++ [(option.long, value)] }
  else .error .misuse

def place (r : ArgumentRules) (g : GivenArguments) (word : String) :
    Except Stop GivenArguments :=
  if word.isEmpty || r.places.any fun n => n ≤ g.words.length then .error .misuse
  else .ok { g with words := g.words ++ [word] }

/-- Reads the options that the letters of a word stand for. The last one may wait for its value,
which is then the next word. -/
def letters (r : ArgumentRules) :
    List Char → GivenArguments → Except Stop (GivenArguments × Option OptionRule)
  | [], g => .ok (g, none)
  | c :: rest, g =>
    match r.options.find? fun o => o.short = some c with
    | none => .error .misuse
    | some option =>
      if option.accepts.isNone then do letters r rest (← r.record option "" g)
      else
        match rest with
        | [] => .ok (g, some option)
        | '=' :: value => do return (← r.record option (String.ofList value) g, none)
        | value => do return (← r.record option (String.ofList value) g, none)

/-- Reads the option that a name stands for, with what follows the name. -/
def named (r : ArgumentRules) (name : List Char) (value : List Char) (g : GivenArguments) :
    Except Stop (GivenArguments × Option OptionRule) :=
  match r.options.find? fun o => o.long = String.ofList name with
  | none => .error .misuse
  | some option =>
    match value with
    | [] =>
      if option.accepts.isNone then do return (← r.record option "" g, none)
      else .ok (g, some option)
    | _ :: value =>
      if option.accepts.isNone then .error .misuse
      else do return (← r.record option (String.ofList value) g, none)

def option (r : ArgumentRules) (word : String) (g : GivenArguments) :
    Except Stop (GivenArguments × Option OptionRule) :=
  match word.toList with
  | '-' :: '-' :: text => r.named (text.takeWhile (· ≠ '=')) (text.dropWhile (· ≠ '=')) g
  | _ :: text => r.letters text g
  | [] => .error .misuse

/-- Reads words, the first of which may be the value that an option waits for. Gives back the
words that are left. -/
def scan (r : ArgumentRules) :
    List String → GivenArguments → Option OptionRule → Except Stop (GivenArguments × List String)
  | [], g, none => .ok (g, [])
  | [], _, some _ => .error .misuse
  | word :: rest, g, some option =>
    if isOption word then .error .misuse
    else do scan r rest (← r.record option word g) none
  | word :: rest, g, none =>
    if word = "--" then
      if r.endsAtWord then .error .misuse else do return (← rest.foldlM r.place g, [])
    else if isOption word then do
      let (g, waiting) ← r.option word g
      scan r rest g waiting
    else if r.endsAtWord then .ok (g, word :: rest)
    else do scan r rest (← r.place g word) none

end ArgumentRules

/-! ## The options of the commands -/

def programName : String := "gplineage"

def programVersion : String := "0.1.0"

/-- The number that a text spells, if it fits into 64 bits. -/
def unsigned? (text : String) : Option Nat :=
  let digits := match text.toList with
    | '+' :: digits => digits
    | digits => digits
  (Text.decimal? digits).filter fun n => n < Nat.pow 2 64

def anyValue (_ : String) : Bool :=
  true

def isPath (value : String) : Bool :=
  !value.isEmpty

/-- The options that stand before or behind any command. -/
def commonOptions : List OptionRule := [
  { long := "verbose", short := some 'v', repeatable := true },
  { long := "quiet", short := some 'q' },
  { long := "log-level", accepts := some fun v => (LogLevel.ofName? v).isSome },
  { long := "help", short := some 'h' },
  { long := "version", short := some 'V' }]

def dialectOption : OptionRule :=
  { long := "dialect", short := some 'd', accepts := some anyValue }

def analyzeOptions : List OptionRule := [
  { long := "schema", short := some 's', accepts := some isPath },
  { long := "output-dir", accepts := some isPath },
  dialectOption,
  { long := "default-catalog", accepts := some anyValue },
  { long := "default-schema", accepts := some anyValue },
  { long := "max-depth", accepts := some fun v => (unsigned? v).isSome },
  { long := "format", short := some 'f', accepts := some fun v => (OutputFormat.ofName? v).isSome },
  { long := "config", short := some 'c', accepts := some isPath }]

def leadingRules : ArgumentRules :=
  { title := programName, options := commonOptions, endsAtWord := true }

/-- The words for commands. -/
inductive Verb
  | analyze
  | tables
  | schema
  | parse
deriving DecidableEq, Repr

namespace Verb

def name : Verb → String
  | .analyze => "analyze"
  | .tables => "tables"
  | .schema => "schema"
  | .parse => "parse"

def ofName? (name : String) : Option Verb :=
  [Verb.analyze, .tables, .schema, .parse].find? fun v => v.name = name

def rules (v : Verb) : ArgumentRules where
  title := programName ++ "-" ++ v.name
  options := commonOptions ++ match v with
    | .analyze => analyzeOptions
    | .tables | .parse => [dialectOption]
    | .schema => []
  places := match v with
    | .tables => none
    | .analyze | .schema | .parse => some 1

def fileDialect (g : GivenArguments) : String :=
  (g.value? "dialect").getD "greenplum"

def command (v : Verb) (g : GivenArguments) : Except Stop Command :=
  match g.words with
  | [] => .error .misuse
  | first :: _ =>
    match v with
    | .tables => .ok (.tables g.words (fileDialect g))
    | .schema => .ok (.schema first)
    | .parse => .ok (.parse first (fileDialect g))
    | .analyze => .ok (.analyze {
        directory := first
        schema := g.value? "schema"
        outputDirectory := g.value? "output-dir"
        dialect := g.value? "dialect"
        defaultCatalog := g.value? "default-catalog"
        defaultSchema := g.value? "default-schema"
        maxDepth := (g.value? "max-depth").bind unsigned?
        format := (g.value? "format").bind OutputFormat.ofName?
        config := g.value? "config" })

end Verb

/-- What `help` leads to: help for the program or for the one command that is named. -/
def helpFor : List String → Stop
  | [] => .help
  | name :: rest =>
    if (name = "help" || (Verb.ofName? name).isSome) && rest.isEmpty then .help else .misuse

def CommandLine.ofWords (words : List String) : Except Stop CommandLine := do
  let (leading, rest) ← leadingRules.scan words {} none
  match rest with
  | [] => .error .misuse
  | name :: rest =>
    match Verb.ofName? name with
    | none => .error (if name = "help" then helpFor rest else .misuse)
    | some verb =>
      let (given, _) ← verb.rules.scan rest {} none
      return {
        command := ← verb.command given
        verbosity := leading.count "verbose" + given.count "verbose"
        quiet := leading.has "quiet" || given.has "quiet"
        logLevel := ((given.value? "log-level").or (leading.value? "log-level")).bind
          LogLevel.ofName? }

end ColumnLineage
