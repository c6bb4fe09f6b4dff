import ColumnLineage.Command.Config
import ColumnLineage.Command.Directory
import ColumnLineage.Command.FilePattern
import ColumnLineage.Command.Summary

/-!
# Running commands

What each command does on a host, and how it ends. A failure leaves what was written before it.
-/

namespace ColumnLineage

/-! ## Endings -/

/-- Why a command gives up. -/
inductive Failure
  /-- The configuration file cannot be read. -/
  | configUnreadable (path : String)
  /-- The configuration file holds no configuration. -/
  | configInvalid (path : String)
  /-- The directory for the results cannot be made. -/
  | outputDirectory (path : String)
  | dialect (unknown : Dialect.Unknown)
  | format (name : String)
  /-- The directory of the scripts does not exist. -/
  | directoryMissing (path : String)
  /-- The description of the catalog cannot be read. -/
  | schemaMissing (path : String)
  /-- The description of the catalog describes none. -/
  | schemaInvalid (path : String)
  | reportUnwritten
  | file (fault : FileFault)
  | pattern (fault : PatternFault)
deriving DecidableEq, Repr

def Failure.message : Failure → String
  | .configUnreadable path => "Could not read config file '" ++ path ++ "'"
  | .configInvalid path => "Invalid config file '" ++ path ++ "'"
  | .outputDirectory path => "Could not create output directory '" ++ path ++ "'"
  | .dialect unknown => unknown.message
  | .format name => "Unknown output format '" ++ name ++ "'. Use 'human' or 'json'."
  | .directoryMissing path => "Directory not found: '" ++ path ++ "'"
  | .schemaMissing path => "Schema file not found at '" ++ path ++ "'"
  | .schemaInvalid path => "Could not parse JSON from schema file '" ++ path ++ "'"
  | .reportUnwritten => "Failed to write output files"
  | .file fault => fault.message
  | .pattern fault => fault.message

/-- How a command ends. -/
inductive Ending
  | success
  | findings
  | unreadable (error : ScriptError)
  | failure (reason : Failure)
  /-- The command line cannot be understood. -/
  | misuse

namespace Ending

def code : Ending → Nat
  | .success => 0
  | .findings | .unreadable _ => 1
  | .failure _ | .misuse => 2

def message? : Ending → Option String
  | .success | .findings | .misuse => none
  | .unreadable error => some ("Parse error: " ++ error.message)
  | .failure reason => some reason.message

end Ending

/-! ## Files -/

section run

variable {m : Type → Type} [Monad m] [Host m]

/-- What a file operation gives, or the failure that `fail` makes of its fault. -/
def attempt {α : Type} (operation : m (Except FileFault α)) (fail : FileFault → Failure) :
    ExceptT Failure m α := do
  match ← operation with
  | .ok a => return a
  | .error fault => throw (fail fault)

/-- The value, or a failure if there is none. -/
def require {α : Type} (value : Option α) (failure : Failure) : ExceptT Failure m α :=
  match value with
  | some a => return a
  | none => throw failure

def resolveDialect (name : String) : ExceptT Failure m Dialect :=
  match Dialect.ofName name with
  | .ok dialect => return dialect
  | .error unknown => throw (.dialect unknown)

def loadCatalog (path : String) : ExceptT Failure m Catalog := do
  let document ← attempt (Host.read path) fun _ => .schemaMissing path
  require (Catalog.ofJson document).toOption (.schemaInvalid path)

/-! ## Configuration -/

def loadConfig (path : String) : ExceptT Failure m Config := do
  let text ← attempt (Host.read path) fun _ => .configUnreadable path
  require (Config.ofText? text) (.configInvalid path)

/-- The place of a configuration file in the directory whose components are given, last first. -/
def configPath (directory : List String) : String :=
  "/" ++ "/".intercalate (directory.reverse ++ [Config.fileName])

/-- The configuration in a directory or in the nearest one above it that has one. The components
of the directory are given last first. -/
def findConfig : List String → ExceptT Failure m Config
  | [] => inDirectory [] (return {})
  | name :: above => inDirectory (name :: above) (findConfig above)
where
  /-- The configuration in a directory, or else what is found elsewhere. -/
  inDirectory (directory : List String) (elsewhere : ExceptT Failure m Config) :
      ExceptT Failure m Config := do
    let path := configPath directory
    if ← (Host.isPresent path : m Bool) then loadConfig path else elsewhere

def configFor (a : AnalyzeArguments) : ExceptT Failure m Config := do
  let config ← match a.config with
    | some path => loadConfig path
    | none => do findConfig (← (Host.here : m Path)).reverse
  return config.withArguments a

/-! ## Analysis -/

/-- The directory for results if nothing is said. -/
def defaultOutputDirectory : String := "lineage_results"

def logFileName : String := "lineage_analysis.log"

def reportFileName : String := "lineage_report.json"

/-- The name of the description of a catalog that was discovered. -/
def schemaFileName : String := "generated_schema.json"

def logOpening (level : LogLevel) : String :=
  if level.showsProgress then "INFO Starting lineage analysis process...\n" else ""

def makeOutputDirectory (path : String) : ExceptT Failure m Unit :=
  attempt (Host.makeDirectories path) fun _ => .outputDirectory path

/-- The format of a name; a summary if nothing is said. -/
def resolveFormat (name : Option String) : ExceptT Failure m OutputFormat :=
  match name with
  | none => return .human
  | some name => require (OutputFormat.ofName? name) (.format name)

/-- How scripts are analysed under a configuration. -/
def optionsFor (c : Config) : ExceptT Failure m AnalysisOptions := do
  let dialect ← match c.dialect with
    | some name => resolveDialect name
    | none => pure .greenplum
  return { dialect, defaultCatalog := c.defaultCatalog, defaultSchema := c.defaultSchema,
           limit := c.maxDepth.getD defaultLimit }

/-- The script at a path in a directory, if it can be read. -/
def readScript (directory : String) (path : Path) : m (Option ScriptFile) := do
  match ← Host.read (Path.join directory ("/".intercalate path)) with
  | .ok text => return some ⟨path, text⟩
  | .error _ => return none

/-- The scripts at paths in a directory; those that cannot be read are left out. -/
def readScripts (directory : String) (paths : List Path) : m (List ScriptFile) := do
  return (← paths.mapM (readScript directory)).filterMap id

/-- The catalog for scripts: the one that a file describes, or else what fits the scripts. -/
def catalogFor (schema : Option String) (dialect : Dialect) (scripts : List ScriptFile) :
    ExceptT Failure m Catalog :=
  match schema with
  | some path => loadCatalog path
  | none => return discoverCatalog dialect scripts

/-- What the analysis of a directory gives. -/
structure DirectoryAnalysis where
  /-- The catalog of the tables that scripts read. -/
  catalog : Catalog
  report : Report

/-- Analyses the scripts of a directory. Without scripts there is nothing to analyse. -/
def analyzeDirectory (directory : String) (schema : Option String) (o : AnalysisOptions) :
    ExceptT Failure m (Option DirectoryAnalysis) := do
  unless ← (Host.isDirectory directory : m Bool) do throw (.directoryMissing directory)
  let paths := scriptPaths (← (Host.below directory none : m (List Entry)))
  if paths.isEmpty then return none
  let scripts ← (readScripts directory paths : m (List ScriptFile))
  let catalog ← catalogFor schema o.dialect scripts
  return some ⟨catalog, ← (Host.now : m Timestamp), o.analyzeFiles catalog scripts⟩

/-- Writes a document into the directory for results. -/
def writeResult (directory name : String) (document : Json) (fail : FileFault → Failure) :
    ExceptT Failure m Unit :=
  attempt (Host.write (Path.join directory name) document.pretty) fail

/-- Analyses the scripts of a directory and writes what is found. -/
def runAnalyze (level : LogLevel) (a : AnalyzeArguments) : ExceptT Failure m Ending := do
  let config ← configFor a
  let output := config.outputDirectory.getD defaultOutputDirectory
  makeOutputDirectory output
  attempt (Host.write (Path.join output logFileName) (logOpening level)) .file
  let options ← optionsFor config
  let format ← resolveFormat config.format
  let some ⟨catalog, report⟩ ← analyzeDirectory a.directory config.schema options
    | return .success
  makeOutputDirectory output
  if config.schema.isNone then writeResult output schemaFileName catalog.json .file
  writeResult output reportFileName report.json fun _ => .reportUnwritten
  match format with
  | .human => (Host.print report.findings.summary : m Unit)
  | .json => (Host.print (report.json.pretty ++ "\n") : m Unit)
  return if report.findings.hasErrors then .findings else .success

/-! ## Other commands -/

/-- The paths that an argument means: those of a pattern, or the path that it is. -/
def expandArgument (argument : String) : ExceptT Failure m (List String) :=
  if argument.toList.contains '*' then
    match FilePattern.ofText argument with
    | .ok pattern => (pattern.expand : m (List String))
    | .error fault => throw (.pattern fault)
  else return [argument]

def runTables (arguments : List String) (dialect : String) : ExceptT Failure m Ending := do
  let dialect ← resolveDialect dialect
  let files := (← arguments.mapM expandArgument).flatten
  let tables ← files.mapM fun file => do
    return discoverTables dialect (← attempt (Host.read file) .file)
  (Host.print (textOfLines (Text.sorted tables.flatten)) : m Unit)
  return .success

/-- Shows the catalog that a file describes. -/
def runSchema (file : String) : ExceptT Failure m Ending := do
  let catalog ← loadCatalog file
  (Host.print catalog.summary : m Unit)
  return .success

def runParse (file dialect : String) : ExceptT Failure m Ending := do
  let dialect ← resolveDialect dialect
  let sql ← attempt (Host.read file) .file
  match Script.parse dialect false sql with
  | .ok statements =>
    (Host.print (Script.summary statements) : m Unit)
    return .success
  | .error e => return .unreadable e

def CommandLine.run (a : CommandLine) : ExceptT Failure m Ending :=
  match a.command with
  | .analyze arguments => runAnalyze a.level arguments
  | .tables files dialect => runTables files dialect
  | .schema file => runSchema file
  | .parse file dialect => runParse file dialect

def usage : String :=
  textOfLines [
    "Generate table and column lineage from Greenplum SQL scripts",
    "",
    "Usage: " ++ programName ++ " [OPTIONS] <COMMAND>",
    "",
    "Commands:",
    "  analyze  Analyze every .sql file of a directory and write a lineage report",
    "  tables   List the source tables referenced by SQL files",
    "  schema   Display the contents of a schema JSON file",
    "  parse    Parse SQL and display statements (for debugging)"]

def runWords (words : List String) : m Ending := do
  match CommandLine.ofWords words with
  | .error .misuse => return .misuse
  | .error .help =>
    Host.print usage
    return .success
  | .error (.version title) =>
    Host.print (title ++ " " ++ programVersion ++ "\n")
    return .success
  | .ok line =>
    match ← line.run.run with
    | .ok ending => return ending
    | .error reason => return .failure reason

end run

end ColumnLineage
