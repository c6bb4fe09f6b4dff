import ColumnLineage.Command.CommandLine
import ColumnLineage.Settings.Document

/-!
# Configuration

What an analysis is told beforehand: the settings of a configuration file, over which the
arguments of the command line win. Settings with other keys are ignored.
-/

namespace ColumnLineage

/-- The settings of an analysis. -/
structure Config where
  schema : Option String := none
  outputDirectory : Option String := none
  dialect : Option String := none
  defaultCatalog : Option String := none
  defaultSchema : Option String := none
  /-- How deeply queries are walked at most. -/
  maxDepth : Option Nat := none
  format : Option String := none
deriving DecidableEq, Repr

namespace SettingValue

def text? : SettingValue → Option String
  | .text s => some s
  | _ => none

/-- The natural number that a setting holds. -/
def natural? : SettingValue → Option Nat
  | .integer n => if n < 0 then none else some n.toNat
  | _ => none

end SettingValue

namespace Config

/-- The name of the configuration file that is looked for. -/
def fileName : String := "gplineage.toml"

/-- Puts a setting in its place, if its value is of the right kind. -/
def set? (c : Config) (key : String) (value : SettingValue) : Option Config :=
  if key = "schema" then value.text?.map fun s => { c with schema := some s }
  else if key = "output_dir" then value.text?.map fun s => { c with outputDirectory := some s }
  else if key = "dialect" then value.text?.map fun s => { c with dialect := some s }
  else if key = "default_catalog" then value.text?.map fun s => { c with defaultCatalog := some s }
  else if key = "default_schema" then value.text?.map fun s => { c with defaultSchema := some s }
  else if key = "max_depth" then value.natural?.map fun n => { c with maxDepth := some n }
  else if key = "format" then value.text?.map fun s => { c with format := some s }
  else some c

def ofText? (text : String) : Option Config := do
  (← Settings.ofText? text).foldlM (fun c (key, value) => c.set? key value) {}

/-- The configuration with the arguments of the command line, which win. -/
def withArguments (c : Config) (a : AnalyzeArguments) : Config where
  schema := a.schema.or c.schema
  outputDirectory := a.outputDirectory.or c.outputDirectory
  dialect := a.dialect.or c.dialect
  defaultCatalog := a.defaultCatalog.or c.defaultCatalog
  defaultSchema := a.defaultSchema.or c.defaultSchema
  maxDepth := a.maxDepth.or c.maxDepth
  format := (a.format.map OutputFormat.name).or c.format

end Config

end ColumnLineage
