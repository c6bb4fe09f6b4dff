import ColumnLineage.Report.Basic
import ColumnLineage.Schema.Catalog
import ColumnLineage.Script.Statements

/-!
# What is printed

The summary of an analysis, the contents of a catalog, and the statements of a script.
-/

namespace ColumnLineage

/-- Lines, each of which ends in a line feed. -/
def textOfLines (lines : List String) : String :=
  String.join (lines.map (· ++ "\n"))

namespace Findings

/-- The lines about the tables whose lineage was found. -/
def successLines (f : Findings) : List String :=
  if f.successful.isEmpty then []
  else
    ("\x1b[32m✓\x1b[0m " ++ toString f.successful.length ++ " table(s) traced successfully:") ::
      f.successful.map ("  - " ++ ·)

/-- The lines about the tables with messages. -/
def errorLines (f : Findings) : List String :=
  if f.errored.isEmpty then []
  else
    ("\x1b[31m✗\x1b[0m " ++ toString f.errored.length ++ " table(s) encountered errors:") ::
      (f.errors.entries.flatMap fun e => ("  - " ++ e.1) :: e.2.map ("      " ++ ·)) ++
      ["Check the 'errors' section in lineage_report.json for details."]

def summary (f : Findings) : String :=
  textOfLines (
    ["-------------------- Analysis Summary --------------------"] ++
    (if f.successful.isEmpty && f.errored.isEmpty then ["No tables were processed for lineage."]
      else []) ++
    f.successLines ++ f.errorLines ++
    ["----------------------------------------------------------"])

end Findings

namespace Catalog

def tableLines (name : String) (t : TableDefinition) : List String :=
  ("    Table: " ++ name) :: t.columns.entries.map fun c => "      - " ++ c.1 ++ " " ++ c.2

def schemaLines (name : String) (s : Schema) : List String :=
  ("  Schema: " ++ name) :: s.tables.entries.flatMap fun t => tableLines t.1 t.2

def databaseLines (name : String) (d : Database) : List String :=
  "" :: ("Catalog: " ++ name) :: d.schemas.entries.flatMap fun s => schemaLines s.1 s.2

def summary (c : Catalog) : String :=
  textOfLines ("Schema Information:" :: "==================" ::
    c.databases.entries.flatMap fun d => databaseLines d.1 d.2)

end Catalog

namespace Script

/-- The lines about a statement with its number. -/
def statementLines (number : Nat) (s : ScriptStatement) : List String :=
  ("Statement " ++ toString number ++ ":") ::
    (s.distribution.toList.map fun d => "Distribution: " ++ d.text) ++ [""]

/-- The statements of a script, and the script as it is written back. -/
def summary (statements : List ScriptStatement) : String :=
  textOfLines ((statements.zipIdx 1).flatMap (fun (s, number) => statementLines number s) ++
    ["Regenerated SQL:", generate statements])

end Script

end ColumnLineage
