import ColumnLineage.Json.Reader
import ColumnLineage.Json.Value
import ColumnLineage.Report.Timestamp

/-!
# Reports

What an analysis finds: for each table the tables it depends on and the lineage of its columns,
and the messages about what went wrong. Findings of several files are merged into one.
-/

namespace ColumnLineage

/-- The lineage of a table. -/
structure TableLineage where
  /-- The full names of the tables it is made from. -/
  dependsOn : List String := []
  /-- The columns that each of its columns is computed from. -/
  columns : OrderedMap String (List String) := ∅
deriving DecidableEq

/-- What an analysis finds, by the full name of the table. -/
structure Findings where
  errors : OrderedMap String (List String) := ∅
  lineage : OrderedMap String TableLineage := ∅
deriving DecidableEq

namespace Findings

/-- The key for messages about a whole script. -/
def scriptKey : String := "script"

def addErrors (f : Findings) (key : String) (messages : List String) : Findings :=
  { f with errors := f.errors.alter key fun present => present.getD [] ++ messages }

def addError (f : Findings) (key message : String) : Findings :=
  f.addErrors key [message]

def setLineage (f : Findings) (key : String) (lineage : TableLineage) : Findings :=
  { f with lineage := f.lineage.insert key lineage }

def inFile (file message : String) : String :=
  "[" ++ file ++ "] " ++ message

/-- Adds the findings in a file. Its lineage replaces what is there, and its messages are added
with the name of the file. -/
def mergeFile (f : Findings) (file : String) (other : Findings) : Findings :=
  other.errors.entries.foldl (fun f e => f.addErrors e.1 (e.2.map (inFile file)))
    { f with lineage := f.lineage.insertAll other.lineage.entries }

def hasErrors (f : Findings) : Bool :=
  !f.errors.isEmpty

/-- The tables with lineage and without messages. -/
def successful (f : Findings) : List String :=
  f.lineage.keys.filter fun key => !f.errors.contains key

def errored (f : Findings) : List String :=
  f.errors.keys

end Findings

/-- Findings with the time of the analysis. -/
structure Report where
  date : Timestamp
  findings : Findings
deriving DecidableEq

/-! ## Documents -/

def textsJson (texts : List String) : Json :=
  .list (texts.map .text)

def TableLineage.json (t : TableLineage) : Json :=
  .object [
    .mk "depends_on" (textsJson t.dependsOn),
    .mk "columns" (.object (t.columns.entries.map fun e =>
      .mk e.1 (.object [.mk "lineage" (textsJson e.2)])))]

def Report.json (r : Report) : Json :=
  .object [
    .mk "date_parsed" (.text r.date.text),
    .mk "errors" (.object (r.findings.errors.entries.map fun e => .mk e.1 (textsJson e.2))),
    .mk "lineage" (.object (r.findings.lineage.entries.map fun e => .mk e.1 e.2.json))]

namespace JsonReader

def columnLineage : JsonReader (List String) :=
  recordOrList
    (do
      let found ← record (fun key (found : Option (List String)) =>
        if key = "lineage" then once found (return some (← list text)) else .ok none) none
      required found)
    (do
      let found ← element true (list text)
      closeList
      return found)

/-- The fields of the lineage of a table that are read so far. -/
structure TableFields where
  dependsOn : Option (List String) := none
  columns : Option (OrderedMap String (List String)) := none

def tableLineage : JsonReader TableLineage :=
  recordOrList
    (do
      let found ← record (fun key (found : TableFields) =>
        if key = "depends_on" then
          once found.dependsOn do return { found with dependsOn := some (← list text) }
        else if key = "columns" then
          once found.columns do return { found with columns := some (← map columnLineage) }
        else .ok none) {}
      let dependsOn ← required found.dependsOn
      return ⟨dependsOn, ← required found.columns⟩)
    (do
      let dependsOn ← element true (list text)
      let columns ← element false (map columnLineage)
      closeList
      return ⟨dependsOn, columns⟩)

def timestamp : JsonReader Timestamp := do
  match Timestamp.ofText? (← text) with
  | some t => return t
  | none => throw .mismatch

/-- The fields of a report that are read so far. -/
structure ReportFields where
  date : Option Timestamp := none
  errors : Option (OrderedMap String (List String)) := none
  lineage : Option (OrderedMap String TableLineage) := none

def report : JsonReader Report :=
  recordOrList
    (do
      let found ← record (fun key (found : ReportFields) =>
        if key = "date_parsed" then
          once found.date do return { found with date := some (← timestamp) }
        else if key = "errors" then
          once found.errors do return { found with errors := some (← map (list text)) }
        else if key = "lineage" then
          once found.lineage do return { found with lineage := some (← map tableLineage) }
        else .ok none) {}
      let date ← required found.date
      let errors ← required found.errors
      return ⟨date, errors, ← required found.lineage⟩)
    (do
      let date ← element true timestamp
      let errors ← element false (map (list text))
      let lineage ← element false (map tableLineage)
      closeList
      return ⟨date, errors, lineage⟩)

end JsonReader

def Report.ofJson (document : String) : Except JsonFault Report :=
  JsonReader.run JsonReader.report document

end ColumnLineage
