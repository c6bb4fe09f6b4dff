import ColumnLineage.Analysis.Statement
import ColumnLineage.Script.Statements

/-!
# Analysing a script

The lineage of every table that a script makes with `CREATE TABLE ... AS`. Words without quotes
are read in small letters. The schema that the last `SET search_path` names is the default one.
-/

namespace ColumnLineage

/-- How a script is analysed. -/
structure AnalysisOptions where
  dialect : Dialect := .greenplum
  /-- The default catalog; the first one that is known if nothing is said. -/
  defaultCatalog : Option String := none
  /-- The default schema, unless the script sets one. -/
  defaultSchema : Option String := none
  /-- How deeply queries are walked at most. -/
  limit : Nat := defaultLimit
deriving DecidableEq, Repr

/-- The schema that a value of a setting names. -/
def schemaOf? : Expr → Option String
  | .column name => some name.value
  | .path parts => parts.getLast?.map Ident.value
  | .literal (.text s) => some s
  | _ => none

/-- The schema that a statement puts first in the search path. -/
def Statement.searchPath? : Statement → Option String
  | .setVariable s =>
    if Text.equalIgnoringCase s.name.text "search_path" then s.values.head?.bind schemaOf? else none
  | _ => none

/-- The schema that the last setting of the search path puts first. -/
def searchPath? (statements : List ScriptStatement) : Option String :=
  statements.reverse.findSome? fun s => s.statement.searchPath?

/-- The table and the query of a statement that makes a table from a query. -/
def Statement.tableQuery? : Statement → Option (ObjectName × Query)
  | .createTable t => t.query.map (t.name, ·)
  | _ => none

namespace AnalysisOptions

def parse (o : AnalysisOptions) (sql : String) : Except ScriptError (List ScriptStatement) :=
  Script.parse o.dialect true sql

/-- What the statements of a script are analysed with. -/
def context (o : AnalysisOptions) (catalog : Catalog) (statements : List ScriptStatement) :
    AnalysisContext :=
  { catalog, limit := o.limit,
    defaults := ⟨o.defaultCatalog.or catalog.first?, (searchPath? statements).or o.defaultSchema⟩ }

/-- What the statements of a script give, one after another. -/
def analyzeStatements (o : AnalysisOptions) (catalog : Catalog)
    (statements : List ScriptStatement) : Findings :=
  let x := o.context catalog statements
  (statements.filterMap fun s => s.statement.tableQuery?).foldl
    (fun f (target, q) => (x.analyze target q).record f) {}

/-- What a script gives. A script that cannot be read gives one message. -/
def analyze (o : AnalysisOptions) (catalog : Catalog) (sql : String) : Findings :=
  match o.parse sql with
  | .error e =>
    Findings.addError {} Findings.scriptKey
      ("Failed to parse the entire SQL script: " ++ e.message)
  | .ok statements => o.analyzeStatements catalog statements

end AnalysisOptions

/-- The names of the tables that queries read, in order. The names of common tables are left out,
whichever query declares them. -/
def sourceTables (queries : List Query) : List String :=
  let cteNames := queries.flatMap Query.cteNames
  Text.sorted (((queries.flatMap Query.tableUses).map fun u => u.reference.name).filter fun name =>
    !cteNames.contains (Text.toLower name))

/-- The names of the tables that a script reads; none if it cannot be read. -/
def discoverTables (dialect : Dialect) (sql : String) : List String :=
  match Script.parse dialect true sql with
  | .error _ => []
  | .ok statements => sourceTables (statements.filterMap fun s => s.statement.source?)

end ColumnLineage
