import ColumnLineage.Lineage.Stars
import ColumnLineage.Lineage.Trace
import ColumnLineage.Qualify.Query
import ColumnLineage.Report.Basic

/-!
# Analysing a statement

The lineage of the table that `CREATE TABLE ... AS` makes: the stars in its calls are expanded,
its query is qualified, and each of its columns is traced by itself.
-/

namespace ColumnLineage

/-- What names are looked up in, and how deeply queries are walked. -/
structure AnalysisContext where
  catalog : Catalog
  defaults : Defaults
  /-- How deeply queries are walked at most. -/
  limit : Nat

/-- How deeply queries are walked if nothing else is said. -/
def defaultLimit : Nat := 256

/-- What goes wrong in the analysis of a statement. -/
inductive StatementError
  | qualification (e : QualifyError)
  | tracing (column : String) (e : TraceError)
deriving DecidableEq, Repr

namespace StatementError

def message : StatementError → String
  | .qualification e => "Could not analyze statement: " ++ e.message
  | .tracing column e => "Could not trace column '" ++ column ++ "': " ++ e.message

def code : StatementError → String
  | .qualification _ => "L0002"
  | .tracing _ _ => "L0003"

end StatementError

/-- What the analysis of a statement gives. -/
structure Outcome where
  target : FullName
  /-- Its lineage; none if the query cannot be qualified. -/
  lineage : Option TableLineage
  errors : List StatementError
deriving DecidableEq

namespace AnalysisContext

/-- The query as it is analysed: without needless parentheses, with the stars in its calls
expanded, and qualified. -/
def prepare (x : AnalysisContext) (q : Query) : Except QualifyError Query :=
  let q := q.unwrap
  Qualifier.qualify ⟨x.catalog, x.defaults⟩ (q.expandStars ⟨x.catalog, x.defaults, q.cteColumns⟩)

/-- The full names of the base tables that a qualified query reads, in order. -/
def dependencies (x : AnalysisContext) (q : Query) : List String :=
  Text.sorted (q.baseTables.map fun u => (FullName.resolve u.reference x.defaults).text)

/-- The lineage of one column of a qualified query. -/
def trace (x : AnalysisContext) (q : Query) (column : String) : Except TraceError (List String) :=
  q.trace x.catalog x.defaults x.limit column

/-- The lineage so far with that of one more column. A column without sources is left out. -/
def addColumn (x : AnalysisContext) (q : Query) (found : TableLineage × List StatementError)
    (column : String) : TableLineage × List StatementError :=
  match x.trace q column with
  | .ok [] => found
  | .ok sources => ({ found.1 with columns := found.1.columns.insert column sources }, found.2)
  | .error e => (found.1, found.2 ++ [.tracing column e])

/-- The lineage of the columns of a qualified query, and what went wrong. -/
def lineageOf (x : AnalysisContext) (q : Query) : TableLineage × List StatementError :=
  q.body.outputNames.foldl (x.addColumn q) ({ dependsOn := x.dependencies q }, [])

/-- The analysis of a statement that makes a table from a query. -/
def analyze (x : AnalysisContext) (target : ObjectName) (q : Query) : Outcome :=
  let target := FullName.ofObjectName target x.defaults
  match x.prepare q with
  | .error e => ⟨target, none, [.qualification e]⟩
  | .ok qualified =>
    let (lineage, errors) := x.lineageOf qualified
    ⟨target, some lineage, errors⟩

end AnalysisContext

/-- Findings with an outcome. Its messages are added, and its lineage replaces what is there. -/
def Outcome.record (o : Outcome) (f : Findings) : Findings :=
  let key := o.target.text
  let f := o.errors.foldl (fun f e => f.addError key e.message) f
  match o.lineage with
  | some lineage => f.setLineage key lineage
  | none => f

end ColumnLineage
