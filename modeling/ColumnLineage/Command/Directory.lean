import ColumnLineage.Analysis.Script
import ColumnLineage.Command.Host

/-!
# Analysing a directory

The scripts of a directory are the files whose names end in `.sql`. They are analysed in the
order of their paths, component by component, and what they give is merged into one.
-/

namespace ColumnLineage

/-- A script with its path. -/
structure ScriptFile where
  path : Path
  text : String
deriving DecidableEq, Repr

namespace ScriptFile

def name (s : ScriptFile) : String :=
  s.path.getLast?.getD ""

def less (a b : ScriptFile) : Bool :=
  a.path.less b.path

def inOrder (scripts : List ScriptFile) : List ScriptFile :=
  Text.sortWith less scripts

end ScriptFile

/-- Whether an entry is a file with a script. -/
def Entry.isScript (e : Entry) : Bool :=
  !e.isDirectory && e.path.getLast?.any fun name => ".sql".toList.isSuffixOf name.toList

/-- The paths of the scripts among the entries of a directory. -/
def scriptPaths (entries : List Entry) : List Path :=
  (entries.filter Entry.isScript).map Entry.path

namespace AnalysisOptions

/-- What scripts give, whatever the order in which they are listed. -/
def analyzeFiles (o : AnalysisOptions) (catalog : Catalog) (scripts : List ScriptFile) :
    Findings :=
  (ScriptFile.inOrder scripts).foldl
    (fun f s => f.mergeFile s.name (o.analyze catalog s.text)) {}

end AnalysisOptions

/-! ## Without a description of the catalog -/

/-- The tables of the demonstration warehouse. -/
def demonstrationCatalog : Catalog :=
  ((Catalog.empty.addTable "my_gp_db" "raw_data" "users"
      [("id", "INT"), ("name", "VARCHAR"), ("email", "VARCHAR")]).addTable
    "my_gp_db" "raw_data" "orders"
      [("id", "INT"), ("user_id", "INT"), ("amount", "DECIMAL"), ("order_date", "DATE")]).addTable
    "my_gp_db" "analytics" "user_orders" [("user_id", "INT"), ("total_orders", "BIGINT")]

/-- The catalog for scripts whose tables nobody describes. No database is asked: scripts that read
any table get the demonstration warehouse. -/
def discoverCatalog (dialect : Dialect) (scripts : List ScriptFile) : Catalog :=
  if scripts.all fun s => (discoverTables dialect s.text).isEmpty then Catalog.empty
  else demonstrationCatalog

end ColumnLineage
