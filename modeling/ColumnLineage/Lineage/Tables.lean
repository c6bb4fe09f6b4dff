import ColumnLineage.OrderedMap
import ColumnLineage.Schema.Name
import ColumnLineage.Syntax.OutputName
import ColumnLineage.Syntax.Walk

/-!
# What a query reads

The tables that a query mentions and the common tables that it declares, at any depth. Names of
common tables are compared in small letters.
-/

namespace ColumnLineage

/-- A table in a query, with the alias it is given. -/
structure TableUse where
  label : Option String
  reference : TableReference
deriving DecidableEq, Repr

namespace TableUse

/-- The name by which columns of the table are qualified. -/
def knownAs (u : TableUse) : String :=
  u.label.getD u.reference.name

end TableUse

/-- The names of all common tables declared anywhere in a query, in small letters. -/
def Query.cteNames (q : Query) : List String :=
  q.allCtes.map fun c => Text.toLower c.name.value

/-- The columns of all common tables whose columns are known, by their names in small letters. A
name that is declared twice keeps its first place and takes its last columns. -/
def Query.cteColumns (q : Query) : OrderedMap String (List String) :=
  .ofList (q.allCtes.filterMap fun c =>
    c.knownNames.map fun columns => (Text.toLower c.name.value, columns))

/-- All tables in a query, in the order of the walk. -/
def Query.tableUses (q : Query) : List TableUse :=
  q.allTables.map fun (name, label) =>
    ⟨label.map fun a => a.name.value, TableReference.ofObjectName name⟩

/-- Whether a reference is the bare name of one of the common tables. -/
def TableReference.isCteIn (r : TableReference) (cteNames : List String) : Bool :=
  r.isBare && cteNames.contains (Text.toLower r.name)

/-- The tables in a query that are no common tables. -/
def Query.baseTables (q : Query) : List TableUse :=
  let cteNames := q.cteNames
  q.tableUses.filter fun u => !u.reference.isCteIn cteNames

end ColumnLineage
