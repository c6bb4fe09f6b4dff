import ColumnLineage.Lineage.Tables
import ColumnLineage.Schema.Catalog
import ColumnLineage.Syntax.MapArguments
import ColumnLineage.Text.Sorted

/-!
# Stars as arguments

A call such as `row_to_json(c.*)` hides the columns that feed it. Each argument `alias.*` whose
columns are known becomes the tuple of its columns in order.
-/

namespace ColumnLineage

/-- What columns are looked up in: a catalog, the default parts of names, and the columns of
common tables. -/
structure StarContext where
  catalog : Catalog
  defaults : Defaults
  /-- The columns of common tables by their names in small letters. -/
  cteColumns : OrderedMap String (List String)

namespace StarContext

/-- The columns of a table. The bare name of a common table means that one. -/
def columns? (x : StarContext) (r : TableReference) : Option (List String) :=
  match if r.isBare then x.cteColumns.get? (Text.toLower r.name) else none with
  | some columns => some columns
  | none => (x.catalog.lookup? r x.defaults).map TableDefinition.columnNames

/-- The keys under which the columns of a table are kept: its alias and its own name. -/
def keys (u : TableUse) : List String :=
  (u.label.toList ++ [u.reference.name]).map Text.toLower

/-- The known columns of all tables in a query by alias and by name; later tables win. -/
def sources (x : StarContext) (q : Query) : OrderedMap String (List String) :=
  .ofList (q.tableUses.flatMap fun u =>
    match x.columns? u.reference with
    | none => []
    | some columns => (keys u).map (·, columns))

end StarContext

/-- The tuple of the columns of a table, in order. -/
def columnTuple (label : Ident) (columns : List String) : Expr :=
  .tuple ((Text.ordered columns).map fun c => .path [label, ⟨c, none⟩])

/-- An argument with its star replaced, if its columns are known. -/
def Argument.expandStar (sources : OrderedMap String (List String)) : Argument → Argument
  | .positional (.starOf name) =>
    match name.parts.getLast? with
    | none => .positional (.starOf name)
    | some label =>
      match sources.get? (Text.toLower label.value) with
      | none => .positional (.starOf name)
      | some columns => .positional (.expr (columnTuple label columns))
  | a => a

/-- The query with the stars in its calls replaced. -/
def Query.expandStars (q : Query) (x : StarContext) : Query :=
  q.mapArguments (Argument.expandStar (x.sources q))

end ColumnLineage
