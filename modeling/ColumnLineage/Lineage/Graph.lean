import ColumnLineage.Schema.Name

/-!
# Lineage graphs

The lineage of an output column is a graph. Its nodes are columns: columns of base tables, output
columns of selects and set operations, and columns of which only a name is known. Edges lead from
a column to those that it is computed from.
-/

namespace ColumnLineage

/-- Where a node of a lineage graph comes from. -/
inductive Origin
  | table (reference : TableReference)
  /-- A column of which only the name is known. -/
  | placeholder
  /-- An output column of a select, with its text. -/
  | projection (sql : String)
  /-- An output column of a set operation, by position. -/
  | setOperation (index : Nat)
deriving DecidableEq, Repr

/-- A column in a lineage graph. -/
structure Node where
  /-- The name of the column; behind its alias for tables and placeholders. -/
  name : String
  origin : Origin
  /-- The positions of the columns that it is computed from. -/
  sources : List Nat := []
deriving DecidableEq, Repr

/-- The lineage of one output column. -/
structure Graph where
  /-- The nodes in the order in which they were made. -/
  nodes : Array Node
  root : Nat
deriving DecidableEq, Repr

/-- Why there is no lineage graph. -/
inductive GraphError
  | columnNotFound (column : String)
  /-- The query has no column at that position. -/
  | indexOutOfRange (index : Nat)
  | depthExceeded (limit : Nat)
deriving DecidableEq, Repr

def GraphError.message : GraphError → String
  | .columnNotFound column => "Cannot find column '" ++ column ++ "' in query"
  | .indexOutOfRange index => "Column index " ++ Nat.repr index ++ " out of range"
  | .depthExceeded limit => "query nesting exceeded the maximum depth of " ++ Nat.repr limit

end ColumnLineage
