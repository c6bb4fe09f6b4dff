import ColumnLineage.Syntax.Literal

/-!
# Queries

The tree of a query: common tables, a body, an order and bounds on the number of rows. Bodies
hold selects, selects hold expressions and tables, and both hold queries again, so all of them
are one family of types.

Fields stand in the order in which the tree is walked. That is the order of the text, but for
these places: a `CASE` has its conditions before its results, `TRIM` has what is trimmed before
the characters that go, a call has its filter and window before the order within its group, and
an insertion has its query before the partition.
-/

namespace ColumnLineage

/-! ## Parts without expressions -/

/-- A column that an alias declares, with its type if there is one. -/
structure AliasColumn where
  name : Ident
  type : Option DataType := none
deriving DecidableEq, Repr

/-- The name of a table in a `FROM` clause, with the names of its columns. -/
structure TableAlias where
  name : Ident
  /-- The names of its columns; empty if none are declared. -/
  columns : List AliasColumn := []
deriving DecidableEq, Repr

/-- Which rows of the two sides a join keeps. -/
inductive JoinKind
  | inner
  | left
  | right
  | full
  | leftSemi
  | rightSemi
  | leftAnti
  | rightAnti
  | semi
  | anti
  | asOf
  | cross
  | crossApply
  | outerApply
deriving DecidableEq, Repr

/-- The operation between two bodies. -/
inductive SetOperator
  | union
  | except
  | intersect
deriving DecidableEq, Repr

/-- Which rows a set operation keeps and how it pairs the columns. -/
inductive SetQuantifier
  | unsaid
  | all
  | distinct
  | byName
  | allByName
  | distinctByName
deriving DecidableEq, Repr

/-- What is said about arguments that occur more than once. -/
inductive Duplicates
  | unsaid
  | all
  | distinct
deriving DecidableEq, Repr

/-- What a window frame counts. -/
inductive FrameUnit
  | rows
  | range
  | groups
deriving DecidableEq, Repr

/-- Which end of `TRIM` is meant. -/
inductive TrimSide
  | both
  | leading
  | trailing
deriving DecidableEq, Repr

/-- The word after the number of an `OFFSET`. -/
inductive RowWord
  | absent
  | row
  | rows
deriving DecidableEq, Repr

/-- The `FETCH FIRST` clause. -/
structure Fetch where
  /-- How many rows; one if it is not said. -/
  quantity : Option Literal
  percent : Bool
  /-- Whether rows that tie with the last one are kept. -/
  withTies : Bool
deriving DecidableEq, Repr

/-- What a query does with the rows it reads, besides reading them. -/
inductive Lock
  /-- `FOR UPDATE` or `FOR SHARE`, the table that is meant, and the words about waiting -/
  | rows (share : Bool) (table : Option ObjectName) (wait : String)
  | words (words : String)
deriving DecidableEq, Repr

/-- The table that a select makes. -/
structure SelectInto where
  /-- Whether the table ends with the session. -/
  temporary : Bool
  /-- Whether changes to it are not logged. -/
  unlogged : Bool
  named : Bool
  name : ObjectName
deriving DecidableEq, Repr

/-- What stands between the name and the value of an argument. -/
inductive ArgumentSign
  | arrow
  | colon
  | value
deriving DecidableEq, Repr

/-- What a function does with arguments that are null. -/
inductive NullTreatment
  | unsaid
  | ignore
  | respect
deriving DecidableEq, Repr

/-- What happens if a list of values becomes too long. -/
inductive Overflow
  | unsaid
  | error
  /-- `ON OVERFLOW TRUNCATE`, with or without the number of values left out -/
  | truncate (withCount : Bool)
deriving DecidableEq, Repr

/-- What a function that makes a document does with nulls. -/
inductive DocumentNulls
  | unsaid
  | kept
  | absent
deriving DecidableEq, Repr

/-- What is said about nulls before the arguments of a function and behind them. -/
structure NullClauses where
  before : DocumentNulls
  /-- What is said behind the arguments and their other clauses. -/
  behind : DocumentNulls
deriving DecidableEq, Repr

/-- A `LATERAL VIEW` clause, but for the expression that gives its rows. -/
structure LateralView where
  /-- Whether rows for which the expression gives none stay. -/
  outer : Bool
  name : ObjectName
  columns : List Ident
deriving DecidableEq, Repr

/-- The `TOP` clause of a select. -/
inductive Top
  | absent
  /-- A number of rows, whether it is a percentage, and whether ties are kept. -/
  | rows (number : String) (percent withTies : Bool)
  | counted (percent withTies : Bool)
deriving DecidableEq, Repr

/-- What is filled by an assignment. -/
inductive AssignmentTarget
  | column (name : ObjectName)
  | tuple (names : List ObjectName)
deriving DecidableEq, Repr

/-- Which conflicts with rows that are there an insertion means. -/
inductive ConflictTarget
  | any
  | columns (names : List Ident)
  | constraint (name : ObjectName)
deriving DecidableEq, Repr

/-- What happens to rows that are in conflict with others. -/
inductive Conflict
  | unsaid
  | nothing (target : ConflictTarget)
  | update (target : ConflictTarget)
  | duplicateKey
deriving DecidableEq, Repr

/-- How sets of grouping columns are combined. -/
inductive Grouping
  | sets
  | cube
  | rollup
deriving DecidableEq, Repr

/-! ## The family of trees -/

mutual

/-- An expression. -/
inductive Expr
  | column (name : Ident)
  /-- A column behind the names of its table, schema and so on. -/
  | path (parts : List Ident)
  | rowOf (name : ObjectName)
  | literal (value : Literal)
  | unary (form : UnaryForm) (operand : Expr)
  | binary (form : BinaryForm) (left right : Expr)
  | between (negated : Bool) (e low high : Expr)
  /-- `SUBSTRING(e FROM start FOR length)`, or with commas -/
  | substring (commaStyle : Bool) (e : Expr) (start length : Option Expr)
  | trim (side : Option TrimSide) (e : Expr) (characters : Option Expr)
  /-- `OVERLAY(e PLACING new FROM start FOR length)` -/
  | overlay (e new start : Expr) (length : Option Expr)
  /-- `CASE operand WHEN condition THEN result ... ELSE otherwise END` -/
  | cases (operand : Option Expr) (conditions results : List Expr) (otherwise : Option Expr)
  | tuple (items : List Expr)
  | slice (e : Expr) (lower upper stride : Option Expr)
  | array (named : Bool) (items : List Expr)
  /-- `GROUPING SETS ((e, ...), ...)` and its kin -/
  | grouping (kind : Grouping) (sets : List (List Expr))
  | inList (negated : Bool) (e : Expr) (items : List Expr)
  | inQuery (negated : Bool) (e : Expr) (query : Query)
  | existence (negated : Bool) (query : Query)
  | scalar (query : Query)
  | call (name : ObjectName) (arguments : Arguments) (filter : Option Expr)
      (nulls : NullTreatment) (window : Window) (withinGroup : List OrderItem)

/-- What stands behind the name of a function. -/
inductive Arguments
  | absent
  | query (query : Query)
  /-- A list of arguments, with an order, a bound, what happens if the result is too long, and what
  happens to nulls. -/
  | list (duplicates : Duplicates) (items : List Argument) (orderBy : List OrderItem)
      (limit : Option Expr) (overflow : Overflow) (filler : Option Expr) (nulls : NullClauses)

/-- One argument. -/
inductive Argument
  | positional (value : ArgumentValue)
  | named (name : Expr) (sign : ArgumentSign) (value : ArgumentValue)

/-- The value of an argument. -/
inductive ArgumentValue
  | expr (e : Expr)
  | star
  | starOf (name : ObjectName)

/-- One item of an `ORDER BY` clause. -/
inductive OrderItem
  /-- The expression; whether the order goes up; whether nulls come first. -/
  | mk (e : Expr) (ascending nullsFirst : Option Bool)

/-- What stands behind `OVER`. -/
inductive Window
  | absent
  | named (name : Ident)
  /-- A window of its own, perhaps made from one with a name. -/
  | spec (base : Option Ident) (partitionBy : List Expr) (orderBy : List OrderItem)
      (frame : Frame)

/-- The rows of a window that count. -/
inductive Frame
  | absent
  | start (unit : FrameUnit) (first : Bound)
  | span (unit : FrameUnit) (first last : Bound)

/-- A bound of a window frame; no expression means that it is unbounded. -/
inductive Bound
  | currentRow
  | preceding (rows : Option Expr)
  | following (rows : Option Expr)

/-- A query. -/
structure Query where
  /-- Whether its common tables may refer to themselves. -/
  isRecursive : Bool
  ctes : List Cte
  body : Body
  orderBy : List OrderItem
  limit : Option Expr
  offset : Option Expr
  offsetWord : RowWord
  fetch : Option Fetch
  /-- What it does with the rows that it reads. -/
  locks : List Lock

/-- A common table: a query with a name, and names for its columns. -/
inductive Cte
  /-- The name with the declared columns, whether the rows are stored, the query, and a name
  behind it. -/
  | mk (label : TableAlias) (materialized : Option Bool) (query : Query) (source : Option Ident)

/-- The body of a query. -/
inductive Body
  | select (select : Select)
  | parens (query : Query)
  /-- Two bodies and the operation between them. -/
  | setOperation (op : SetOperator) (quantifier : SetQuantifier) (left right : Body)
  /-- Rows of values, perhaps with the word `ROW` before each. -/
  | values (explicitRow : Bool) (rows : List (List Expr))
  | defaultValues
  | table (name : String)
  | insert (insert : Insert)
  | update (update : Update)

/-- An insertion of rows into a table. -/
structure Insert where
  /-- What is done if a row cannot be inserted, in words. -/
  alternative : String
  overwrite : Bool
  into : Bool
  named : Bool
  table : ObjectName
  /-- The name by which the insertion calls the table. -/
  label : Option Ident
  columns : List Ident
  source : Query
  partition : List Expr
  /-- What happens to rows that are in conflict with others. -/
  conflict : Conflict
  /-- The new values of a row that is in the way. -/
  assignments : List Assignment
  /-- Which rows that are in the way get them. -/
  filter : Option Expr
  returning : List SelectItem

/-- A new value for columns. -/
inductive Assignment
  | mk (target : AssignmentTarget) (value : Expr)

/-- A change of the rows of a table. -/
structure Update where
  /-- What is done if the change fails, in words. -/
  alternative : String
  table : TableTree
  assignments : List Assignment
  sources : List TableTree
  filter : Option Expr
  returning : List SelectItem

/-- A select. -/
structure Select where
  distinct : Distinct
  top : Top
  /-- The number of rows in the `TOP` clause, if it is an expression. -/
  topCount : Option Expr
  items : List SelectItem
  into : Option SelectInto
  sources : List TableTree
  lateralViews : List LateralView
  /-- The expressions that give the rows of the lateral views, in the same order. -/
  lateralRows : List Expr
  filter : Option Expr
  groupBy : GroupBy
  clusterBy : List Expr
  distributeBy : List Expr
  sortBy : List Expr
  having : Option Expr
  windows : List NamedWindow
  /-- Which rows count once windows are known. -/
  windowFilter : Option Expr
  /-- Whether the windows stand before the condition on them. -/
  windowsFirst : Bool

/-- What a select says about equal rows. -/
inductive Distinct
  | unsaid
  | rows
  | on (keys : List Expr)

/-- One item of a select. -/
inductive SelectItem
  | expr (e : Expr) (label : Option Ident)
  | star
  | starOf (name : ObjectName)

/-- The grouping of a select. -/
inductive GroupBy
  /-- By expressions; none means that rows are not grouped. -/
  | keys (keys : List Expr)
  | all

/-- A window with a name. -/
inductive NamedWindow
  | mk (name : Ident) (window : Window)

/-- A table and what is joined to it. -/
inductive TableTree
  | mk (first : TableFactor) (joins : List Join)

/-- A join. -/
inductive Join
  /-- Whether the join is global, its kind, the table, the condition of an `ASOF` join on the rows
  to be matched, and the condition. -/
  | mk (isGlobal : Bool) (kind : JoinKind) (factor : TableFactor) (matching : Option Expr)
      (condition : JoinCondition)

/-- The condition of a join. -/
inductive JoinCondition
  | absent
  | on (e : Expr)
  | using (columns : List Ident)
  | natural

/-- A table in a `FROM` clause. -/
inductive TableFactor
  /-- A table by its name, whether its rows are numbered, and hints about it. -/
  | table (name : ObjectName) (numbered : Bool) (label : Option TableAlias) (hints : List Expr)
  | tableFunction (name : ObjectName) (arguments : List Argument) (numbered : Bool)
      (label : Option TableAlias) (hints : List Expr)
  | lateralFunction (name : ObjectName) (arguments : List Argument) (label : Option TableAlias)
  | tableOf (e : Expr) (label : Option TableAlias)
  /-- `UNNEST(e, ...)`, whether its rows are numbered, and the name of their offset -/
  | unnest (arrays : List Expr) (numbered : Bool) (label : Option TableAlias)
      (offset : Option (Option Ident))
  | derived (lateral : Bool) (query : Query) (label : Option TableAlias)
  | nested (tables : TableTree) (label : Option TableAlias)
  /-- The rows of a document; the words before and behind it -/
  | document (opening : String) (e : Expr) (rest : String) (label : Option TableAlias)
  /-- `table PIVOT(aggregates FOR column IN (values) DEFAULT ON NULL (otherwise))` -/
  | pivot (table : TableFactor) (aggregates : List SelectItem) (column : ObjectName)
      (values : PivotValues) (otherwise : Option Expr) (label : Option TableAlias)
  /-- `table UNPIVOT(value FOR name IN (columns))` -/
  | unpivot (table : TableFactor) (value name : Ident) (columns : List Ident)
      (label : Option TableAlias)

/-- The values of a `PIVOT` clause. -/
inductive PivotValues
  | list (items : List SelectItem)
  | any (orderBy : List OrderItem)
  | query (query : Query)

end

/-! ## Small queries -/

/-- The query that is a body and nothing else. -/
def Query.ofBody (body : Body) : Query :=
  { isRecursive := false, ctes := [], body := body, orderBy := [], limit := none, offset := none,
    offsetWord := .absent, fetch := none, locks := [] }

/-- The name under which a common table is known. -/
def Cte.name : Cte → Ident
  | .mk label _ _ _ => label.name

def Cte.query : Cte → Query
  | .mk _ _ query _ => query

/-- The column names that a common table declares. -/
def Cte.columns : Cte → List Ident
  | .mk label _ _ _ => label.columns.map AliasColumn.name

end ColumnLineage
