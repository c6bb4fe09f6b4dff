import ColumnLineage.Syntax.Print

/-!
# Statements

The statements of a script, and their text.
-/

namespace ColumnLineage

/-- A column of a table to be made. -/
structure ColumnDefinition where
  name : Ident
  type : DataType
  collation : Option ObjectName
  /-- The texts of what else is said about it. -/
  options : List String
deriving DecidableEq, Repr

/-- `CREATE TABLE` -/
structure CreateTable where
  /-- Whether a table of that name is replaced. -/
  orReplace : Bool
  /-- Whether its rows are kept outside the database. -/
  external : Bool
  /-- Whether the word `GLOBAL` or the word `LOCAL` is written. -/
  isGlobal : Option Bool
  /-- Whether the table ends with the session. -/
  temporary : Bool
  /-- Whether the word `TRANSIENT` is written. -/
  transient : Bool
  /-- Whether a table of that name is left alone. -/
  ifNotExists : Bool
  name : ObjectName
  cluster : Option Ident
  columns : List ColumnDefinition
  constraints : List String
  /-- Whether its rows have no hidden numbers. -/
  withoutRowid : Bool
  /-- The tables that it is made like, in words. -/
  templates : List String
  clauses : List String
  query : Option Query

/-- `CREATE VIEW` -/
structure CreateView where
  /-- Whether a view of that name is replaced. -/
  orReplace : Bool
  /-- Whether the view ends with the session. -/
  temporary : Bool
  materialized : Bool
  name : ObjectName
  /-- The columns that keep its rows together. -/
  clusterBy : List Ident
  columns : List Ident
  options : List String
  query : Query

/-- `SET` -/
structure SetVariable where
  /-- Whether the setting is a variable for substitution. -/
  hivevar : Bool
  /-- Whether the setting ends with the transaction. -/
  isLocal : Bool
  name : ObjectName
  values : List Expr

/-- A statement. -/
inductive Statement
  | query (query : Query)
  | createTable (table : CreateTable)
  | createView (view : CreateView)
  | insert (insert : Insert)
  | setVariable (setting : SetVariable)
  | other (text : String)

/-! ## Text -/

/-- A word with a blank behind it, if the flag is set. -/
def flagText (flag : Bool) (word : String) : String :=
  if flag then word ++ " " else ""

/-- Storage options behind their keyword; nothing if there are none. -/
def optionsText (keyword : String) : List String → String
  | [] => ""
  | options => keyword ++ " (" ++ commas options ++ ")"

def afterBlanks (texts : List String) : String :=
  String.join (texts.map (" " ++ ·))

def ColumnDefinition.text (c : ColumnDefinition) : String :=
  c.name.text ++ " " ++ c.type.text ++
    (match c.collation with
      | none => ""
      | some name => " COLLATE " ++ name.text) ++ afterBlanks c.options

/-- The text of a `CREATE TABLE`. A table that has no columns and no constraints, is made like no
other and has no query is written with empty parentheses. -/
def CreateTable.text (t : CreateTable) : String :=
  "CREATE " ++ flagText t.orReplace "OR REPLACE" ++ flagText t.external "EXTERNAL" ++
    (match t.isGlobal with
      | none => ""
      | some true => "GLOBAL "
      | some false => "LOCAL ") ++ flagText t.temporary "TEMPORARY" ++
    flagText t.transient "TRANSIENT" ++ "TABLE " ++ flagText t.ifNotExists "IF NOT EXISTS" ++
    t.name.text ++
    (match t.cluster with
      | none => ""
      | some name => " ON CLUSTER " ++ name.text) ++
    (match t.columns.map ColumnDefinition.text ++ t.constraints with
      | [] => if t.query.isNone && t.templates.isEmpty then " ()" else ""
      | texts => " (" ++ commas texts ++ ")") ++
    (if t.withoutRowid then " WITHOUT ROWID" else "") ++ afterBlanks t.templates ++
    afterBlanks t.clauses ++
    (match t.query with
      | none => ""
      | some q => " AS " ++ q.text)

/-- The text of a `CREATE VIEW`. -/
def CreateView.text (v : CreateView) : String :=
  "CREATE " ++ flagText v.orReplace "OR REPLACE" ++ flagText v.materialized "MATERIALIZED" ++
    flagText v.temporary "TEMPORARY" ++ "VIEW " ++ v.name.text ++
    optionsText "" (v.columns.map Ident.text) ++ optionsText " WITH" v.options ++
    optionsText " CLUSTER BY" (v.clusterBy.map Ident.text) ++ " AS " ++ v.query.text

/-- The text of a `SET`. -/
def SetVariable.text (s : SetVariable) : String :=
  "SET " ++ flagText s.isLocal "LOCAL" ++ (if s.hivevar then "HIVEVAR:" else "") ++
    s.name.text ++ " = " ++ commas (s.values.map Expr.text)

def Statement.text : Statement → String
  | .query q => q.text
  | .createTable t => t.text
  | .createView v => v.text
  | .insert i => i.text
  | .setVariable s => s.text
  | .other t => t

/-! ## The query of a statement -/

/-- The query that gives the rows of an insertion, unless it inserts a row of defaults. -/
def Insert.source? (i : Insert) : Option Query :=
  match i.source.body with
  | .defaultValues => none
  | _ => some i.source

/-- The query whose rows a statement uses, if it has one. -/
def Statement.source? : Statement → Option Query
  | .query q => some q
  | .createTable t => t.query
  | .createView v => some v.query
  | .insert i => i.source?
  | _ => none

end ColumnLineage
