import ColumnLineage.Json.Reader
import ColumnLineage.Json.Value
import ColumnLineage.Schema.Name

/-!
# Catalogs

A catalog says which tables exist and which columns they have: databases hold schemas, schemas
hold tables, tables hold columns with their types, all in the order in which they are declared.
Names are found whatever their case.
-/

namespace ColumnLineage

/-- The value of a key, or else of the first key that is equal to it ignoring case. -/
def OrderedMap.getIgnoringCase? {α : Type} (m : OrderedMap String α) (key : String) : Option α :=
  (m.get? key).or ((m.entries.find? fun e => Text.equalIgnoringCase e.1 key).map Prod.snd)

/-- The columns of a table with their types. -/
structure TableDefinition where
  columns : OrderedMap String String
deriving DecidableEq

/-- The tables of a schema. -/
structure Schema where
  tables : OrderedMap String TableDefinition
deriving DecidableEq

/-- The schemas of a database. -/
structure Database where
  schemas : OrderedMap String Schema
deriving DecidableEq

/-- The databases that are known. -/
structure Catalog where
  databases : OrderedMap String Database
deriving DecidableEq

namespace TableDefinition

def empty : TableDefinition :=
  ⟨∅⟩

/-- The names of the columns in their order. -/
def columnNames (t : TableDefinition) : List String :=
  t.columns.keys

/-- The type of the first column of that name, whatever its case. -/
def columnType? (t : TableDefinition) (name : String) : Option String :=
  (t.columns.entries.find? fun e => Text.equalIgnoringCase e.1 name).map Prod.snd

/-- Whether there is a column of that name. -/
def hasColumn (t : TableDefinition) (name : String) : Bool :=
  (t.columnType? name).isSome

end TableDefinition

namespace Catalog

def empty : Catalog :=
  ⟨∅⟩

def isEmpty (c : Catalog) : Bool :=
  c.databases.isEmpty

def first? (c : Catalog) : Option String :=
  c.databases.keys.head?

/-! ## Finding tables -/

/-- The table with all three parts of its name. -/
def getTable? (c : Catalog) (catalog schema table : String) : Option TableDefinition := do
  let database ← c.databases.getIgnoringCase? catalog
  let schema ← database.schemas.getIgnoringCase? schema
  schema.tables.getIgnoringCase? table

/-- The columns of the table with all three parts of its name. -/
def columnsOf? (c : Catalog) (catalog schema table : String) : Option (List String) :=
  (c.getTable? catalog schema table).map TableDefinition.columnNames

/-- Whether a part that may be missing is equal to a name, ignoring case. -/
def partAgrees (part : Option String) (name : String) : Bool :=
  part.all fun p => Text.equalIgnoringCase p name

/-- The tables that a reference may mean, one per schema that it may mean. -/
def candidates (c : Catalog) (r : TableReference) : List TableDefinition :=
  (c.databases.entries.filter fun d => partAgrees r.catalog d.1).flatMap fun d =>
    (d.2.schemas.entries.filter fun s => partAgrees r.schema s.1).filterMap fun s =>
      s.2.tables.getIgnoringCase? r.name

/-- The table that a reference means, if there is exactly one. -/
def findTable? (c : Catalog) (r : TableReference) : Option TableDefinition :=
  match c.candidates r with
  | [t] => some t
  | _ => none

/-- The table that a reference means with its missing parts supplied, or else as written. -/
def lookup? (c : Catalog) (r : TableReference) (d : Defaults) : Option TableDefinition :=
  (c.findTable? (r.complete d)).or (c.findTable? r)

/-- Whether a reference means exactly one table. -/
def hasTable (c : Catalog) (r : TableReference) : Bool :=
  (c.findTable? r).isSome

def tableNames (c : Catalog) : List TableReference :=
  c.databases.entries.flatMap fun d =>
    d.2.schemas.entries.flatMap fun s =>
      s.2.tables.keys.map fun t => ⟨some d.1, some s.1, t⟩

/-! ## Adding tables -/

/-- Adds columns to a table, which need not exist. A column that exists gets the new type. -/
def addTable (c : Catalog) (catalog schema table : String) (columns : List (String × String)) :
    Catalog :=
  ⟨c.databases.alter catalog fun d =>
    ⟨((d.map Database.schemas).getD ∅).alter schema fun s =>
      ⟨((s.map Schema.tables).getD ∅).alter table fun t =>
        ⟨((t.map TableDefinition.columns).getD ∅).insertAll columns⟩⟩⟩⟩

/-! ## Documents -/

def tableJson (t : TableDefinition) : Json :=
  .object (t.columns.entries.map fun e => .mk e.1 (.text e.2))

def schemaJson (s : Schema) : Json :=
  .object (s.tables.entries.map fun e => .mk e.1 (tableJson e.2))

/-- The schemas of a database as a document. -/
def databaseJson (d : Database) : Json :=
  .object (d.schemas.entries.map fun e => .mk e.1 (schemaJson e.2))

def json (c : Catalog) : Json :=
  .object (c.databases.entries.map fun e => .mk e.1 (databaseJson e.2))

def reader : JsonReader Catalog := do
  let table := do return TableDefinition.mk (← JsonReader.map JsonReader.text)
  let schema := do return Schema.mk (← JsonReader.map table)
  let database := do return Database.mk (← JsonReader.map schema)
  return ⟨← JsonReader.map database⟩

/-- The catalog that a document describes. -/
def ofJson (document : String) : Except JsonFault Catalog :=
  JsonReader.run reader document

end Catalog

end ColumnLineage
