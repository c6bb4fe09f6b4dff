import ColumnLineage.Qualify.Scope
import ColumnLineage.Schema.Catalog

/-!
# Resolving columns and tables

A place in a query sees common tables and the scopes of the selects around it, the innermost
first. A column without a qualifier belongs to the innermost scope that has it.
-/

namespace ColumnLineage

/-- Why a column cannot be qualified. -/
inductive QualifyError
  | ambiguous (column : String) (sources : List String)
  | unresolved (column : String)
deriving DecidableEq, Repr

def QualifyError.message : QualifyError → String
  | .ambiguous column sources =>
    "Column '" ++ column ++ "' is ambiguous (found in tables: " ++ ", ".intercalate sources ++ ")"
  | .unresolved column => "Column '" ++ column ++ "' could not be resolved"

/-- What names are looked up in: a catalog and the default parts of names. -/
structure Qualifier where
  catalog : Catalog
  defaults : Defaults

/-- The columns of a table, if the catalog knows it. -/
def Qualifier.tableColumns (x : Qualifier) (r : TableReference) : Columns :=
  .ofOption ((x.catalog.lookup? r x.defaults).map TableDefinition.columnNames)

/-- What is visible at a place, the innermost first. -/
structure Visible where
  /-- The common tables, by their names in small letters. -/
  ctes : List (String × Columns) := []
  /-- The scopes of the selects around the place. -/
  scopes : List Scope := []

namespace Visible

def withCte (v : Visible) (name : String) (columns : Columns) : Visible :=
  { v with ctes := (Text.toLower name, columns) :: v.ctes }

def withScope (v : Visible) (s : Scope) : Visible :=
  { v with scopes := s :: v.scopes }

/-- The columns of the innermost common table of a name. -/
def cteColumns? (v : Visible) (name : String) : Option Columns :=
  (v.ctes.find? fun c => Text.equalIgnoringCase c.1 name).map Prod.snd

def source? (v : Visible) (label : String) : Option Source :=
  v.scopes.findSome? fun s => s.get? label

end Visible

/-! ## Columns -/

/-- What one scope makes of a column. -/
inductive Resolution
  /-- It says nothing, so the next scope is asked. -/
  | pass
  | keep
  | replace (e : Expr)
  | clash (sources : List String)

/-- What a scope makes of a column; `isAlias` says that it may also name an output column. -/
def Scope.resolve (s : Scope) (column : Ident) (isAlias : Bool) : Resolution :=
  let found := s.holders column.value
  let shared :=
    (s.merged.get? (Text.toLower column.value)).filter fun m =>
      found.all fun x => m.owners.contains x.label
  match shared with
  | some m => .replace (mergedColumn m.owners column)
  | none =>
    match found, s.unknowns with
    | [], [] => .pass
    | [only], [] => .replace (qualifiedColumn only.label column)
    | [], [only] => if isAlias then .keep else .replace (qualifiedColumn only.label column)
    | _ :: _ :: _, _ => .clash (found.map fun x => x.label.value)
    | _, _ => .keep

/-- What a column without a qualifier stands for, asking scope after scope; nothing if it stays
as it is written. -/
def resolveIn (column : Ident) (isAlias : Bool) : List Scope → Except QualifyError (Option Expr)
  | [] => if isAlias then .ok none else .error (.unresolved column.value)
  | s :: rest =>
    match s.resolve column isAlias with
    | .pass => resolveIn column isAlias rest
    | .keep => .ok none
    | .replace e => .ok (some e)
    | .clash sources => .error (.ambiguous column.value sources)

namespace Visible

/-- A column without a qualifier, qualified. It may also name one of the output columns. -/
def qualifyColumn (v : Visible) (outputs : List String) (column : Ident) :
    Except QualifyError Expr :=
  match resolveIn column (outputs.any (Text.equalIgnoringCase · column.value)) v.scopes with
  | .ok (some e) => .ok e
  | .ok none => .ok (.column column)
  | .error e => .error e

/-- A column with a qualifier. Behind more than one part, the alias of the source counts. -/
def qualifyPath (v : Visible) (parts : List Ident) : Expr :=
  match parts.reverse with
  | column :: table :: _ :: _ =>
    match v.source? table.value with
    | some source => .path [source.label, column]
    | none => .path parts
  | _ => .path parts

end Visible

end ColumnLineage
