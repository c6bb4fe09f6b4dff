import ColumnLineage.OrderedMap
import ColumnLineage.Syntax.OutputName
import ColumnLineage.Text.LowerCase

/-!
# Scopes

The scope of a select holds the sources of its `FROM` clause in their order, by alias in small
letters, and the columns that `USING` and `NATURAL` joins merge. A source may have columns that
are not known.
-/

namespace ColumnLineage

/-- The columns that a source gives. -/
inductive Columns
  | known (names : List String)
  | unknown
deriving DecidableEq, Repr

namespace Columns

/-- Whether a column of that name is known, whatever its case. -/
def contains (c : Columns) (column : String) : Bool :=
  match c with
  | .known names => names.any (Text.equalIgnoringCase · column)
  | .unknown => false

def names : Columns → List String
  | .known names => names
  | .unknown => []

/-- The columns of a list of names, none of which may be missing. -/
def ofOption : Option (List String) → Columns
  | some names => .known names
  | none => .unknown

/-- The columns that an alias declares, if it declares any. -/
def declared? (label : TableAlias) : Option Columns :=
  match label.columns with
  | [] => none
  | columns => some (.known (columns.map fun c => c.name.value))

/-- The names of a list that another list has as well, whatever their case, each once. -/
def inCommon (names others : List String) : List String :=
  names.foldl (fun acc column =>
    if others.any (Text.equalIgnoringCase · column) &&
        !acc.any (Text.equalIgnoringCase · column) then acc ++ [column] else acc) []

end Columns

/-- A source of a `FROM` clause. -/
structure Source where
  /-- The name by which its columns are qualified. -/
  label : Ident
  columns : Columns
deriving DecidableEq, Repr

/-- A column that joins merge. -/
structure MergedColumn where
  column : Ident
  /-- The aliases of the sources that give it. -/
  owners : List Ident
deriving DecidableEq, Repr

/-- The sources of a select and the columns that its joins merge. -/
structure Scope where
  /-- The sources by their aliases in small letters. -/
  sources : OrderedMap String Source := ∅
  /-- The merged columns by their names in small letters. -/
  merged : OrderedMap String MergedColumn := ∅
deriving DecidableEq

/-- A stretch of sources, by position. -/
structure Stretch where
  start : Nat
  stop : Nat
deriving DecidableEq, Repr

namespace Scope

/-! ## Sources -/

/-- Adds a source. One of the same alias is replaced at its place. -/
def register (s : Scope) (label : Ident) (columns : Columns) : Scope :=
  { s with sources := s.sources.insert (Text.toLower label.value) ⟨label, columns⟩ }

def get? (s : Scope) (label : String) : Option Source :=
  s.sources.get? (Text.toLower label)

def size (s : Scope) : Nat :=
  s.sources.entries.length

def sourcesIn (s : Scope) (r : Stretch) : List Source :=
  (s.sources.values.drop r.start).take (r.stop - r.start)

/-- The sources that are known to have a column. -/
def holders (s : Scope) (column : String) : List Source :=
  s.sources.values.filter fun x => x.columns.contains column

/-- The sources of whose columns nothing is known. -/
def unknowns (s : Scope) : List Source :=
  s.sources.values.filter fun x => x.columns = .unknown

/-- The columns of one source with its alias. -/
def columnsOf (x : Source) : Option (List (Ident × String)) :=
  match x.columns with
  | .known names => some (names.map (x.label, ·))
  | .unknown => none

/-- The columns of all sources in order; nothing if one is unknown or there is no source. -/
def allColumns? (s : Scope) : Option (List (Ident × String)) :=
  match s.sources.values with
  | [] => none
  | sources => (allSome (sources.map columnsOf)).map List.flatten

/-! ## Merged columns -/

/-- The position of an alias lies in a stretch. -/
def liesIn (s : Scope) (r : Stretch) (label : Ident) : Bool :=
  match s.sources.keys.idxOf? (Text.toLower label.value) with
  | some i => r.start ≤ i && i < r.stop
  | none => false

/-- The aliases in a stretch that give a column: those that already share it, or else those that
are known to have it, or else those of which nothing is known. -/
def owners (s : Scope) (r : Stretch) (column : String) : List Ident :=
  let shared :=
    match s.merged.get? (Text.toLower column) with
    | some m => m.owners.filter (s.liesIn r)
    | none => []
  let known := ((s.sourcesIn r).filter fun x => x.columns.contains column).map Source.label
  let unknown := ((s.sourcesIn r).filter fun x => x.columns = .unknown).map Source.label
  if !shared.isEmpty then shared else if !known.isEmpty then known else unknown

/-- Adds the aliases that are not yet in a list. -/
def addNew (aliases more : List Ident) : List Ident :=
  more.foldl (fun acc a => if acc.contains a then acc else acc ++ [a]) aliases

/-- Merges a column that the two sides of a join share. -/
def merge (s : Scope) (left right : Stretch) (column : Ident) : Scope :=
  match addNew (s.owners left column.value) (s.owners right column.value) with
  | [] => s
  | owners =>
    { s with merged := s.merged.insert (Text.toLower column.value) ⟨column, owners⟩ }

def knownIn (s : Scope) (r : Stretch) : List String :=
  (s.sourcesIn r).flatMap fun x => x.columns.names

/-- The known columns that both sides of a join have, each once. -/
def commonColumns (s : Scope) (left right : Stretch) : List Ident :=
  (Columns.inCommon (s.knownIn left) (s.knownIn right)).map (⟨·, none⟩)

/-- Merges the columns that a join names, or those that both sides of a natural join have. -/
def mergeJoin (s : Scope) (left right : Stretch) : JoinCondition → Scope
  | .using columns => columns.foldl (fun s c => s.merge left right c) s
  | .natural => (s.commonColumns left right).foldl (fun s c => s.merge left right c) s
  | _ => s

end Scope

/-! ## Columns as expressions -/

/-- A column behind the alias of its source. -/
def qualifiedColumn (label column : Ident) : Expr :=
  .path [label, column]

/-- A merged column: the column of its only owner, or the first of its owners' columns that is
not null. -/
def mergedColumn (owners : List Ident) (column : Ident) : Expr :=
  match owners with
  | [only] => qualifiedColumn only column
  | owners =>
    .call ⟨[⟨"COALESCE", none⟩]⟩
      (.list .unsaid (owners.map fun o => .positional (.expr (qualifiedColumn o column))) [] none
        .unsaid none ⟨.unsaid, .unsaid⟩) none .unsaid .absent []

namespace Scope

/-! ## Stars -/

/-- The item that a column of a source becomes. -/
def columnItem (label : Ident) (column : String) : SelectItem :=
  .expr (qualifiedColumn label ⟨column, none⟩) none

/-- Whether a column of a source is part of a merged one. -/
def isMerged (s : Scope) (label : Ident) (column : String) : Bool :=
  (s.merged.get? (Text.toLower column)).any fun m => m.owners.contains label

/-- What a star stands for. With all columns known, the merged columns come first. -/
def expandStar (s : Scope) : List SelectItem :=
  match s.allColumns? with
  | none => [.star]
  | some columns =>
    (s.merged.values.map fun m => .expr (mergedColumn m.owners m.column) (some m.column)) ++
      (columns.filter fun (label, column) => !s.isMerged label column).map fun (label, column) =>
        columnItem label column

/-- What the star of one source stands for. -/
def expandStarOf (s : Scope) (name : ObjectName) : List SelectItem :=
  match name.parts.getLast?.bind fun label => s.get? label.value with
  | some ⟨label, .known columns⟩ => columns.map (columnItem label)
  | _ => [.starOf name]

def expandItem (s : Scope) : SelectItem → List SelectItem
  | .star => s.expandStar
  | .starOf name => s.expandStarOf name
  | item => [item]

/-- The items of a select with their stars expanded. -/
def expandItems (s : Scope) (items : List SelectItem) : List SelectItem :=
  items.flatMap s.expandItem

end Scope

end ColumnLineage
