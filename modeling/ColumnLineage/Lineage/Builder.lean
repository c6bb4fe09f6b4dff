import ColumnLineage.Lineage.Graph
import ColumnLineage.Lineage.Reference
import ColumnLineage.Schema.Catalog
import ColumnLineage.Syntax.OutputName
import ColumnLineage.Syntax.Print

/-!
# Building lineage graphs

Starting from an output column, the builder walks down to the columns it is computed from. There
is one node per column of a select or set operation, identified by its place in the query, so a
column that is read twice is one node, and a recursive common table leads back to a node that is
not yet finished.

Every step into a query or a set operation costs one level; parentheses cost nothing.
-/

namespace ColumnLineage

/-! ## Places -/

/-- A step from a query or body to one inside it. -/
inductive Step
  /-- To the query of the common table at a position. -/
  | cte (index : Nat)
  | inner
  | left
  /-- To the right side of a set operation. -/
  | right
  /-- To the query that is the source at a position. -/
  | source (index : Nat)
  /-- To the scalar query that an item of a select reads, by the position of both. -/
  | scalar (item reference : Nat)
deriving DecidableEq, Repr

/-- A place in a query: the steps that lead there, the last one first. -/
abbrev Place := List Step

/-- A common table with the place of its query. -/
structure PlacedCte where
  cte : Cte
  place : Place

/-- The common tables of a query at a place, the last one first. -/
def placedCtes (place : Place) (ctes : List Cte) : List PlacedCte :=
  (ctes.zipIdx.map fun (c, i) => ⟨c, .cte i :: place⟩).reverse

/-- A body with its place and the common tables visible there, the innermost first. -/
structure PlacedBody where
  body : Body
  place : Place
  ctes : List PlacedCte

def Query.placed (q : Query) (place : Place) (ctes : List PlacedCte) : PlacedBody :=
  ⟨q.body, place, placedCtes place q.ctes ++ ctes⟩

def Body.opened (place : Place) (ctes : List PlacedCte) : Body → PlacedBody
  | .parens { ctes := own, body, .. } =>
    body.opened (.inner :: place) (placedCtes (.inner :: place) own ++ ctes)
  | b => ⟨b, place, ctes⟩
termination_by structural b => b

/-! ## Drafts -/

/-- A column that is looked for. -/
inductive Target
  | name (column : String)
  | index (index : Nat)
deriving DecidableEq, Repr

/-- The nodes so far, and which column of which place each of them is. -/
structure Draft where
  nodes : Array Node := #[]
  /-- The nodes of columns by place and position; no position stands for any name. -/
  columns : OrderedMap (Place × Option Nat) Nat := ∅
  /-- The nodes of columns by place and name. -/
  leaves : OrderedMap (Place × String) Nat := ∅

/-- A step of building a graph. -/
abbrev Build := StateT Draft (Except GraphError)

namespace Draft

def push (name : String) (origin : Origin) : Build Nat := do
  let d ← get
  set { d with nodes := d.nodes.push ⟨name, origin, []⟩ }
  return d.nodes.size

def connect (id : Nat) (sources : List Nat) : Build Unit :=
  modify fun d => { d with nodes := d.nodes.modify id ({ · with sources }) }

/-- The node of a column at a place. A new one is known before its sources are looked for. -/
def column (key : Place × Option Nat) (name : String) (origin : Origin)
    (sources : Build (List Nat)) : Build Nat := do
  match (← get).columns.get? key with
  | some id => return id
  | none =>
    let id ← push name origin
    modify fun d => { d with columns := d.columns.insert key id }
    connect id (← sources)
    return id

/-- The node of a named column at a place, likewise. -/
def leaf (key : Place × String) (name : String) (origin : Origin)
    (sources : Build (List Nat)) : Build Nat := do
  match (← get).leaves.get? key with
  | some id => return id
  | none =>
    let id ← push name origin
    modify fun d => { d with leaves := d.leaves.insert key id }
    connect id (← sources)
    return id

end Draft

/-! ## Sources of a select -/

/-- What a source of a select is. -/
inductive SelectSource
  | table (reference : TableReference)
  /-- A query, with the column names that are declared for it. -/
  | query (body : PlacedBody) (declared : List String)
  | function

/-- The sources of a select by their aliases in small letters, each with its alias. -/
abbrev SourceMap := OrderedMap String (String × SelectSource)

mutual

/-- The tables of a tree without parentheses, from left to right. -/
def TableTree.factors : TableTree → List TableFactor
  | .mk first joins => first.factors ++ Join.factorsList joins
termination_by structural t => t

def Join.factorsList : List Join → List TableFactor
  | [] => []
  | j :: js => j.factors ++ Join.factorsList js
termination_by structural js => js

def Join.factors : Join → List TableFactor
  | .mk _ _ factor _ _ => factor.factors
termination_by structural j => j

/-- A table, or those inside its parentheses. -/
def TableFactor.factors : TableFactor → List TableFactor
  | .nested tables _ => tables.factors
  | .table name numbered label hints => [.table name numbered label hints]
  | .tableFunction name arguments numbered label hints =>
    [.tableFunction name arguments numbered label hints]
  | .lateralFunction name arguments label => [.lateralFunction name arguments label]
  | .tableOf e label => [.tableOf e label]
  | .unnest arrays numbered label offset => [.unnest arrays numbered label offset]
  | .derived lateral query label => [.derived lateral query label]
  | .document opening e rest label => [.document opening e rest label]
  | .pivot table aggregates column values otherwise label =>
    [.pivot table aggregates column values otherwise label]
  | .unpivot table value name columns label => [.unpivot table value name columns label]
termination_by structural f => f

end

/-- The innermost visible common table that a reference means. -/
def visibleCte? (ctes : List PlacedCte) (r : TableReference) : Option PlacedCte :=
  if r.isBare then ctes.find? fun c => Text.equalIgnoringCase c.cte.name.value r.name else none

/-- The names of the columns that an alias declares. -/
def TableAlias.columnNames (a : TableAlias) : List String :=
  a.columns.map fun c => c.name.value

/-- The source that a table is, with its alias, at a position of the select at a place. A query
or function without an alias is none, unless the function stands alone. Pivoted tables and the
rows of documents are none. -/
def sourceOf? (place : Place) (ctes : List PlacedCte) (index : Nat) :
    TableFactor → Option (String × SelectSource)
  | .table name _ label _ =>
    let r := TableReference.ofObjectName name
    let key := (label.map fun a => a.name.value).getD r.name
    match visibleCte? ctes r with
    | some c =>
      some (key, .query (c.cte.query.placed c.place ctes) (c.cte.columns.map Ident.value))
    | none => some (key, .table r)
  | .tableFunction name _ _ label _ =>
    some ((label.map fun a => a.name.value).getD (TableReference.ofObjectName name).name, .function)
  | .lateralFunction _ _ label => label.map fun a => (a.name.value, .function)
  | .tableOf _ label => label.map fun a => (a.name.value, .function)
  | .unnest _ _ label _ => label.map fun a => (a.name.value, .function)
  | .derived _ query label =>
    label.map fun a => (a.name.value, .query (query.placed (.source index :: place) ctes) a.columnNames)
  | .nested _ _ => none
  | .document _ _ _ _ => none
  | .pivot _ _ _ _ _ _ => none
  | .unpivot _ _ _ _ _ => none

/-- The sources of a select at a place; a later source of the same alias replaces an earlier
one. -/
def sourceMap (place : Place) (ctes : List PlacedCte) (s : Select) : SourceMap :=
  .ofList ((s.sources.flatMap TableTree.factors).zipIdx.filterMap fun (factor, i) =>
    (sourceOf? place ctes i factor).map fun (label, source) =>
      (Text.toLower label, label, source))

/-- Whether a source is a table that the catalog knows to have a column. -/
def ownsColumn (catalog : Catalog) (column : String) : SelectSource → Bool
  | .table r => (catalog.findTable? r).any (·.hasColumn column)
  | _ => false

/-- The source of a column without a qualifier: the only source, or the only table that the
catalog knows to have it. -/
def soleOwner? (catalog : Catalog) (sources : SourceMap) (column : String) :
    Option (String × SelectSource) :=
  match sources.values with
  | [only] => some only
  | values =>
    match values.filter fun x => ownsColumn catalog column x.2 with
    | [only] => some only
    | _ => none

/-! ## Columns -/

/-- How to find a column one level deeper. -/
abbrev Deeper := PlacedBody → Target → Build Nat

/-- The place of the select that is looked at, with the common tables and the sources there. -/
structure SelectView where
  place : Place
  ctes : List PlacedCte
  sources : SourceMap

/-- The name of a column behind its alias. -/
def dotted (label column : String) : String :=
  label ++ "." ++ column

/-- The node of a column that a select reads. -/
def columnSource (catalog : Catalog) (deeper : Deeper) (v : SelectView)
    (qualifier : Option String) (column : String) : Build Nat :=
  let source :=
    match qualifier with
    | some q => v.sources.get? (Text.toLower q)
    | none => soleOwner? catalog v.sources column
  let leaf (name : String) (origin : Origin) : Build Nat :=
    Draft.leaf (v.place, name) name origin (return [])
  match source with
  | some (label, .table r) => leaf (dotted label column) (.table r)
  | some (_, .query body declared) =>
    deeper body (match declared.findIdx? (Text.equalIgnoringCase · column) with
      | some i => .index i
      | none => .name column)
  | some (label, .function) => leaf (dotted label column) .placeholder
  | none =>
    leaf (match qualifier with
      | some q => dotted q column
      | none => column) .placeholder

/-- The nodes that references lead to, each once; the first reference has the given position
among those of its item. -/
def referenceSources (catalog : Catalog) (deeper : Deeper) (v : SelectView) (item : Nat) :
    Nat → List Nat → List Reference → Build (List Nat)
  | _, found, [] => return found
  | k, found, r :: rest => do
    let id ← match r with
      | .column qualifier name => columnSource catalog deeper v qualifier name
      | .scalar query => deeper (query.placed (.scalar item k :: v.place) v.ctes) (.index 0)
    referenceSources catalog deeper v item (k + 1)
      (if found.contains id then found else found ++ [id]) rest

/-- The node of the item of a select at a position. -/
def itemColumn (catalog : Catalog) (deeper : Deeper) (v : SelectView) (item : SelectItem)
    (index : Nat) : Build Nat :=
  Draft.column (v.place, some index) ((item.outputName? index).getD (positionName index))
    (.projection item.text) (referenceSources catalog deeper v index 0 [] item.references)

/-- The qualifier of the first star among items; a plain star has none. -/
def firstStar? : List SelectItem → Option (Option String)
  | [] => none
  | .star :: _ => some none
  | .starOf name :: _ => some (name.parts.getLast?.map Ident.value)
  | _ :: rest => firstStar? rest

/-- The node of a column that only a star can give. -/
def starColumn (catalog : Catalog) (deeper : Deeper) (v : SelectView) (items : List SelectItem)
    (column : String) : Build Nat :=
  match firstStar? items with
  | none => throw (.columnNotFound column)
  | some qualifier =>
    Draft.leaf (v.place, "*" ++ Text.toLower column) column (.projection "*")
      (return [← columnSource catalog deeper v qualifier column])

/-- The position of the first name that is equal to a given one, ignoring case. -/
def position? (names : List (Option String)) (column : String) : Option Nat :=
  names.findIdx? fun n => n.any (Text.equalIgnoringCase · column)

def selectColumn (catalog : Catalog) (deeper : Deeper) (place : Place) (ctes : List PlacedCte)
    (s : Select) (target : Target) : Build Nat :=
  let v : SelectView := ⟨place, ctes, sourceMap place ctes s⟩
  match target with
  | .index i =>
    match s.items[i]? with
    | some item => itemColumn catalog deeper v item i
    | none => throw (.indexOutOfRange i)
  | .name column =>
    match position? s.outputNames column with
    | some i =>
      match s.items[i]? with
      | some item => itemColumn catalog deeper v item i
      | none => throw (.indexOutOfRange i)
    | none => starColumn catalog deeper v s.items column

/-- The node of a column of a set operation. -/
def setOperationColumn (deeper : Deeper) (place : Place) (ctes : List PlacedCte)
    (names : List (Option String)) (left right : Body) (target : Target) : Build Nat := do
  let index ← match target with
    | .index i => pure i
    | .name column =>
      match position? names column with
      | some i => pure i
      | none => throw (.columnNotFound column)
  Draft.column (place, some index) ((names[index]?.join).getD (positionName index))
    (.setOperation index) do
      let l ← deeper ⟨left, .left :: place, ctes⟩ (.index index)
      return [l, ← deeper ⟨right, .right :: place, ctes⟩ (.index index)]

/-- The node of a column of a body that reads no columns. -/
def plainColumn (place : Place) (sql : String) : Target → Build Nat
  | .index i => Draft.column (place, some i) (positionName i) (.projection sql) (return [])
  | .name column => Draft.column (place, none) column (.projection sql) (return [])

def bodyColumn (catalog : Catalog) (deeper : Deeper) (b : PlacedBody) (target : Target) :
    Build Nat :=
  let o := b.body.opened b.place b.ctes
  match o.body with
  | .select s => selectColumn catalog deeper o.place o.ctes s target
  | .setOperation _ _ left right =>
    setOperationColumn deeper o.place o.ctes o.body.positionalNames left right target
  | other => plainColumn o.place other.text target

/-- The node of a column of a body, with the given number of levels left out of `limit`. -/
def columnWithin (catalog : Catalog) (limit : Nat) : Nat → PlacedBody → Target → Build Nat
  | 0, _, _ => throw (.depthExceeded limit)
  | n + 1, b, target => bodyColumn catalog (columnWithin catalog limit n) b target

/-- The lineage graph of an output column of a query. At most `limit` levels of queries and set
operations are walked below the outermost one. -/
def Query.lineageGraph (q : Query) (catalog : Catalog) (column : String) (limit : Nat) :
    Except GraphError Graph := do
  let (root, d) ← columnWithin catalog limit (limit + 1) (q.placed [] []) (.name column) {}
  return ⟨d.nodes, root⟩

end ColumnLineage
