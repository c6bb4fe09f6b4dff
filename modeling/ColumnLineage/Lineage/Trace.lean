import ColumnLineage.Lineage.Builder
import ColumnLineage.Lineage.Tables
import ColumnLineage.Text.Sorted

/-!
# Tracing columns

The lineage of an output column is the set of base table columns that its graph leads to. A node
that only has a name is looked up among the aliases of the query.
-/

namespace ColumnLineage

/-! ## Kinds of nodes -/

/-- How a node contributes to lineage. -/
inductive NodeKind
  | base (reference : TableReference)
  /-- It is to be looked up among the aliases. -/
  | label
  | intermediate
deriving DecidableEq, Repr

/-- The kind of a node. A table that has the name of a common table is none. -/
def Node.kind (n : Node) (cteNames : List String) : NodeKind :=
  match n.origin with
  | .table r => if r.isCteIn cteNames then .intermediate else .base r
  | .placeholder => .label
  | _ => .intermediate

/-- A text before and behind its last dot. -/
def splitLastDot? (s : String) : Option (String × String) :=
  let reversed := s.toList.reverse
  let behind := reversed.takeWhile (· ≠ '.')
  match reversed.drop behind.length with
  | [] => none
  | _ :: before => some (String.ofList before.reverse, String.ofList behind.reverse)

/-- The part of a text behind its last dot, or all of it. -/
def behindLastDot (s : String) : String :=
  match splitLastDot? s with
  | some (_, behind) => behind
  | none => s

/-! ## Tracing -/

/-- Why a column cannot be traced. -/
inductive TraceError
  | graph (e : GraphError)
  | depthExceeded (limit : Nat)
deriving DecidableEq, Repr

def TraceError.message : TraceError → String
  | .graph e => e.message
  | .depthExceeded limit => "lineage recursion exceeded the maximum depth of " ++ Nat.repr limit

/-- The failure to trace that a failure to build a graph is; the depth is one and the same. -/
def TraceError.ofGraphError : GraphError → TraceError
  | .depthExceeded limit => .depthExceeded limit
  | e => .graph e

/-- What a walk over a graph needs: the graph, the names of common tables, the full names of base
tables by alias in small letters, the default parts of names and the depth. -/
structure TraceContext where
  nodes : Array Node
  /-- The names of common tables in small letters. -/
  cteNames : List String
  /-- The full names of base tables by alias. -/
  aliases : OrderedMap String FullName
  defaults : Defaults
  /-- How deeply the graph is walked at most. -/
  limit : Nat

/-- What a walk over a graph knows: the lineage of nodes that it has finished. -/
abbrev TraceMemo := OrderedMap Nat (List String)

/-- A step of a walk over a graph. -/
abbrev Walk := StateT TraceMemo (Except TraceError)

namespace TraceContext

def union (a b : List String) : List String :=
  b.foldl (fun acc s => Text.insertSorted Text.less s acc) a

/-- The column of a base table that a node stands for by itself. -/
def terminal? (x : TraceContext) (n : Node) : Option String :=
  match n.kind x.cteNames with
  | .base r => some ((FullName.resolve r x.defaults).column (behindLastDot n.name))
  | .label =>
    (splitLastDot? n.name).bind fun (label, column) =>
      (x.aliases.get? (Text.toLower label)).map (·.column column)
  | .intermediate => none

/-- The union of the lineages of nodes, given that of one. -/
def unionOf (lineage : Nat → Walk (List String)) : List String → List Nat → Walk (List String)
  | found, [] => return found
  | found, id :: rest => do
    let more ← lineage id
    unionOf lineage (union found more) rest

/-- The lineage of a node, with the given number of levels left. -/
def lineage (x : TraceContext) : Nat → Nat → Walk (List String)
  | 0, _ => throw (.depthExceeded x.limit)
  | n + 1, id => do
    match (← get).get? id with
    | some known => return known
    | none =>
      let node := x.nodes[id]?.getD ⟨"", .placeholder, []⟩
      let found ← match x.terminal? node with
        | some column => pure [column]
        | none => unionOf (lineage x n) [] node.sources
      modify fun memo => memo.insert id found
      return found

end TraceContext

/-- The full names of the base tables of a query by alias in small letters; later tables win. -/
def Query.aliases (q : Query) (d : Defaults) : OrderedMap String FullName :=
  .ofList (q.baseTables.map fun u => (Text.toLower u.knownAs, FullName.resolve u.reference d))

/-- The base table columns that an output column of a qualified query is computed from, in
order. -/
def Query.trace (q : Query) (catalog : Catalog) (d : Defaults) (limit : Nat) (column : String) :
    Except TraceError (List String) :=
  match q.lineageGraph catalog column limit with
  | .error e => .error (.ofGraphError e)
  | .ok g =>
    let x : TraceContext := ⟨g.nodes, q.cteNames, q.aliases d, d, limit⟩
    (x.lineage (limit + 1) g.root ∅).map Prod.fst

end ColumnLineage
