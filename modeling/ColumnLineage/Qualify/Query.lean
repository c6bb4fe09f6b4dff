import ColumnLineage.Qualify.Resolve

/-!
# Qualified queries

In a qualified query every base table has its full name, stars in selects are replaced by the
columns they stand for, every column carries the alias of its source, and every item of a select
has a name.

The tables of a select come first, because they make its scope; then come the conditions of its
joins, its items and its other clauses, all of which see that scope. Rows of values, bounds on
the number of rows, windows with a name, the arguments of table functions and clauses that few
selects have stay as they are. Pivoted tables and the rows of documents are no sources.
-/

namespace ColumnLineage

/-! ## Sources -/

/-- The scope with a source whose columns only its alias may declare. -/
def Scope.registerFunction (s : Scope) (label : Option TableAlias) : Scope :=
  match label with
  | none => s
  | some a => s.register a.name ((Columns.declared? a).getD .unknown)

/-- The scope with a query as a source; without an alias it is none. -/
def Scope.registerDerived (s : Scope) (label : Option TableAlias) (columns : Columns) : Scope :=
  match label with
  | none => s
  | some a => s.register a.name ((Columns.declared? a).getD columns)

/-- The columns of the common table that a name means, if it means one. -/
def Visible.cteOf? (v : Visible) (name : ObjectName) : Option Columns :=
  match name.parts with
  | [only] => v.cteColumns? only.value
  | _ => none

/-- A table with its full name, and the scope with it. Common tables keep their names. -/
def Scope.registerTable (s : Scope) (x : Qualifier) (v : Visible) (name : ObjectName)
    (label : Option TableAlias) : ObjectName × Scope :=
  let key := (label.map TableAlias.name).getD (name.parts.getLast?.getD ⟨"", none⟩)
  match v.cteOf? name with
  | some columns => (name, s.register key columns)
  | none =>
    let full := name.complete x.defaults
    (full, s.register key (x.tableColumns (.ofObjectName full)))

def valuesColumns (rows : List (List Expr)) : Columns :=
  .known ((List.range (rows.head?.map List.length |>.getD 0)).map fun i =>
    "column" ++ Nat.repr (i + 1))

/-- The name that an item gets if it has none. -/
def itemAlias (e : Expr) (index : Nat) : Ident :=
  e.outputName?.getD ⟨positionName index, none⟩

/-- Items that need no qualification with names for all of them, the first at the given
position. -/
def nameItems (index : Nat) : List SelectItem → List SelectItem
  | [] => []
  | .expr e label :: rest =>
    .expr e (some (label.getD (itemAlias e index))) :: nameItems (index + 1) rest
  | item :: rest => item :: nameItems (index + 1) rest

/-- A qualified query and its columns. -/
abbrev QualifiedQuery := Query × Columns

/-! ## The family of trees -/

mutual

/-- An expression with its columns qualified; `outputs` are output columns that it may name. -/
def Expr.qualify (x : Qualifier) (v : Visible) (outputs : List String) :
    Expr → Except QualifyError Expr
  | .column name => v.qualifyColumn outputs name
  | .path parts => .ok (v.qualifyPath parts)
  | .rowOf name => .ok (.rowOf name)
  | .literal value => .ok (.literal value)
  | .unary form operand => return .unary form (← operand.qualify x v outputs)
  | .binary form left right => do
    let left ← left.qualify x v outputs
    return .binary form left (← right.qualify x v outputs)
  | .between negated e low high => do
    let e ← e.qualify x v outputs
    let low ← low.qualify x v outputs
    return .between negated e low (← high.qualify x v outputs)
  | .substring commaStyle e start length => do
    let e ← e.qualify x v outputs
    let start ← Expr.qualifyOption x v outputs start
    return .substring commaStyle e start (← Expr.qualifyOption x v outputs length)
  | .trim side e characters => do
    let e ← e.qualify x v outputs
    return .trim side e (← Expr.qualifyOption x v outputs characters)
  | .overlay e new start length => do
    let e ← e.qualify x v outputs
    let new ← new.qualify x v outputs
    let start ← start.qualify x v outputs
    return .overlay e new start (← Expr.qualifyOption x v outputs length)
  | .cases operand conditions results otherwise => do
    let operand ← Expr.qualifyOption x v outputs operand
    let conditions ← Expr.qualifyList x v outputs conditions
    let results ← Expr.qualifyList x v outputs results
    return .cases operand conditions results (← Expr.qualifyOption x v outputs otherwise)
  | .tuple items => return .tuple (← Expr.qualifyList x v outputs items)
  | .slice e lower upper stride => do
    let e ← e.qualify x v outputs
    let lower ← Expr.qualifyOption x v outputs lower
    let upper ← Expr.qualifyOption x v outputs upper
    return .slice e lower upper (← Expr.qualifyOption x v outputs stride)
  | .array named items => return .array named (← Expr.qualifyList x v outputs items)
  | .grouping kind sets => return .grouping kind (← Expr.qualifyLists x v outputs sets)
  | .inList negated e items => do
    let e ← e.qualify x v outputs
    return .inList negated e (← Expr.qualifyList x v outputs items)
  | .inQuery negated e query => do
    let e ← e.qualify x v outputs
    return .inQuery negated e (← query.qualify x v).1
  | .existence negated query => return .existence negated (← query.qualify x v).1
  | .scalar query => return .scalar (← query.qualify x v).1
  | .call name arguments filter nulls window withinGroup => do
    let arguments ← arguments.qualify x v outputs
    let filter ← Expr.qualifyOption x v outputs filter
    let window ← window.qualify x v outputs
    let withinGroup ← OrderItem.qualifyList x v outputs withinGroup
    return .call name arguments filter nulls window withinGroup
termination_by structural e => e

def Expr.qualifyList (x : Qualifier) (v : Visible) (outputs : List String) :
    List Expr → Except QualifyError (List Expr)
  | [] => .ok []
  | e :: es => do
    let e ← e.qualify x v outputs
    return e :: (← Expr.qualifyList x v outputs es)
termination_by structural es => es

/-- Lists of expressions, one after another. -/
def Expr.qualifyLists (x : Qualifier) (v : Visible) (outputs : List String) :
    List (List Expr) → Except QualifyError (List (List Expr))
  | [] => .ok []
  | es :: ess => do
    let es ← Expr.qualifyList x v outputs es
    return es :: (← Expr.qualifyLists x v outputs ess)
termination_by structural ess => ess

def Expr.qualifyOption (x : Qualifier) (v : Visible) (outputs : List String) :
    Option Expr → Except QualifyError (Option Expr)
  | none => .ok none
  | some e => return some (← e.qualify x v outputs)
termination_by structural e => e

def Arguments.qualify (x : Qualifier) (v : Visible) (outputs : List String) :
    Arguments → Except QualifyError Arguments
  | .absent => .ok .absent
  | .query query => return .query (← query.qualify x v).1
  | .list duplicates items orderBy limit overflow filler nulls => do
    let items ← Argument.qualifyList x v outputs items
    let orderBy ← OrderItem.qualifyList x v outputs orderBy
    let limit ← Expr.qualifyOption x v outputs limit
    let filler ← Expr.qualifyOption x v outputs filler
    return .list duplicates items orderBy limit overflow filler nulls
termination_by structural a => a

/-- An argument; its name counts as an expression. -/
def Argument.qualify (x : Qualifier) (v : Visible) (outputs : List String) :
    Argument → Except QualifyError Argument
  | .positional value => return .positional (← value.qualify x v outputs)
  | .named name sign value => do
    let name ← name.qualify x v outputs
    return .named name sign (← value.qualify x v outputs)
termination_by structural a => a

def Argument.qualifyList (x : Qualifier) (v : Visible) (outputs : List String) :
    List Argument → Except QualifyError (List Argument)
  | [] => .ok []
  | a :: as => do
    let a ← a.qualify x v outputs
    return a :: (← Argument.qualifyList x v outputs as)
termination_by structural as => as

def ArgumentValue.qualify (x : Qualifier) (v : Visible) (outputs : List String) :
    ArgumentValue → Except QualifyError ArgumentValue
  | .expr e => return .expr (← e.qualify x v outputs)
  | .star => .ok .star
  | .starOf name => .ok (.starOf name)
termination_by structural a => a

def OrderItem.qualify (x : Qualifier) (v : Visible) (outputs : List String) :
    OrderItem → Except QualifyError OrderItem
  | .mk e ascending nullsFirst => return .mk (← e.qualify x v outputs) ascending nullsFirst
termination_by structural o => o

/-- The items of an order, one after another. -/
def OrderItem.qualifyList (x : Qualifier) (v : Visible) (outputs : List String) :
    List OrderItem → Except QualifyError (List OrderItem)
  | [] => .ok []
  | o :: os => do
    let o ← o.qualify x v outputs
    return o :: (← OrderItem.qualifyList x v outputs os)
termination_by structural os => os

def Window.qualify (x : Qualifier) (v : Visible) (outputs : List String) :
    Window → Except QualifyError Window
  | .absent => .ok .absent
  | .named name => .ok (.named name)
  | .spec base partitionBy orderBy frame => do
    let partitionBy ← Expr.qualifyList x v outputs partitionBy
    let orderBy ← OrderItem.qualifyList x v outputs orderBy
    return .spec base partitionBy orderBy (← frame.qualify x v outputs)
termination_by structural w => w

def Frame.qualify (x : Qualifier) (v : Visible) (outputs : List String) :
    Frame → Except QualifyError Frame
  | .absent => .ok .absent
  | .start unit first => return .start unit (← first.qualify x v outputs)
  | .span unit first last => do
    let first ← first.qualify x v outputs
    return .span unit first (← last.qualify x v outputs)
termination_by structural f => f

def Bound.qualify (x : Qualifier) (v : Visible) (outputs : List String) :
    Bound → Except QualifyError Bound
  | .currentRow => .ok .currentRow
  | .preceding rows => return .preceding (← Expr.qualifyOption x v outputs rows)
  | .following rows => return .following (← Expr.qualifyOption x v outputs rows)
termination_by structural b => b

/-- A query and its columns. Its order sees its output columns, and the sources of its body if
that is a select. -/
def Query.qualify (x : Qualifier) (v : Visible) : Query → Except QualifyError QualifiedQuery
  | { isRecursive, ctes, body, orderBy, limit, offset, offsetWord, fetch, locks } => do
    let (ctes, inner) ← Cte.qualifyList x isRecursive v ctes
    let (body, columns, scope) ← body.qualify x inner
    let behind := match scope with
      | some s => inner.withScope s
      | none => inner
    let orderBy ← OrderItem.qualifyList x behind columns.names orderBy
    return ({ isRecursive, ctes, body, orderBy, limit, offset, offsetWord, fetch, locks }, columns)
termination_by structural q => q

/-- A common table and its columns. In a recursive list it sees itself. -/
def Cte.qualify (x : Qualifier) (isRecursive : Bool) (v : Visible) :
    Cte → Except QualifyError (Cte × Columns)
  | .mk label materialized query source => do
    let seen :=
      if isRecursive then
        v.withCte label.name.value ((Columns.declared? label).getD (.ofOption query.knownNames))
      else v
    let (query, columns) ← query.qualify x seen
    return (.mk label materialized query source, (Columns.declared? label).getD columns)
termination_by structural c => c

/-- Common tables, each of which sees those before it, and what is visible behind them. -/
def Cte.qualifyList (x : Qualifier) (isRecursive : Bool) (v : Visible) :
    List Cte → Except QualifyError (List Cte × Visible)
  | [] => .ok ([], v)
  | c :: cs => do
    let (c, columns) ← c.qualify x isRecursive v
    let (cs, v) ← Cte.qualifyList x isRecursive (v.withCte c.name.value columns) cs
    return (c :: cs, v)
termination_by structural cs => cs

/-- A body with its columns, and its scope if it is a select. -/
def Body.qualify (x : Qualifier) (v : Visible) :
    Body → Except QualifyError (Body × Columns × Option Scope)
  | .select s => do
    let (s, columns, scope) ← s.qualify x v
    return (.select s, columns, some scope)
  | .parens query => do
    let (query, columns) ← query.qualify x v
    return (.parens query, columns, none)
  | .setOperation op quantifier left right => do
    let (left, columns, _) ← left.qualify x v
    let (right, _) ← right.qualify x v
    return (.setOperation op quantifier left right, columns, none)
  | .values explicitRow rows => .ok (.values explicitRow rows, valuesColumns rows, none)
  | .defaultValues => .ok (.defaultValues, .unknown, none)
  | .table name => .ok (.table name, .unknown, none)
  | .insert i => .ok (.insert i, .unknown, none)
  | .update u => .ok (.update u, .unknown, none)
termination_by structural b => b

/-- A select with its columns and its scope. -/
def Select.qualify (x : Qualifier) (v : Visible) :
    Select → Except QualifyError (Select × Columns × Scope)
  | { distinct, top, topCount, items, into, sources, lateralViews, lateralRows, filter, groupBy,
      clusterBy, distributeBy, sortBy, having, windows, windowFilter, windowsFirst } => do
    let (registered, scope) ← TableTree.registerList x v {} sources
    let names := SelectItem.outputNames 0 (scope.expandItems items)
    let outputs := names.filterMap id
    let inner := v.withScope scope
    let sources ← TableTree.qualifyJoinsList x inner sources registered
    let items ← SelectItem.qualifyList x inner scope 0 items
    let distinct ← distinct.qualify x inner
    let filter ← Expr.qualifyOption x inner [] filter
    let groupBy ← groupBy.qualify x inner outputs
    let having ← Expr.qualifyOption x inner outputs having
    let select : Select :=
      { distinct, top, topCount, items, into, sources, lateralViews, lateralRows, filter, groupBy,
        clusterBy, distributeBy, sortBy, having, windows, windowFilter, windowsFirst }
    return (select, .ofOption (allSome names), scope)
termination_by structural s => s

def Distinct.qualify (x : Qualifier) (v : Visible) : Distinct → Except QualifyError Distinct
  | .unsaid => .ok .unsaid
  | .rows => .ok .rows
  | .on keys => return .on (← Expr.qualifyList x v [] keys)
termination_by structural d => d

/-- What an item of a select becomes, at the given position. -/
def SelectItem.qualify (x : Qualifier) (v : Visible) (scope : Scope) (index : Nat) :
    SelectItem → Except QualifyError (List SelectItem)
  | .expr e label => do
    let name := label.getD (itemAlias e index)
    return [.expr (← e.qualify x v []) (some name)]
  | .star => .ok (nameItems index scope.expandStar)
  | .starOf name => .ok (nameItems index (scope.expandStarOf name))
termination_by structural i => i

/-- What the items of a select become, the first of them at the given position. -/
def SelectItem.qualifyList (x : Qualifier) (v : Visible) (scope : Scope) (index : Nat) :
    List SelectItem → Except QualifyError (List SelectItem)
  | [] => .ok []
  | i :: is => do
    let first ← i.qualify x v scope index
    return first ++ (← SelectItem.qualifyList x v scope (index + first.length) is)
termination_by structural is => is

/-- A grouping; it may name output columns. -/
def GroupBy.qualify (x : Qualifier) (v : Visible) (outputs : List String) :
    GroupBy → Except QualifyError GroupBy
  | .keys keys => return .keys (← Expr.qualifyList x v outputs keys)
  | .all => .ok .all
termination_by structural g => g

/-- Adds a table and what is joined to it to a scope. -/
def TableTree.register (x : Qualifier) (v : Visible) (scope : Scope) :
    TableTree → Except QualifyError (TableTree × Scope)
  | .mk first joins => do
    let start := scope.size
    let (first, scope) ← first.register x v scope
    let (joins, scope) ← Join.registerList x v start scope joins
    return (.mk first joins, scope)
termination_by structural t => t

/-- Adds tables and what is joined to them to a scope. -/
def TableTree.registerList (x : Qualifier) (v : Visible) (scope : Scope) :
    List TableTree → Except QualifyError (List TableTree × Scope)
  | [] => .ok ([], scope)
  | t :: ts => do
    let (t, scope) ← t.register x v scope
    let (ts, scope) ← TableTree.registerList x v scope ts
    return (t :: ts, scope)
termination_by structural ts => ts

/-- Adds a join to a scope; the left side starts at the given position. -/
def Join.register (x : Qualifier) (v : Visible) (start : Nat) (scope : Scope) :
    Join → Except QualifyError (Join × Scope)
  | .mk isGlobal kind factor matching condition => do
    let split := scope.size
    let (factor, scope) ← factor.register x v scope
    return (.mk isGlobal kind factor matching condition,
      scope.mergeJoin ⟨start, split⟩ ⟨split, scope.size⟩ condition)
termination_by structural j => j

/-- Adds joins to a scope, one after another. -/
def Join.registerList (x : Qualifier) (v : Visible) (start : Nat) (scope : Scope) :
    List Join → Except QualifyError (List Join × Scope)
  | [] => .ok ([], scope)
  | j :: js => do
    let (j, scope) ← j.register x v start scope
    let (js, scope) ← Join.registerList x v start scope js
    return (j :: js, scope)
termination_by structural js => js

/-- Adds a table to a scope. A `LATERAL` query sees the sources before it. -/
def TableFactor.register (x : Qualifier) (v : Visible) (scope : Scope) :
    TableFactor → Except QualifyError (TableFactor × Scope)
  | .table name numbered label hints =>
    let (name, scope) := scope.registerTable x v name label
    .ok (.table name numbered label hints, scope)
  | .tableFunction name arguments numbered label hints =>
    .ok (.tableFunction name arguments numbered label hints, scope.registerFunction label)
  | .lateralFunction name arguments label =>
    .ok (.lateralFunction name arguments label, scope.registerFunction label)
  | .tableOf e label => .ok (.tableOf e label, scope.registerFunction label)
  | .unnest arrays numbered label offset =>
    .ok (.unnest arrays numbered label offset, scope.registerFunction label)
  | .derived lateral query label => do
    let (query, columns) ← query.qualify x (if lateral then v.withScope scope else v)
    return (.derived lateral query label, scope.registerDerived label columns)
  | .nested tables label => do
    let (tables, scope) ← tables.register x v scope
    return (.nested tables label, scope)
  | .document opening e rest label => .ok (.document opening e rest label, scope)
  | .pivot table aggregates column values otherwise label =>
    .ok (.pivot table aggregates column values otherwise label, scope)
  | .unpivot table value name columns label =>
    .ok (.unpivot table value name columns label, scope)
termination_by structural f => f

/-- Qualifies the conditions of joins, given the tables as registered. -/
def TableTree.qualifyJoins (x : Qualifier) (v : Visible) :
    TableTree → TableTree → Except QualifyError TableTree
  | .mk first joins, .mk first' joins' => do
    let first ← first.qualifyJoins x v first'
    return .mk first (← Join.qualifyJoinsList x v joins joins')
termination_by structural t => t

/-- Qualifies the conditions of all joins. -/
def TableTree.qualifyJoinsList (x : Qualifier) (v : Visible) :
    List TableTree → List TableTree → Except QualifyError (List TableTree)
  | t :: ts, t' :: ts' => do
    let t ← t.qualifyJoins x v t'
    return t :: (← TableTree.qualifyJoinsList x v ts ts')
  | _, _ => .ok []
termination_by structural ts => ts

/-- Qualifies the condition of a join and the conditions inside its table. -/
def Join.qualifyJoins (x : Qualifier) (v : Visible) : Join → Join → Except QualifyError Join
  | .mk isGlobal kind factor matching condition, .mk _ _ factor' _ _ => do
    let factor ← factor.qualifyJoins x v factor'
    return .mk isGlobal kind factor matching (← condition.qualify x v)
termination_by structural j => j

/-- Qualifies the conditions of joins, one after another. -/
def Join.qualifyJoinsList (x : Qualifier) (v : Visible) :
    List Join → List Join → Except QualifyError (List Join)
  | j :: js, j' :: js' => do
    let j ← j.qualifyJoins x v j'
    return j :: (← Join.qualifyJoinsList x v js js')
  | _, _ => .ok []
termination_by structural js => js

/-- Qualifies the conditions inside a table. -/
def TableFactor.qualifyJoins (x : Qualifier) (v : Visible) :
    TableFactor → TableFactor → Except QualifyError TableFactor
  | .nested tables _, .nested tables' label => do
    return .nested (← tables.qualifyJoins x v tables') label
  | _, registered => .ok registered
termination_by structural f => f

def JoinCondition.qualify (x : Qualifier) (v : Visible) :
    JoinCondition → Except QualifyError JoinCondition
  | .absent => .ok .absent
  | .on e => return .on (← e.qualify x v [])
  | .using columns => .ok (.using columns)
  | .natural => .ok .natural
termination_by structural c => c

end

/-- The query with its tables and columns qualified. -/
def Qualifier.qualify (x : Qualifier) (q : Query) : Except QualifyError Query :=
  return (← q.qualify x {}).1

end ColumnLineage
