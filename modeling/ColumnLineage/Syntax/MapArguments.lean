import ColumnLineage.Syntax.Query

/-!
# Changing the arguments of calls

Applies a function to every argument of every call inside a query. Everything else stays. What a
table function is given is no argument of a call, but calls inside it are.
-/

namespace ColumnLineage

mutual

/-- Changes the arguments inside an expression. -/
def Expr.mapArguments (f : Argument → Argument) : Expr → Expr
  | .column name => .column name
  | .path parts => .path parts
  | .rowOf name => .rowOf name
  | .literal value => .literal value
  | .unary form operand => .unary form (operand.mapArguments f)
  | .binary form left right => .binary form (left.mapArguments f) (right.mapArguments f)
  | .between negated e low high =>
    .between negated (e.mapArguments f) (low.mapArguments f) (high.mapArguments f)
  | .substring commaStyle e start length =>
    .substring commaStyle (e.mapArguments f) (Expr.mapArgumentsOption f start)
      (Expr.mapArgumentsOption f length)
  | .trim side e characters =>
    .trim side (e.mapArguments f) (Expr.mapArgumentsOption f characters)
  | .overlay e new start length =>
    .overlay (e.mapArguments f) (new.mapArguments f) (start.mapArguments f)
      (Expr.mapArgumentsOption f length)
  | .cases operand conditions results otherwise =>
    .cases (Expr.mapArgumentsOption f operand) (Expr.mapArgumentsList f conditions)
      (Expr.mapArgumentsList f results) (Expr.mapArgumentsOption f otherwise)
  | .tuple items => .tuple (Expr.mapArgumentsList f items)
  | .slice e lower upper stride =>
    .slice (e.mapArguments f) (Expr.mapArgumentsOption f lower) (Expr.mapArgumentsOption f upper)
      (Expr.mapArgumentsOption f stride)
  | .array named items => .array named (Expr.mapArgumentsList f items)
  | .grouping kind sets => .grouping kind (Expr.mapArgumentsLists f sets)
  | .inList negated e items => .inList negated (e.mapArguments f) (Expr.mapArgumentsList f items)
  | .inQuery negated e query => .inQuery negated (e.mapArguments f) (query.mapArguments f)
  | .existence negated query => .existence negated (query.mapArguments f)
  | .scalar query => .scalar (query.mapArguments f)
  | .call name arguments filter nulls window withinGroup =>
    .call name (arguments.mapArguments f) (Expr.mapArgumentsOption f filter) nulls
      (window.mapArguments f) (OrderItem.mapArgumentsList f withinGroup)
termination_by structural e => e

/-- Changes the arguments inside expressions. -/
def Expr.mapArgumentsList (f : Argument → Argument) : List Expr → List Expr
  | [] => []
  | e :: es => e.mapArguments f :: Expr.mapArgumentsList f es
termination_by structural es => es

/-- Changes the arguments inside lists of expressions. -/
def Expr.mapArgumentsLists (f : Argument → Argument) : List (List Expr) → List (List Expr)
  | [] => []
  | es :: ess => Expr.mapArgumentsList f es :: Expr.mapArgumentsLists f ess
termination_by structural ess => ess

/-- Changes the arguments inside an expression that may be absent. -/
def Expr.mapArgumentsOption (f : Argument → Argument) : Option Expr → Option Expr
  | none => none
  | some e => some (e.mapArguments f)
termination_by structural e => e

/-- Changes the arguments of a call and those inside them. -/
def Arguments.mapArguments (f : Argument → Argument) : Arguments → Arguments
  | .absent => .absent
  | .query query => .query (query.mapArguments f)
  | .list duplicates items orderBy limit overflow filler nulls =>
    .list duplicates ((Argument.mapArgumentsList f items).map f)
      (OrderItem.mapArgumentsList f orderBy) (Expr.mapArgumentsOption f limit) overflow
      (Expr.mapArgumentsOption f filler) nulls
termination_by structural a => a

/-- Changes the arguments inside an argument. -/
def Argument.mapArguments (f : Argument → Argument) : Argument → Argument
  | .positional value => .positional (value.mapArguments f)
  | .named name sign value => .named (name.mapArguments f) sign (value.mapArguments f)
termination_by structural a => a

/-- Changes the arguments inside arguments. -/
def Argument.mapArgumentsList (f : Argument → Argument) : List Argument → List Argument
  | [] => []
  | a :: as => a.mapArguments f :: Argument.mapArgumentsList f as
termination_by structural as => as

/-- Changes the arguments inside an argument's value. -/
def ArgumentValue.mapArguments (f : Argument → Argument) : ArgumentValue → ArgumentValue
  | .expr e => .expr (e.mapArguments f)
  | .star => .star
  | .starOf name => .starOf name
termination_by structural v => v

/-- Changes the arguments inside an item of an order. -/
def OrderItem.mapArguments (f : Argument → Argument) : OrderItem → OrderItem
  | .mk e ascending nullsFirst => .mk (e.mapArguments f) ascending nullsFirst
termination_by structural o => o

/-- Changes the arguments inside an order. -/
def OrderItem.mapArgumentsList (f : Argument → Argument) : List OrderItem → List OrderItem
  | [] => []
  | o :: os => o.mapArguments f :: OrderItem.mapArgumentsList f os
termination_by structural os => os

/-- Changes the arguments inside a window. -/
def Window.mapArguments (f : Argument → Argument) : Window → Window
  | .absent => .absent
  | .named name => .named name
  | .spec base partitionBy orderBy frame =>
    .spec base (Expr.mapArgumentsList f partitionBy) (OrderItem.mapArgumentsList f orderBy)
      (frame.mapArguments f)
termination_by structural w => w

def Frame.mapArguments (f : Argument → Argument) : Frame → Frame
  | .absent => .absent
  | .start unit first => .start unit (first.mapArguments f)
  | .span unit first last => .span unit (first.mapArguments f) (last.mapArguments f)
termination_by structural x => x

def Bound.mapArguments (f : Argument → Argument) : Bound → Bound
  | .currentRow => .currentRow
  | .preceding rows => .preceding (Expr.mapArgumentsOption f rows)
  | .following rows => .following (Expr.mapArgumentsOption f rows)
termination_by structural b => b

def Query.mapArguments (f : Argument → Argument) : Query → Query
  | { isRecursive, ctes, body, orderBy, limit, offset, offsetWord, fetch, locks } =>
    { isRecursive, ctes := Cte.mapArgumentsList f ctes, body := body.mapArguments f,
      orderBy := OrderItem.mapArgumentsList f orderBy, limit := Expr.mapArgumentsOption f limit,
      offset := Expr.mapArgumentsOption f offset, offsetWord, fetch, locks }
termination_by structural q => q

/-- Changes the arguments inside a common table. -/
def Cte.mapArguments (f : Argument → Argument) : Cte → Cte
  | .mk label materialized query source => .mk label materialized (query.mapArguments f) source
termination_by structural c => c

/-- Changes the arguments inside common tables. -/
def Cte.mapArgumentsList (f : Argument → Argument) : List Cte → List Cte
  | [] => []
  | c :: cs => c.mapArguments f :: Cte.mapArgumentsList f cs
termination_by structural cs => cs

def Body.mapArguments (f : Argument → Argument) : Body → Body
  | .select s => .select (s.mapArguments f)
  | .parens query => .parens (query.mapArguments f)
  | .setOperation op quantifier left right =>
    .setOperation op quantifier (left.mapArguments f) (right.mapArguments f)
  | .values explicitRow rows => .values explicitRow (Expr.mapArgumentsLists f rows)
  | .defaultValues => .defaultValues
  | .table name => .table name
  | .insert i => .insert (i.mapArguments f)
  | .update u => .update (u.mapArguments f)
termination_by structural b => b

/-- Changes the arguments inside an insertion. -/
def Insert.mapArguments (f : Argument → Argument) : Insert → Insert
  | { alternative, overwrite, into, named, table, label, columns, source, partition, conflict,
      assignments, filter, returning } =>
    { alternative, overwrite, into, named, table, label, columns, source := source.mapArguments f,
      partition := Expr.mapArgumentsList f partition, conflict,
      assignments := Assignment.mapArgumentsList f assignments,
      filter := Expr.mapArgumentsOption f filter,
      returning := SelectItem.mapArgumentsList f returning }
termination_by structural i => i

/-- Changes the arguments inside an assignment. -/
def Assignment.mapArguments (f : Argument → Argument) : Assignment → Assignment
  | .mk target value => .mk target (value.mapArguments f)
termination_by structural a => a

/-- Changes the arguments inside assignments. -/
def Assignment.mapArgumentsList (f : Argument → Argument) : List Assignment → List Assignment
  | [] => []
  | a :: as => a.mapArguments f :: Assignment.mapArgumentsList f as
termination_by structural as => as

/-- Changes the arguments inside a change of rows. -/
def Update.mapArguments (f : Argument → Argument) : Update → Update
  | { alternative, table, assignments, sources, filter, returning } =>
    { alternative, table := table.mapArguments f,
      assignments := Assignment.mapArgumentsList f assignments,
      sources := TableTree.mapArgumentsList f sources,
      filter := Expr.mapArgumentsOption f filter,
      returning := SelectItem.mapArgumentsList f returning }
termination_by structural u => u

/-- Changes the arguments inside a select. -/
def Select.mapArguments (f : Argument → Argument) : Select → Select
  | { distinct, top, topCount, items, into, sources, lateralViews, lateralRows, filter, groupBy,
      clusterBy, distributeBy, sortBy, having, windows, windowFilter, windowsFirst } =>
    { distinct := distinct.mapArguments f, top, topCount := Expr.mapArgumentsOption f topCount,
      items := SelectItem.mapArgumentsList f items, into,
      sources := TableTree.mapArgumentsList f sources, lateralViews,
      lateralRows := Expr.mapArgumentsList f lateralRows,
      filter := Expr.mapArgumentsOption f filter, groupBy := groupBy.mapArguments f,
      clusterBy := Expr.mapArgumentsList f clusterBy,
      distributeBy := Expr.mapArgumentsList f distributeBy,
      sortBy := Expr.mapArgumentsList f sortBy, having := Expr.mapArgumentsOption f having,
      windows := NamedWindow.mapArgumentsList f windows,
      windowFilter := Expr.mapArgumentsOption f windowFilter, windowsFirst }
termination_by structural s => s

/-- Changes the arguments inside what is said about equal rows. -/
def Distinct.mapArguments (f : Argument → Argument) : Distinct → Distinct
  | .unsaid => .unsaid
  | .rows => .rows
  | .on keys => .on (Expr.mapArgumentsList f keys)
termination_by structural d => d

/-- Changes the arguments inside an item of a select. -/
def SelectItem.mapArguments (f : Argument → Argument) : SelectItem → SelectItem
  | .expr e label => .expr (e.mapArguments f) label
  | .star => .star
  | .starOf name => .starOf name
termination_by structural i => i

/-- Changes the arguments inside the items of a select. -/
def SelectItem.mapArgumentsList (f : Argument → Argument) : List SelectItem → List SelectItem
  | [] => []
  | i :: is => i.mapArguments f :: SelectItem.mapArgumentsList f is
termination_by structural is => is

/-- Changes the arguments inside a grouping. -/
def GroupBy.mapArguments (f : Argument → Argument) : GroupBy → GroupBy
  | .keys keys => .keys (Expr.mapArgumentsList f keys)
  | .all => .all
termination_by structural g => g

/-- Changes the arguments inside a named window. -/
def NamedWindow.mapArguments (f : Argument → Argument) : NamedWindow → NamedWindow
  | .mk name window => .mk name (window.mapArguments f)
termination_by structural w => w

/-- Changes the arguments inside named windows. -/
def NamedWindow.mapArgumentsList (f : Argument → Argument) : List NamedWindow → List NamedWindow
  | [] => []
  | w :: ws => w.mapArguments f :: NamedWindow.mapArgumentsList f ws
termination_by structural ws => ws

/-- Changes the arguments inside a table and its joins. -/
def TableTree.mapArguments (f : Argument → Argument) : TableTree → TableTree
  | .mk first joins => .mk (first.mapArguments f) (Join.mapArgumentsList f joins)
termination_by structural t => t

/-- Changes the arguments inside tables and their joins. -/
def TableTree.mapArgumentsList (f : Argument → Argument) : List TableTree → List TableTree
  | [] => []
  | t :: ts => t.mapArguments f :: TableTree.mapArgumentsList f ts
termination_by structural ts => ts

def Join.mapArguments (f : Argument → Argument) : Join → Join
  | .mk isGlobal kind factor matching condition =>
    .mk isGlobal kind (factor.mapArguments f) (Expr.mapArgumentsOption f matching)
      (condition.mapArguments f)
termination_by structural j => j

def Join.mapArgumentsList (f : Argument → Argument) : List Join → List Join
  | [] => []
  | j :: js => j.mapArguments f :: Join.mapArgumentsList f js
termination_by structural js => js

/-- Changes the arguments inside a condition. -/
def JoinCondition.mapArguments (f : Argument → Argument) : JoinCondition → JoinCondition
  | .absent => .absent
  | .on e => .on (e.mapArguments f)
  | .using columns => .using columns
  | .natural => .natural
termination_by structural c => c

def TableFactor.mapArguments (f : Argument → Argument) : TableFactor → TableFactor
  | .table name numbered label hints =>
    .table name numbered label (Expr.mapArgumentsList f hints)
  | .tableFunction name arguments numbered label hints =>
    .tableFunction name (Argument.mapArgumentsList f arguments) numbered label
      (Expr.mapArgumentsList f hints)
  | .lateralFunction name arguments label =>
    .lateralFunction name (Argument.mapArgumentsList f arguments) label
  | .tableOf e label => .tableOf (e.mapArguments f) label
  | .unnest arrays numbered label offset =>
    .unnest (Expr.mapArgumentsList f arrays) numbered label offset
  | .derived lateral query label => .derived lateral (query.mapArguments f) label
  | .nested tables label => .nested (tables.mapArguments f) label
  | .document opening e rest label => .document opening (e.mapArguments f) rest label
  | .pivot table aggregates column values otherwise label =>
    .pivot (table.mapArguments f) (SelectItem.mapArgumentsList f aggregates) column
      (values.mapArguments f) (Expr.mapArgumentsOption f otherwise) label
  | .unpivot table value name columns label =>
    .unpivot (table.mapArguments f) value name columns label
termination_by structural x => x

/-- Changes the arguments inside the values of a `PIVOT` clause. -/
def PivotValues.mapArguments (f : Argument → Argument) : PivotValues → PivotValues
  | .list items => .list (SelectItem.mapArgumentsList f items)
  | .any orderBy => .any (OrderItem.mapArgumentsList f orderBy)
  | .query query => .query (query.mapArguments f)
termination_by structural v => v

end

end ColumnLineage
