import ColumnLineage.Syntax.Query

/-!
# The parts of a query

All queries and tables inside a query, in the order of the walk: a query comes before what it
holds. Functions that give rows are no tables.
-/

namespace ColumnLineage

/-- What a walk over a query meets. -/
inductive Part
  | query (q : Query)
  | table (name : ObjectName) (label : Option TableAlias)

mutual

def Expr.parts : Expr → List Part
  | .column _ => []
  | .path _ => []
  | .rowOf _ => []
  | .literal _ => []
  | .unary _ operand => operand.parts
  | .binary _ left right => left.parts ++ right.parts
  | .between _ e low high => e.parts ++ low.parts ++ high.parts
  | .substring _ e start length => e.parts ++ Expr.partsOption start ++ Expr.partsOption length
  | .trim _ e characters => e.parts ++ Expr.partsOption characters
  | .overlay e new start length => e.parts ++ new.parts ++ start.parts ++ Expr.partsOption length
  | .cases operand conditions results otherwise =>
    Expr.partsOption operand ++ Expr.partsList conditions ++ Expr.partsList results ++
      Expr.partsOption otherwise
  | .tuple items => Expr.partsList items
  | .slice e lower upper stride =>
    e.parts ++ Expr.partsOption lower ++ Expr.partsOption upper ++ Expr.partsOption stride
  | .array _ items => Expr.partsList items
  | .grouping _ sets => Expr.partsLists sets
  | .inList _ e items => e.parts ++ Expr.partsList items
  | .inQuery _ e query => e.parts ++ query.parts
  | .existence _ query => query.parts
  | .scalar query => query.parts
  | .call _ arguments filter _ window withinGroup =>
    arguments.parts ++ Expr.partsOption filter ++ window.parts ++ OrderItem.partsList withinGroup
termination_by structural e => e

def Expr.partsList : List Expr → List Part
  | [] => []
  | e :: es => e.parts ++ Expr.partsList es
termination_by structural es => es

def Expr.partsLists : List (List Expr) → List Part
  | [] => []
  | es :: ess => Expr.partsList es ++ Expr.partsLists ess
termination_by structural ess => ess

/-- The parts of an expression that may be absent. -/
def Expr.partsOption : Option Expr → List Part
  | none => []
  | some e => e.parts
termination_by structural e => e

def Arguments.parts : Arguments → List Part
  | .absent => []
  | .query query => query.parts
  | .list _ items orderBy limit _ filler _ =>
    Argument.partsList items ++ OrderItem.partsList orderBy ++ Expr.partsOption limit ++
      Expr.partsOption filler
termination_by structural a => a

def Argument.parts : Argument → List Part
  | .positional value => value.parts
  | .named name _ value => name.parts ++ value.parts
termination_by structural a => a

def Argument.partsList : List Argument → List Part
  | [] => []
  | a :: as => a.parts ++ Argument.partsList as
termination_by structural as => as

def ArgumentValue.parts : ArgumentValue → List Part
  | .expr e => e.parts
  | .star => []
  | .starOf _ => []
termination_by structural v => v

def OrderItem.parts : OrderItem → List Part
  | .mk e _ _ => e.parts
termination_by structural o => o

def OrderItem.partsList : List OrderItem → List Part
  | [] => []
  | o :: os => o.parts ++ OrderItem.partsList os
termination_by structural os => os

def Window.parts : Window → List Part
  | .absent => []
  | .named _ => []
  | .spec _ partitionBy orderBy frame =>
    Expr.partsList partitionBy ++ OrderItem.partsList orderBy ++ frame.parts
termination_by structural w => w

def Frame.parts : Frame → List Part
  | .absent => []
  | .start _ first => first.parts
  | .span _ first last => first.parts ++ last.parts
termination_by structural f => f

def Bound.parts : Bound → List Part
  | .currentRow => []
  | .preceding rows => Expr.partsOption rows
  | .following rows => Expr.partsOption rows
termination_by structural b => b

def Query.parts : Query → List Part
  | { isRecursive, ctes, body, orderBy, limit, offset, offsetWord, fetch, locks } =>
    .query { isRecursive, ctes, body, orderBy, limit, offset, offsetWord, fetch, locks } ::
      (Cte.partsList ctes ++ body.parts ++ OrderItem.partsList orderBy ++
        Expr.partsOption limit ++ Expr.partsOption offset)
termination_by structural q => q

def Cte.parts : Cte → List Part
  | .mk _ _ query _ => query.parts
termination_by structural c => c

def Cte.partsList : List Cte → List Part
  | [] => []
  | c :: cs => c.parts ++ Cte.partsList cs
termination_by structural cs => cs

def Body.parts : Body → List Part
  | .select s => s.parts
  | .parens query => query.parts
  | .setOperation _ _ left right => left.parts ++ right.parts
  | .values _ rows => Expr.partsLists rows
  | .defaultValues => []
  | .table _ => []
  | .insert i => i.parts
  | .update u => u.parts
termination_by structural b => b

def Insert.parts : Insert → List Part
  | { alternative := _, overwrite := _, into := _, named := _, table := _, label := _,
      columns := _, source, partition, conflict := _, assignments, filter, returning } =>
    source.parts ++ Expr.partsList partition ++ Assignment.partsList assignments ++
      Expr.partsOption filter ++ SelectItem.partsList returning
termination_by structural i => i

def Assignment.parts : Assignment → List Part
  | .mk _ value => value.parts
termination_by structural a => a

def Assignment.partsList : List Assignment → List Part
  | [] => []
  | a :: as => a.parts ++ Assignment.partsList as
termination_by structural as => as

def Update.parts : Update → List Part
  | { alternative := _, table, assignments, sources, filter, returning } =>
    table.parts ++ Assignment.partsList assignments ++ TableTree.partsList sources ++
      Expr.partsOption filter ++ SelectItem.partsList returning
termination_by structural u => u

def Select.parts : Select → List Part
  | { distinct, top := _, topCount, items, into := _, sources, lateralViews := _, lateralRows,
      filter, groupBy, clusterBy, distributeBy, sortBy, having, windows, windowFilter,
      windowsFirst := _ } =>
    distinct.parts ++ Expr.partsOption topCount ++ SelectItem.partsList items ++
      TableTree.partsList sources ++ Expr.partsList lateralRows ++ Expr.partsOption filter ++
      groupBy.parts ++ Expr.partsList clusterBy ++ Expr.partsList distributeBy ++
      Expr.partsList sortBy ++ Expr.partsOption having ++ NamedWindow.partsList windows ++
      Expr.partsOption windowFilter
termination_by structural s => s

/-- The parts of what is said about equal rows. -/
def Distinct.parts : Distinct → List Part
  | .unsaid => []
  | .rows => []
  | .on keys => Expr.partsList keys
termination_by structural d => d

def SelectItem.parts : SelectItem → List Part
  | .expr e _ => e.parts
  | .star => []
  | .starOf _ => []
termination_by structural i => i

def SelectItem.partsList : List SelectItem → List Part
  | [] => []
  | i :: is => i.parts ++ SelectItem.partsList is
termination_by structural is => is

def GroupBy.parts : GroupBy → List Part
  | .keys keys => Expr.partsList keys
  | .all => []
termination_by structural g => g

def NamedWindow.parts : NamedWindow → List Part
  | .mk _ window => window.parts
termination_by structural w => w

def NamedWindow.partsList : List NamedWindow → List Part
  | [] => []
  | w :: ws => w.parts ++ NamedWindow.partsList ws
termination_by structural ws => ws

def TableTree.parts : TableTree → List Part
  | .mk first joins => first.parts ++ Join.partsList joins
termination_by structural t => t

def TableTree.partsList : List TableTree → List Part
  | [] => []
  | t :: ts => t.parts ++ TableTree.partsList ts
termination_by structural ts => ts

def Join.parts : Join → List Part
  | .mk _ _ factor matching condition =>
    factor.parts ++ Expr.partsOption matching ++ condition.parts
termination_by structural j => j

def Join.partsList : List Join → List Part
  | [] => []
  | j :: js => j.parts ++ Join.partsList js
termination_by structural js => js

def JoinCondition.parts : JoinCondition → List Part
  | .absent => []
  | .on e => e.parts
  | .using _ => []
  | .natural => []
termination_by structural c => c

def TableFactor.parts : TableFactor → List Part
  | .table name _ label hints => .table name label :: Expr.partsList hints
  | .tableFunction _ arguments _ _ hints => Argument.partsList arguments ++ Expr.partsList hints
  | .lateralFunction _ arguments _ => Argument.partsList arguments
  | .tableOf e _ => e.parts
  | .unnest arrays _ _ _ => Expr.partsList arrays
  | .derived _ query _ => query.parts
  | .nested tables _ => tables.parts
  | .document _ e _ _ => e.parts
  | .pivot table aggregates _ values otherwise _ =>
    table.parts ++ SelectItem.partsList aggregates ++ values.parts ++ Expr.partsOption otherwise
  | .unpivot table _ _ _ _ => table.parts
termination_by structural f => f

/-- The parts of the values of a `PIVOT` clause. -/
def PivotValues.parts : PivotValues → List Part
  | .list items => SelectItem.partsList items
  | .any orderBy => OrderItem.partsList orderBy
  | .query query => query.parts
termination_by structural v => v

end

/-! ## Common tables and tables -/

/-- All common tables declared anywhere in a query, in the order of the walk. -/
def Query.allCtes (q : Query) : List Cte :=
  q.parts.flatMap fun
    | .query inner => inner.ctes
    | .table _ _ => []

/-- All tables in a query with their aliases, in the order of the walk. -/
def Query.allTables (q : Query) : List (ObjectName × Option TableAlias) :=
  q.parts.filterMap fun
    | .query _ => none
    | .table name label => some (name, label)

end ColumnLineage
