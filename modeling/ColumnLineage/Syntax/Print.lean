import ColumnLineage.Syntax.Query

/-!
# The text of a query

Every tree has one text: keywords in capitals, one blank between words, names as they were
written, aliases behind `AS`.
-/

namespace ColumnLineage

/-! ## Parts without expressions -/

def AliasColumn.text (c : AliasColumn) : String :=
  match c.type with
  | none => c.name.text
  | some type => c.name.text ++ " " ++ type.text

/-- The name, and the columns in parentheses. -/
def TableAlias.text (a : TableAlias) : String :=
  match a.columns with
  | [] => a.name.text
  | columns => a.name.text ++ " (" ++ commas (columns.map AliasColumn.text) ++ ")"

def aliasText : Option TableAlias → String
  | none => ""
  | some a => " AS " ++ a.text

def JoinKind.words : JoinKind → String
  | .inner => "JOIN"
  | .left => "LEFT JOIN"
  | .right => "RIGHT JOIN"
  | .full => "FULL JOIN"
  | .leftSemi => "LEFT SEMI JOIN"
  | .rightSemi => "RIGHT SEMI JOIN"
  | .leftAnti => "LEFT ANTI JOIN"
  | .rightAnti => "RIGHT ANTI JOIN"
  | .cross => "CROSS JOIN"
  | .crossApply => "CROSS APPLY"
  | .outerApply => "OUTER APPLY"
  | .semi => "SEMI JOIN"
  | .anti => "ANTI JOIN"
  | .asOf => "ASOF JOIN"

def SetOperator.word : SetOperator → String
  | .union => "UNION"
  | .except => "EXCEPT"
  | .intersect => "INTERSECT"

/-- The words behind that of a set operation, behind a blank. -/
def SetQuantifier.text : SetQuantifier → String
  | .unsaid => ""
  | .all => " ALL"
  | .distinct => " DISTINCT"
  | .byName => " BY NAME"
  | .allByName => " ALL BY NAME"
  | .distinctByName => " DISTINCT BY NAME"

/-- The word for duplicates, before a blank. -/
def Duplicates.text : Duplicates → String
  | .unsaid => ""
  | .all => "ALL "
  | .distinct => "DISTINCT "

/-- The sign or word between the name and the value of an argument. -/
def ArgumentSign.word : ArgumentSign → String
  | .arrow => "=>"
  | .colon => ":"
  | .value => "VALUE"

/-- The words for nulls among the arguments of a function, behind a blank. -/
def NullTreatment.text : NullTreatment → String
  | .unsaid => ""
  | .ignore => " IGNORE NULLS"
  | .respect => " RESPECT NULLS"

def DocumentNulls.text : DocumentNulls → String
  | .unsaid => ""
  | .kept => "NULL ON NULL"
  | .absent => "ABSENT ON NULL"

/-- The words for a list of values that becomes too long, around the text that stands for what is
left out. -/
def Overflow.text (filler : String) : Overflow → String
  | .unsaid => ""
  | .error => "ON OVERFLOW ERROR"
  | .truncate withCount =>
    "ON OVERFLOW TRUNCATE" ++ filler ++ (if withCount then " WITH COUNT" else " WITHOUT COUNT")

def FrameUnit.word : FrameUnit → String
  | .rows => "ROWS"
  | .range => "RANGE"
  | .groups => "GROUPS"

/-- The word for a side of `TRIM`. -/
def TrimSide.word : TrimSide → String
  | .both => "BOTH"
  | .leading => "LEADING"
  | .trailing => "TRAILING"

/-- The word behind the number of an `OFFSET`. -/
def RowWord.text : RowWord → String
  | .absent => ""
  | .row => " ROW"
  | .rows => " ROWS"

/-- The `FETCH FIRST` clause. -/
def Fetch.text (f : Fetch) : String :=
  "FETCH FIRST " ++
    (match f.quantity with
      | none => ""
      | some q => q.print ++ (if f.percent then " PERCENT " else " ")) ++
    "ROWS " ++ (if f.withTies then "WITH TIES" else "ONLY")

/-- What is done with the rows that are read, behind a blank. -/
def Lock.text : Lock → String
  | .rows share table wait =>
    (if share then " FOR SHARE" else " FOR UPDATE") ++
      (match table with
        | none => ""
        | some name => " OF " ++ name.text) ++ wait
  | .words w => " FOR " ++ w

/-- The table that a select makes, behind a blank. -/
def SelectInto.text (i : SelectInto) : String :=
  " INTO" ++ (if i.temporary then " TEMPORARY" else "") ++ (if i.unlogged then " UNLOGGED" else "") ++
    (if i.named then " TABLE " else " ") ++ i.name.text

/-- The words behind the number of a `TOP` clause. -/
def Top.extras (percent withTies : Bool) : String :=
  (if percent then " PERCENT" else "") ++ (if withTies then " WITH TIES " else " ")

/-- The `TOP` clause, before a blank, given the text of its expression. -/
def Top.text (count : String) : Top → String
  | .absent => ""
  | .rows number percent withTies => "TOP " ++ number ++ Top.extras percent withTies
  | .counted percent withTies => "TOP (" ++ count ++ ")" ++ Top.extras percent withTies

/-- Lateral views, each behind a blank, given the texts of their expressions. -/
def lateralText : List LateralView → List String → String
  | v :: vs, e :: es =>
    (if v.outer then " LATERAL VIEW OUTER " else " LATERAL VIEW ") ++ e ++ " " ++ v.name.text ++
      (match v.columns with
        | [] => ""
        | columns => " AS " ++ commas (columns.map Ident.text)) ++ lateralText vs es
  | _, _ => ""

/-- The words between `INSERT` and the table. An alternative is always written with `INTO`. -/
def insertionHead (alternative : String) (overwrite into named : Bool) : String :=
  match alternative with
  | "" =>
    (if overwrite then "OVERWRITE " else "") ++ (if into then "INTO " else "") ++
      (if named then "TABLE " else "")
  | _ => alternative ++ " INTO "

def AssignmentTarget.text : AssignmentTarget → String
  | .column name => name.text
  | .tuple names => "(" ++ commas (names.map ObjectName.text) ++ ")"

def ConflictTarget.text : ConflictTarget → String
  | .any => ""
  | .columns names => "(" ++ commas (names.map Ident.text) ++ ")"
  | .constraint name => " ON CONSTRAINT " ++ name.text

/-- The clause about rows in conflict, behind a blank, given the texts of the new values and of the
condition. -/
def Conflict.text (assignments filter : String) : Conflict → String
  | .unsaid => ""
  | .nothing target => " ON CONFLICT" ++ target.text ++ " DO NOTHING"
  | .update target =>
    " ON CONFLICT" ++ target.text ++ " DO UPDATE SET " ++ assignments ++ filter
  | .duplicateKey => " ON DUPLICATE KEY UPDATE " ++ assignments

def Grouping.words : Grouping → String
  | .sets => "GROUPING SETS"
  | .cube => "CUBE"
  | .rollup => "ROLLUP"

/-- One set of grouping columns; a single column needs no parentheses but in `GROUPING SETS`. -/
def Grouping.setText (kind : Grouping) (texts : List String) : String :=
  match kind, texts with
  | .cube, [t] => t
  | .rollup, [t] => t
  | _, _ => "(" ++ commas texts ++ ")"

/-- The direction and the place of nulls in an `ORDER BY` item. -/
def orderText (ascending nullsFirst : Option Bool) : String :=
  (match ascending with
    | none => ""
    | some true => " ASC"
    | some false => " DESC") ++
  (match nullsFirst with
    | none => ""
    | some true => " NULLS FIRST"
    | some false => " NULLS LAST")

/-- The parts that are there, with blanks between them. -/
def blanks (parts : List String) : String :=
  " ".intercalate (parts.filter (· ≠ ""))

/-- A list behind its keyword; nothing if the list is empty. -/
def clause (keyword : String) (texts : List String) : String :=
  match texts with
  | [] => ""
  | _ => keyword ++ commas texts

/-- The conditions of a `CASE` with their results. -/
def branchesText : List String → List String → String
  | c :: cs, r :: rs => " WHEN " ++ c ++ " THEN " ++ r ++ branchesText cs rs
  | _, _ => ""

/-- The words for numbered rows, behind a blank. -/
def numberedText (numbered : Bool) : String :=
  if numbered then " WITH ORDINALITY" else ""

/-- The hints about a table, behind a blank. -/
def hintsText : List String → String
  | [] => ""
  | texts => " WITH (" ++ commas texts ++ ")"

/-- Whether an expression is a query in parentheses. -/
def Expr.isScalar : Expr → Bool
  | .scalar _ => true
  | _ => false

/-! ## The family of trees -/

mutual

def Expr.text : Expr → String
  | .column name => name.text
  | .path parts => (ObjectName.mk parts).text
  | .rowOf name => name.text ++ ".*"
  | .literal value => value.print
  | .unary form operand => form.print operand.text
  | .binary form left right => form.print left.text right.text right.isScalar
  | .between negated e low high =>
    e.text ++ (if negated then " NOT BETWEEN " else " BETWEEN ") ++ low.text ++ " AND " ++ high.text
  | .substring commaStyle e start length =>
    "SUBSTRING(" ++ e.text ++ Expr.textAfter (if commaStyle then ", " else " FROM ") start ++
      Expr.textAfter (if commaStyle then ", " else " FOR ") length ++ ")"
  | .trim side e characters =>
    "TRIM(" ++ (match side with
      | none => ""
      | some s => s.word ++ " ") ++
      Expr.textBefore " FROM " characters ++ e.text ++ ")"
  | .overlay e new start length =>
    "OVERLAY(" ++ e.text ++ " PLACING " ++ new.text ++ " FROM " ++ start.text ++
      Expr.textAfter " FOR " length ++ ")"
  | .cases operand conditions results otherwise =>
    "CASE" ++ Expr.textAfter " " operand ++
      branchesText (Expr.texts conditions) (Expr.texts results) ++
      Expr.textAfter " ELSE " otherwise ++ " END"
  | .tuple items => "(" ++ commas (Expr.texts items) ++ ")"
  | .slice e lower upper stride =>
    e.text ++ "[" ++ Expr.textAfter "" lower ++ ":" ++ Expr.textAfter "" upper ++
      Expr.textAfter ":" stride ++ "]"
  | .array named items => (if named then "ARRAY[" else "[") ++ commas (Expr.texts items) ++ "]"
  | .grouping kind sets =>
    kind.words ++ " (" ++ commas ((Expr.textLists sets).map kind.setText) ++ ")"
  | .inList negated e items =>
    e.text ++ (if negated then " NOT IN (" else " IN (") ++ commas (Expr.texts items) ++ ")"
  | .inQuery negated e query =>
    e.text ++ (if negated then " NOT IN (" else " IN (") ++ query.text ++ ")"
  | .existence negated query =>
    (if negated then "NOT EXISTS (" else "EXISTS (") ++ query.text ++ ")"
  | .scalar query => "(" ++ query.text ++ ")"
  | .call name arguments filter nulls window withinGroup =>
    name.text ++ arguments.text ++
      (match OrderItem.texts withinGroup with
        | [] => ""
        | texts => " WITHIN GROUP (ORDER BY " ++ commas texts ++ ")") ++
      (match filter with
        | none => ""
        | some e => " FILTER (WHERE " ++ e.text ++ ")") ++ nulls.text ++ window.textAfter " OVER "

def Expr.texts : List Expr → List String
  | [] => []
  | e :: es => e.text :: Expr.texts es

def Expr.textLists : List (List Expr) → List (List String)
  | [] => []
  | es :: ess => Expr.texts es :: Expr.textLists ess

/-- An expression that may be absent, behind a text. -/
def Expr.textAfter (lead : String) : Option Expr → String
  | none => ""
  | some e => lead ++ e.text

/-- An expression that may be absent, before a text. -/
def Expr.textBefore (trail : String) : Option Expr → String
  | none => ""
  | some e => e.text ++ trail

def Arguments.text : Arguments → String
  | .absent => ""
  | .query query => "(" ++ query.text ++ ")"
  | .list duplicates items orderBy limit overflow filler nulls =>
    "(" ++ duplicates.text ++
      blanks [commas (Argument.texts items), nulls.before.text,
        clause "ORDER BY " (OrderItem.texts orderBy), Expr.textAfter "LIMIT " limit,
        overflow.text (Expr.textAfter " " filler), nulls.behind.text] ++ ")"

def Argument.text : Argument → String
  | .positional value => value.text
  | .named name sign value => name.text ++ " " ++ sign.word ++ " " ++ value.text

def Argument.texts : List Argument → List String
  | [] => []
  | a :: as => a.text :: Argument.texts as

def ArgumentValue.text : ArgumentValue → String
  | .expr e => e.text
  | .star => "*"
  | .starOf name => name.text ++ ".*"

/-- The text of an `ORDER BY` item. -/
def OrderItem.text : OrderItem → String
  | .mk e ascending nullsFirst => e.text ++ orderText ascending nullsFirst

/-- The texts of `ORDER BY` items. -/
def OrderItem.texts : List OrderItem → List String
  | [] => []
  | o :: os => o.text :: OrderItem.texts os

/-- The text of a window behind a lead: its name, or its parts in parentheses. -/
def Window.textAfter (lead : String) : Window → String
  | .absent => ""
  | .named name => lead ++ name.text
  | .spec base partitionBy orderBy frame =>
    lead ++ "(" ++ blanks [(match base with
        | none => ""
        | some name => name.text), clause "PARTITION BY " (Expr.texts partitionBy),
      clause "ORDER BY " (OrderItem.texts orderBy), frame.text] ++ ")"

def Frame.text : Frame → String
  | .absent => ""
  | .start unit first => unit.word ++ " " ++ first.text
  | .span unit first last => unit.word ++ " BETWEEN " ++ first.text ++ " AND " ++ last.text

def Bound.text : Bound → String
  | .currentRow => "CURRENT ROW"
  | .preceding none => "UNBOUNDED PRECEDING"
  | .preceding (some e) => e.text ++ " PRECEDING"
  | .following none => "UNBOUNDED FOLLOWING"
  | .following (some e) => e.text ++ " FOLLOWING"

def Query.text : Query → String
  | { isRecursive, ctes, body, orderBy, limit, offset, offsetWord, fetch, locks } =>
    (match Cte.texts ctes with
      | [] => ""
      | texts => (if isRecursive then "WITH RECURSIVE " else "WITH ") ++ commas texts ++ " ") ++
    body.text ++ clause " ORDER BY " (OrderItem.texts orderBy) ++ Expr.textAfter " LIMIT " limit ++
    (match offset with
      | none => ""
      | some e => " OFFSET " ++ e.text ++ offsetWord.text) ++
    (match fetch with
      | none => ""
      | some f => " " ++ f.text) ++
    "".intercalate (locks.map Lock.text)

def Cte.text : Cte → String
  | .mk label materialized query source =>
    label.text ++ (match materialized with
      | none => " AS ("
      | some true => " AS MATERIALIZED ("
      | some false => " AS NOT MATERIALIZED (") ++ query.text ++ ")" ++
    (match source with
      | none => ""
      | some name => " FROM " ++ name.text)

def Cte.texts : List Cte → List String
  | [] => []
  | c :: cs => c.text :: Cte.texts cs

def Body.text : Body → String
  | .select s => s.text
  | .parens query => "(" ++ query.text ++ ")"
  | .setOperation op quantifier left right =>
    left.text ++ " " ++ op.word ++ quantifier.text ++ " " ++ right.text
  | .values explicitRow rows =>
    "VALUES " ++ commas ((Expr.textLists rows).map fun texts =>
      (if explicitRow then "ROW(" else "(") ++ commas texts ++ ")")
  | .defaultValues => "DEFAULT VALUES"
  | .table name => "TABLE " ++ name
  | .insert i => i.text
  | .update u => u.text

def Insert.text : Insert → String
  | { alternative, overwrite, into, named, table, label, columns, source, partition, conflict,
      assignments, filter, returning } =>
    "INSERT " ++ insertionHead alternative overwrite into named ++ table.text ++
    (match label with
      | none => " "
      | some name => " AS " ++ name.text ++ " ") ++
    (match columns with
      | [] => ""
      | _ => "(" ++ commas (columns.map Ident.text) ++ ") ") ++
    (match Expr.texts partition with
      | [] => ""
      | texts => "PARTITION (" ++ commas texts ++ ") ") ++
    source.text ++
    conflict.text (commas (Assignment.texts assignments)) (Expr.textAfter " WHERE " filter) ++
    clause " RETURNING " (SelectItem.texts returning)

def Assignment.text : Assignment → String
  | .mk target value => target.text ++ " = " ++ value.text

def Assignment.texts : List Assignment → List String
  | [] => []
  | a :: as => a.text :: Assignment.texts as

def Update.text : Update → String
  | { alternative, table, assignments, sources, filter, returning } =>
    "UPDATE " ++ (if alternative = "" then "" else alternative ++ " ") ++ table.text ++ clause " SET " (Assignment.texts assignments) ++
    clause " FROM " (TableTree.texts sources) ++ Expr.textAfter " WHERE " filter ++
    clause " RETURNING " (SelectItem.texts returning)

def Select.text : Select → String
  | { distinct, top, topCount, items, into, sources, lateralViews, lateralRows, filter, groupBy,
      clusterBy, distributeBy, sortBy, having, windows, windowFilter, windowsFirst } =>
    "SELECT " ++ distinct.text ++ top.text (Expr.textAfter "" topCount) ++
    commas (SelectItem.texts items) ++
    (match into with
      | none => ""
      | some i => i.text) ++
    clause " FROM " (TableTree.texts sources) ++ lateralText lateralViews (Expr.texts lateralRows) ++
    Expr.textAfter " WHERE " filter ++ groupBy.text ++
    clause " CLUSTER BY " (Expr.texts clusterBy) ++
    clause " DISTRIBUTE BY " (Expr.texts distributeBy) ++ clause " SORT BY " (Expr.texts sortBy) ++
    Expr.textAfter " HAVING " having ++
    (if windowsFirst then clause " WINDOW " (NamedWindow.texts windows) else "") ++
    Expr.textAfter " QUALIFY " windowFilter ++
    (if windowsFirst then "" else clause " WINDOW " (NamedWindow.texts windows))

/-- The words for equal rows, with a blank behind them. -/
def Distinct.text : Distinct → String
  | .unsaid => ""
  | .rows => "DISTINCT "
  | .on keys => "DISTINCT ON (" ++ commas (Expr.texts keys) ++ ") "

def SelectItem.text : SelectItem → String
  | .expr e none => e.text
  | .expr e (some label) => e.text ++ " AS " ++ label.text
  | .star => "*"
  | .starOf name => name.text ++ ".*"

def SelectItem.texts : List SelectItem → List String
  | [] => []
  | i :: is => i.text :: SelectItem.texts is

/-- The text of a grouping, behind a blank. -/
def GroupBy.text : GroupBy → String
  | .keys keys => clause " GROUP BY " (Expr.texts keys)
  | .all => " GROUP BY ALL"

def NamedWindow.text : NamedWindow → String
  | .mk name window => name.text ++ " AS " ++ window.textAfter ""

def NamedWindow.texts : List NamedWindow → List String
  | [] => []
  | w :: ws => w.text :: NamedWindow.texts ws

def TableTree.text : TableTree → String
  | .mk first joins => first.text ++ Join.textAll joins

def TableTree.texts : List TableTree → List String
  | [] => []
  | t :: ts => t.text :: TableTree.texts ts

def Join.text : Join → String
  | .mk isGlobal kind factor matching condition =>
    (if isGlobal then " GLOBAL" else "") ++
    (match condition with
      | .natural => " NATURAL "
      | _ => " ") ++ kind.words ++ " " ++ factor.text ++
    (match matching with
      | none => ""
      | some e => " MATCH_CONDITION (" ++ e.text ++ ")") ++ condition.text

/-- The texts of joins, one behind the other. -/
def Join.textAll : List Join → String
  | [] => ""
  | j :: js => j.text ++ Join.textAll js

/-- The text of a condition, behind a blank. -/
def JoinCondition.text : JoinCondition → String
  | .absent => ""
  | .on e => " ON " ++ e.text
  | .using columns => " USING(" ++ commas (columns.map Ident.text) ++ ")"
  | .natural => ""

def TableFactor.text : TableFactor → String
  | .table name numbered label hints =>
    name.text ++ numberedText numbered ++ aliasText label ++ hintsText (Expr.texts hints)
  | .tableFunction name arguments numbered label hints =>
    name.text ++ "(" ++ commas (Argument.texts arguments) ++ ")" ++ numberedText numbered ++
      aliasText label ++ hintsText (Expr.texts hints)
  | .lateralFunction name arguments label =>
    "LATERAL " ++ name.text ++ "(" ++ commas (Argument.texts arguments) ++ ")" ++ aliasText label
  | .tableOf e label => "TABLE(" ++ e.text ++ ")" ++ aliasText label
  | .unnest arrays numbered label offset =>
    "UNNEST(" ++ commas (Expr.texts arrays) ++ ")" ++ numberedText numbered ++ aliasText label ++
      (match offset with
        | none => ""
        | some none => " WITH OFFSET"
        | some (some name) => " WITH OFFSET AS " ++ name.text)
  | .derived lateral query label =>
    (if lateral then "LATERAL (" else "(") ++ query.text ++ ")" ++ aliasText label
  | .nested tables label => "(" ++ tables.text ++ ")" ++ aliasText label
  | .document opening e rest label => opening ++ e.text ++ rest ++ aliasText label
  | .pivot table aggregates column values otherwise label =>
    table.text ++ " PIVOT(" ++ commas (SelectItem.texts aggregates) ++ " FOR " ++ column.text ++
      " IN (" ++ values.text ++ ")" ++
      (match otherwise with
        | none => ""
        | some e => " DEFAULT ON NULL (" ++ e.text ++ ")") ++ ")" ++ aliasText label
  | .unpivot table value name columns label =>
    table.text ++ " UNPIVOT(" ++ value.text ++ " FOR " ++ name.text ++ " IN (" ++
      commas (columns.map Ident.text) ++ "))" ++ aliasText label

/-- The text of the values of a `PIVOT` clause. -/
def PivotValues.text : PivotValues → String
  | .list items => commas (SelectItem.texts items)
  | .any orderBy => "ANY" ++ clause " ORDER BY " (OrderItem.texts orderBy)
  | .query query => query.text

end

def Window.text (w : Window) : String :=
  w.textAfter ""

end ColumnLineage
