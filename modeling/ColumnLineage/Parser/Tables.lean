import ColumnLineage.Parser.Call
import ColumnLineage.Parser.DataType

/-!
# Reading tables

The tables of a `FROM` clause: names, functions, queries in parentheses, and joins. Parentheses
around joined tables may stand in one another as often as there are tokens.
-/

namespace ColumnLineage.Parser

/-! ## Aliases -/

/-- The words that are no alias of a table unless `AS` stands before them. -/
def reservedForTables : List String :=
  ["WITH", "EXPLAIN", "ANALYZE", "SELECT", "WHERE", "GROUP", "SORT", "HAVING", "ORDER", "TOP",
    "LATERAL", "VIEW", "LIMIT", "OFFSET", "FETCH", "UNION", "EXCEPT", "INTERSECT", "CLUSTER",
    "DISTRIBUTE", "END", "PIVOT", "UNPIVOT", "ON", "JOIN", "INNER", "CROSS", "FULL", "LEFT",
    "RIGHT", "NATURAL", "USING", "GLOBAL", "ANTI", "SEMI", "OUTER", "SET", "QUALIFY", "WINDOW",
    "FOR", "PARTITION", "PREWHERE", "SETTINGS", "FORMAT", "START", "CONNECT", "MATCH_RECOGNIZE"]

/-- The words that are no alias of an item unless `AS` stands before them. -/
def reservedForItems : List String :=
  ["WITH", "EXPLAIN", "ANALYZE", "SELECT", "WHERE", "GROUP", "SORT", "HAVING", "ORDER", "TOP",
    "LATERAL", "VIEW", "LIMIT", "OFFSET", "FETCH", "UNION", "EXCEPT", "INTERSECT", "CLUSTER",
    "DISTRIBUTE", "RETURNING", "FROM", "INTO", "END"]

/-- A column that an alias declares, perhaps with a type. -/
def aliasColumn : Parser AliasColumn := do
  let name ← ident
  return ⟨name, ← attempt? dataType⟩

def aliasColumns? : Parser (List AliasColumn) := do
  if ← atSymbol "(" then parenthesized (commaList aliasColumn) else return []

def tableAlias? : Parser (Option TableAlias) := do
  match ← alias? reservedForTables with
  | none => return none
  | some name => return some ⟨name, ← aliasColumns?⟩

/-! ## Single tables -/

/-- A query behind its opening parenthesis, and its alias. -/
def derivedTable (g : Grammar) (lateral : Bool) : Parser TableFactor := do
  let query ← g.query
  symbol ")"
  return .derived lateral query (← tableAlias?)

/-- What stands behind `LATERAL`. -/
def lateralTable (g : Grammar) : Parser TableFactor := do
  if ← symbol? "(" then derivedTable g true
  else
    let name ← objectName
    symbol "("
    let items ← arguments g
    return .lateralFunction name items (← tableAlias?)

/-- Whether joined tables may stand in parentheses: a table alone may not. -/
def isJoined : TableTree → Bool
  | .mk (.nested ..) _ => true
  | .mk _ joins => !joins.isEmpty

/-- Joined tables behind their opening parenthesis, which `inner` reads, and their alias. -/
def nestedTables (inner : Parser TableTree) : Parser TableFactor := do
  let tables ← inner
  if isJoined tables then
    symbol ")"
    return .nested tables (← tableAlias?)
  else expected "joined table"

/-- The hints about a table, if there are any. A `WITH` without a parenthesis belongs to what
follows. -/
def hints? (g : Grammar) : Parser (List Expr) := do
  match ← get with
  | t :: u :: _ =>
    if t.isKeyword "WITH" && u.isSymbol "(" then
      let _ ← next
      parenthesized (commaList g.whole)
    else return []
  | _ => return []

/-- An expression with an alias behind `AS`. -/
def aliased (p : Parser Expr) : Parser SelectItem := do
  let e ← p
  return .expr e (← behind? "AS" ident)

/-- A function call. Its name loses its quotes. -/
def namedCall (g : Grammar) : Parser Expr := do
  match ← next with
  | some (.word w) =>
    symbol "("
    call g ⟨[⟨w.value, none⟩]⟩
  | _ => expected "a function identifier"

/-- The values of a `PIVOT` clause. -/
def pivotValues (g : Grammar) : Parser PivotValues := do
  if ← keyword? "ANY" then return .any (← orderBy? g)
  else if ← atKeyword ["SELECT", "WITH"] then return .query (← g.query)
  else return .list (← commaList (aliased g.whole))

/-- A `PIVOT` clause behind its keyword. -/
def pivot (g : Grammar) (table : TableFactor) : Parser TableFactor := do
  symbol "("
  let aggregates ← commaList (aliased (namedCall g))
  keyword "FOR"
  let column ← objectName
  keyword "IN"
  let values ← parenthesized (pivotValues g)
  let otherwise ←
    if ← keywords? ["DEFAULT", "ON", "NULL"] then pure (some (← parenthesized g.whole))
    else pure none
  symbol ")"
  return .pivot table aggregates column values otherwise (← tableAlias?)

/-- An `UNPIVOT` clause behind its keyword. -/
def unpivot (table : TableFactor) : Parser TableFactor := do
  symbol "("
  let value ← ident
  keyword "FOR"
  let name ← ident
  keyword "IN"
  let columns ← columnNames
  symbol ")"
  return .unpivot table value name columns (← tableAlias?)

/-- A table with the `PIVOT` and `UNPIVOT` clauses behind it. -/
def pivoted (g : Grammar) (table : TableFactor) : Parser TableFactor :=
  loop (fun table => do
    if ← keyword? "PIVOT" then return some (← pivot g table)
    else if ← keyword? "UNPIVOT" then return some (← unpivot table)
    else return none) table

/-- A table by its name, or a function that gives rows. -/
def namedTable (g : Grammar) : Parser TableFactor := do
  let name ← objectName
  let items ← if ← symbol? "(" then pure (some (← arguments g)) else pure none
  let numbered ← keywords? ["WITH", "ORDINALITY"]
  let label ← tableAlias?
  let hints ← hints? g
  pivoted g (match items with
    | some items => .tableFunction name items numbered label hints
    | none => .table name numbered label hints)

/-- The arrays behind `UNNEST`. A `WITH` that says nothing is read over. -/
def unnested (g : Grammar) : Parser TableFactor := do
  let arrays ← parenthesized (commaList g.whole)
  let numbered ← keywords? ["WITH", "ORDINALITY"]
  let label ← tableAlias?
  let withOffset ← if ← keyword? "WITH" then keyword? "OFFSET" else pure false
  let offset ← if withOffset then pure (some (← alias? reservedForItems)) else pure none
  return .unnest arrays numbered label offset

/-! ## Documents -/

/-- What a column of a document is if the document has no value or a wrong one for it. -/
def columnDefault? : Parser (Option String) := do
  let value ←
    match ← oneOf? ["NULL", "ERROR", "DEFAULT"] with
    | some "DEFAULT" => pure (some ("DEFAULT " ++ (← constant).print))
    | word => pure word
  if value.isSome then keyword "ON"
  return value

/-- The two defaults of a column of a document. -/
def columnDefaults : Parser String := do
  let (empty, error) ← loop (fun ((empty : String), (error : String)) => do
    match ← columnDefault? with
    | none => return none
    | some value =>
      if ← keyword? "EMPTY" then return some (" " ++ value ++ " ON EMPTY", error)
      else
        keyword "ERROR"
        return some (empty, " " ++ value ++ " ON ERROR")) ("", "")
  return empty ++ error

/-- A column of a document; `inner` reads the columns of a part of it. -/
def documentColumn (inner : Parser String) : Parser String := do
  if ← keyword? "NESTED" then
    let _ ← keyword? "PATH"
    let path ← constant
    keyword "COLUMNS"
    let columns ← parenthesized (commaList inner)
    return "NESTED PATH " ++ path.print ++ " COLUMNS (" ++ commas columns ++ ")"
  let name ← ident
  if ← keyword? "FOR" then
    keyword "ORDINALITY"
    return name.text ++ " FOR ORDINALITY"
  let type ← dataType
  let isTest ← keyword? "EXISTS"
  keyword "PATH"
  let path ← constant
  return name.text ++ " " ++ type.text ++ (if isTest then " EXISTS" else "") ++ " PATH " ++
    path.print ++ (← columnDefaults)

/-- A column of a document in which at most the given number of parts stand in one another. -/
def documentColumnWithin : Nat → Parser String
  | 0 => throw .nesting
  | n + 1 => documentColumn (documentColumnWithin n)

/-- `JSON_TABLE` behind its opening parenthesis. -/
def documentTable (g : Grammar) : Parser TableFactor := do
  let e ← g.whole
  symbol ","
  let path ← constant
  keyword "COLUMNS"
  let columns ← parenthesized (commaList (documentColumnWithin ((← get).length + 1)))
  symbol ")"
  return .document "JSON_TABLE(" e
    (", " ++ path.print ++ " COLUMNS(" ++ commas columns ++ "))") (← tableAlias?)

/-- A column of a document that is opened. -/
def openedColumn : Parser String := do
  let name ← ident
  let type ← dataType
  let path ← match ← get with
    | .text s :: rest =>
      set rest
      pure (" " ++ quoted '\'' s)
    | _ => pure ""
  let isDocument ← keyword? "AS"
  if isDocument then keyword "JSON"
  return name.text ++ " " ++ type.text ++ path ++ (if isDocument then " AS JSON" else "")

/-- `OPENJSON` behind its opening parenthesis. -/
def openedDocument (g : Grammar) : Parser TableFactor := do
  let e ← g.whole
  let path ← if ← symbol? "," then pure (", " ++ (← constant).print) else pure ""
  symbol ")"
  let columns ←
    if ← keyword? "WITH" then
      pure (" WITH (" ++ commas (← parenthesized (commaList openedColumn)) ++ ")")
    else pure ""
  return .document "OPENJSON(" e (path ++ ")" ++ columns) (← tableAlias?)

/-! ## All tables -/

/-- Whether the given keyword and an opening parenthesis come next; if so they are read. -/
def opening? (k : String) : Parser Bool := do
  match ← get with
  | t :: u :: rest =>
    if t.isKeyword k && u.isSymbol "(" then
      set rest
      return true
    else return false
  | _ => return false

/-- A table; `inner` reads joined tables in parentheses. -/
def tableFactor (g : Grammar) (inner : Parser TableTree) : Parser TableFactor := do
  if ← keyword? "LATERAL" then lateralTable g
  else if ← keyword? "TABLE" then
    let e ← parenthesized g.whole
    return .tableOf e (← tableAlias?)
  else if ← symbol? "(" then
    match ← attempt? (derivedTable g false) with
    | some factor => pivoted g factor
    | none => nestedTables inner
  else if ← keyword? "UNNEST" then unnested g
  else if ← opening? "JSON_TABLE" then documentTable g
  else if ← opening? "OPENJSON" then openedDocument g
  else namedTable g

/-! ## Joins -/

def joinCondition (g : Grammar) (natural : Bool) : Parser JoinCondition := do
  if natural then return .natural
  else if ← keyword? "ON" then return .on (← g.whole)
  else if ← keyword? "USING" then return .using (← columnNames)
  else return .absent

/-- The kind of a join behind `LEFT` or `RIGHT`. -/
def sidedJoin (side : String) (plain halved negated : JoinKind) : Parser JoinKind := do
  match ← oneOf? ["OUTER", "SEMI", "ANTI", "JOIN"] with
  | some "JOIN" => return plain
  | some "SEMI" =>
    keyword "JOIN"
    return halved
  | some "ANTI" =>
    keyword "JOIN"
    return negated
  | some _ =>
    keyword "JOIN"
    return plain
  | none => throw (.remark ("expected OUTER, SEMI, ANTI or JOIN after " ++ side))

/-- The kind of a join that may have a condition, if one starts here. -/
def joinKind? (natural : Bool) : Parser (Option JoinKind) := do
  if ← atKeyword ["INNER", "JOIN"] then
    let _ ← keyword? "INNER"
    keyword "JOIN"
    return some .inner
  else if ← keyword? "LEFT" then return some (← sidedJoin "LEFT" .left .leftSemi .leftAnti)
  else if ← keyword? "RIGHT" then return some (← sidedJoin "RIGHT" .right .rightSemi .rightAnti)
  else if ← keyword? "ANTI" then
    keyword "JOIN"
    return some .anti
  else if ← keyword? "SEMI" then
    keyword "JOIN"
    return some .semi
  else if ← keyword? "FULL" then
    let _ ← keyword? "OUTER"
    keyword "JOIN"
    return some .full
  else if ← atKeyword ["OUTER"] then expected "LEFT, RIGHT, or FULL"
  else if natural then expected "a join type after NATURAL"
  else return none

def plainJoin (isGlobal : Bool) (kind : JoinKind) (factor : TableFactor) : Join :=
  .mk isGlobal kind factor none .absent

/-- A join, if one starts here. A `GLOBAL` before something else is read over. -/
def join? (g : Grammar) (inner : Parser TableTree) : Parser (Option Join) := do
  let isGlobal ← keyword? "GLOBAL"
  if ← keyword? "CROSS" then
    match ← valueOf? [(["JOIN"], JoinKind.cross), (["APPLY"], .crossApply)] with
    | some kind => return some (plainJoin isGlobal kind (← tableFactor g inner))
    | none => expected "JOIN or APPLY after CROSS"
  else if ← keyword? "OUTER" then
    keyword "APPLY"
    return some (plainJoin isGlobal .outerApply (← tableFactor g inner))
  else if ← keyword? "ASOF" then
    keyword "JOIN"
    let factor ← tableFactor g inner
    keyword "MATCH_CONDITION"
    let matching ← parenthesized g.whole
    return some (.mk isGlobal .asOf factor (some matching) (← joinCondition g false))
  else
    let natural ← keyword? "NATURAL"
    match ← joinKind? natural with
    | none => return none
    | some kind =>
      let factor ← tableFactor g inner
      return some (.mk isGlobal kind factor none (← joinCondition g natural))

/-- A table and what is joined to it; `inner` reads joined tables in parentheses. -/
def tableTreeForm (g : Grammar) (inner : Parser TableTree) : Parser TableTree := do
  let first ← tableFactor g inner
  let joins ← loop (fun (joins : List Join) => do
    return (← join? g inner).map (· :: joins)) []
  return .mk first joins.reverse

/-- A table and what is joined to it, in at most the given number of parentheses. -/
def tableTreeWithin (g : Grammar) : Nat → Parser TableTree
  | 0 => throw .nesting
  | n + 1 => tableTreeForm g (tableTreeWithin g n)

def tableTree (g : Grammar) : Parser TableTree := do
  tableTreeWithin g ((← get).length + 1)

end ColumnLineage.Parser
