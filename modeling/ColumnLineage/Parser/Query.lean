import ColumnLineage.Parser.Change

/-!
# Reading queries

The operations between selects, common tables, order and bounds. The last definition ties the
rules together: a grammar for a given number of levels.
-/

namespace ColumnLineage.Parser

/-! ## Bodies -/

/-- A row of values, and whether the word `ROW` stands before it. -/
def valuesRow (g : Grammar) : Parser (Bool × List Expr) := do
  let explicitRow ← keyword? "ROW"
  return (explicitRow, ← parenthesized (commaList g.whole))

def values (g : Grammar) : Parser Body := do
  let rows ← commaList (valuesRow g)
  return .values (rows.any Prod.fst) (rows.map Prod.snd)

/-- The name behind `TABLE`. Three tokens are read, whatever they are; the name is the first one,
or the first and the third if a dot stands between them. -/
def tableName : Parser String := do
  let tokens ← get
  set (tokens.drop 3)
  match tokens with
  | .word schema :: .symbol "." :: .word table :: _ => return schema.value ++ "." ++ table.value
  | .word _ :: .symbol "." :: rest => throw (.expected "Table name" rest.head?)
  | found :: .symbol "." :: _ => throw (.expected "Schema name" (some found))
  | .word table :: _ => return table.value
  | _ => throw (.expected "Table name" tokens.head?)

/-- A body without a set operation outside parentheses. -/
def bodyOperand (g : Grammar) : Parser Body := do
  if ← keyword? "SELECT" then return .select (← select g)
  else if ← symbol? "(" then
    let query ← g.query
    symbol ")"
    return .parens query
  else if ← keyword? "VALUES" then values g
  else if ← keyword? "TABLE" then return .table (← tableName)
  else expected "SELECT, VALUES, or a subquery in the query body"

def quantifier? : Parser SetQuantifier := do
  if ← keywords? ["DISTINCT", "BY", "NAME"] then return .distinctByName
  else if ← keywords? ["BY", "NAME"] then return .byName
  else if ← keywords? ["ALL", "BY", "NAME"] then return .allByName
  else if ← keyword? "ALL" then return .all
  else if ← keyword? "DISTINCT" then return .distinct
  else return .unsaid

/-- Operands with any of the given operations between them, from left to right. -/
def setOperations (operators : List (String × SetOperator)) (operand : Parser Body) :
    Parser Body := do
  loop (fun left => do
    match operators.lookup ((← oneOf? (operators.map Prod.fst)).getD "") with
    | none => return none
    | some op =>
      let quantifier ← quantifier?
      return some (.setOperation op quantifier left (← operand))) (← operand)

/-- A body. `INTERSECT` binds tighter than the other operations. -/
def body (g : Grammar) : Parser Body :=
  setOperations [("UNION", .union), ("EXCEPT", .except)]
    (setOperations [("INTERSECT", .intersect)] (bodyOperand g))

/-! ## Queries -/

def cte (g : Grammar) : Parser Cte := do
  let name ← ident
  let columns ← if ← atKeyword ["AS"] then pure [] else aliasColumns?
  keyword "AS"
  let materialized ← valueOf? [(["MATERIALIZED"], true), (["NOT", "MATERIALIZED"], false)]
  let query ← parenthesized g.query
  return .mk ⟨name, columns⟩ materialized query (← behind? "FROM" ident)

/-- The number of rows behind `LIMIT`; `ALL` is no bound. -/
def limitCount (g : Grammar) : Parser (Option Expr) := do
  if ← keyword? "ALL" then return none else return some (← g.whole)

/-- The word behind the number of an `OFFSET`. -/
def rowWord? : Parser RowWord := do
  if ← keyword? "ROW" then return .row
  else if ← keyword? "ROWS" then return .rows
  else return .absent

/-- The bounds that are read so far. -/
structure Bounds where
  limit : Option Expr := none
  /-- The number behind `OFFSET`, with the word behind it. -/
  offset : Option (Expr × RowWord) := none

/-- Reads `LIMIT` and then `OFFSET`, each if it is there and not yet known. -/
def moreBounds (g : Grammar) (b : Bounds) : Parser Bounds := do
  let limit ←
    if b.limit.isNone then
      if ← keyword? "LIMIT" then limitCount g else pure none
    else pure b.limit
  let offset ←
    if b.offset.isNone then
      if ← keyword? "OFFSET" then
        let e ← g.whole
        pure (some (e, ← rowWord?))
      else pure none
    else pure b.offset
  return ⟨limit, offset⟩

/-- Reads `ROW` or `ROWS`. -/
def rowOrRows : Parser Unit := do
  if (← oneOf? ["ROW", "ROWS"]).isNone then expected "one of ROW or ROWS"

/-- The `FETCH` clause behind its keyword. -/
def fetch : Parser Fetch := do
  if (← oneOf? ["FIRST", "NEXT"]).isNone then expected "one of FIRST or NEXT"
  let (quantity, percent) ←
    if (← oneOf? ["ROW", "ROWS"]).isSome then pure (none, false)
    else
      let quantity ← constant
      let percent ← keyword? "PERCENT"
      rowOrRows
      pure (some quantity, percent)
  if ← keyword? "ONLY" then return ⟨quantity, percent, false⟩
  else if ← keywords? ["WITH", "TIES"] then return ⟨quantity, percent, true⟩
  else expected "one of ONLY or WITH TIES"

/-- The name of an element in a document, in parentheses. -/
def elementName : Parser String :=
  parenthesized do return "('" ++ (← literalString) ++ "')"

/-- An option of a document. -/
structure DocumentOption where
  words : List String
  /-- Whether the name of an element follows them. -/
  named : Bool

/-- The option of a document that comes next, if one does, with its text. -/
def documentOption? : List DocumentOption → Parser (List (List String × String))
  | [] => return []
  | o :: rest => do
    if ← keywords? o.words then
      let name ← if o.named then elementName else pure ""
      return [(o.words, " ".intercalate o.words ++ name)]
    else documentOption? rest

/-- The options of a document behind their commas, each printed once and in the given order. -/
def documentOptions (options : List DocumentOption) : Parser String := do
  let read ← loop (fun (read : List (List String × String)) => do
    if ← symbol? "," then return some ((← documentOption? options) ++ read) else return none) []
  return String.join (options.filterMap fun o => (read.lookup o.words).map (", " ++ ·))

/-- The name of an element in a document, if a parenthesis opens. -/
def elementName? : Parser String := do
  if ← atSymbol "(" then elementName else return ""

/-- What stands behind `FOR XML`. -/
def xmlWords : Parser String := do
  let shape ←
    match ← oneOf? ["RAW", "AUTO", "EXPLICIT", "PATH"] with
    | some "RAW" => pure ("RAW" ++ (← elementName?))
    | some "PATH" => pure ("PATH" ++ (← elementName?))
    | some word => pure word
    | none => throw (.remark "Expected FOR XML [RAW | AUTO | EXPLICIT | PATH ]")
  return "XML " ++ shape ++ (← documentOptions
    [⟨["BINARY", "BASE64"], false⟩, ⟨["TYPE"], false⟩, ⟨["ROOT"], true⟩, ⟨["ELEMENTS"], false⟩])

/-- What stands behind `FOR JSON`. -/
def jsonWords : Parser String := do
  let shape ←
    match ← oneOf? ["AUTO", "PATH"] with
    | some word => pure word
    | none => throw (.remark "Expected FOR JSON [AUTO | PATH ]")
  return "JSON " ++ shape ++ (← documentOptions
    [⟨["ROOT"], true⟩, ⟨["INCLUDE_NULL_VALUES"], false⟩, ⟨["WITHOUT_ARRAY_WRAPPER"], false⟩])

/-- What stands behind `FOR`, and whether more may follow. -/
def lock : Parser (Lock × Bool) := do
  if ← keyword? "XML" then return (.words (← xmlWords), false)
  else if ← keyword? "JSON" then return (.words (← jsonWords), false)
  else if ← keyword? "BROWSE" then return (.words "BROWSE", false)
  else
    let share ← keyword? "SHARE"
    unless share do
      unless ← keyword? "UPDATE" do expected "one of UPDATE or SHARE"
    let table ← behind? "OF" objectName
    let wait ← valueOf? [(["NOWAIT"], " NOWAIT"), (["SKIP", "LOCKED"], " SKIP LOCKED")]
    return (.rows share table (wait.getD ""), true)

/-- What a query does with the rows that it reads. -/
def locks : Parser (List Lock) := do
  let (read, _) ← loop (fun ((read : List Lock), more) => do
    if ← pure more <&&> keyword? "FOR" then
      let (l, more) ← lock
      return some (l :: read, more)
    else return none) ([], true)
  return read.reverse

/-- The common tables of a query, and whether they may refer to themselves. -/
def ctes? (g : Grammar) : Parser (Bool × List Cte) := do
  if ← keyword? "WITH" then
    let isRecursive ← keyword? "RECURSIVE"
    return (isRecursive, ← commaList (cte g))
  else return (false, [])

/-- An insertion or an update as a body, if one starts here. -/
def change? (g : Grammar) : Parser (Option Body) := do
  if ← keyword? "INSERT" then return some (.insert (← tableInsertion g (← insertWords)))
  else if ← keyword? "UPDATE" then return some (.update (← update g))
  else return none

def query (g : Grammar) : Parser Query := do
  let (isRecursive, ctes) ← ctes? g
  if let some body ← change? g then return { Query.ofBody body with isRecursive, ctes }
  let body ← body g
  let orderBy ← orderBy? g
  let bounds ← moreBounds g (← moreBounds g {})
  let fetch ← behind? "FETCH" fetch
  let locks ← locks
  return { isRecursive, ctes, body, orderBy, limit := bounds.limit,
           offset := bounds.offset.map Prod.fst,
           offsetWord := (bounds.offset.map Prod.snd).getD .absent, fetch, locks }

/-! ## The knot -/

/-- The rules of one level, given those of the level below. -/
def rules (g : Grammar) : Grammar where
  query := query g
  expr := expression g

/-- The rules for text with at most the given number of levels. -/
def grammar : Nat → Grammar :=
  Grammar.level rules

/-- How many levels of statements, queries and expressions may be nested. -/
def nestingLimit : Nat := 50

end ColumnLineage.Parser
