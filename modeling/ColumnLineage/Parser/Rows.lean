import ColumnLineage.Parser.Show

/-!
# Reading statements about rows

Rows are removed, merged, copied to files and back, and kept at hand. Nothing is followed through
these statements, so they are read as their texts.
-/

namespace ColumnLineage.Parser

/-! ## Removal -/

def deletion (g : Grammar) : Parser String := do
  let tables ←
    if ← keyword? "FROM" then pure []
    else
      let names ← commaList objectName
      keyword "FROM"
      pure names
  let sources ← commaList (tableTree g)
  let others ← behind? "USING" (commaList (tableTree g))
  let filter ← behind? "WHERE" g.whole
  let returning ← returning? g
  let order ← orderBy? g
  let limit ← behind? "LIMIT" (limitCount g)
  return blanks ["DELETE", commas (tables.map ObjectName.text),
    clause "FROM " (TableTree.texts sources), clause "USING " (TableTree.texts (others.getD [])),
    Expr.textAfter "WHERE " filter, clause "RETURNING " (SelectItem.texts returning),
    clause "ORDER BY " (OrderItem.texts order), Expr.textAfter "LIMIT " limit.join]

/-- What happens to things that depend on a thing that goes, behind a blank. -/
def dropBehavior? : Parser String := do
  return afterBlanks (← oneOf? ["CASCADE", "RESTRICT"]).toList

def truncation (g : Grammar) : Parser String := do
  let table ← keyword? "TABLE"
  let only ← keyword? "ONLY"
  let names ← commaList objectName
  let partition ← partition? g
  let identity ← [["RESTART", "IDENTITY"], ["CONTINUE", "IDENTITY"]].findM? keywords?
  let behavior ← dropBehavior?
  let cluster ← cluster?
  return "TRUNCATE " ++ flagText table "TABLE" ++ flagText only "ONLY" ++
    commas (names.map ObjectName.text) ++ afterBlanks (identity.map (" ".intercalate ·)).toList ++
    behavior ++ optionsText " PARTITION" (partition.map Expr.text) ++
    afterBlanks (cluster.map ("ON CLUSTER " ++ ·.text)).toList

/-! ## Merging -/

/-- The kinds of rows that a clause of `MERGE` is about, and whether they are new. -/
def mergeKind : Parser (String × Bool) := do
  let isNew ← keyword? "NOT"
  keyword "MATCHED"
  if ← pure isNew <&&> keywords? ["BY", "SOURCE"] then return ("NOT MATCHED BY SOURCE", false)
  else if ← pure isNew <&&> keywords? ["BY", "TARGET"] then return ("NOT MATCHED BY TARGET", true)
  else return (if isNew then "NOT MATCHED" else "MATCHED", isNew)

/-- What a clause of `MERGE` does. -/
def mergeAction (g : Grammar) (kind : String) (isNew : Bool) : Parser String := do
  let refuse (word : String) : Parser String :=
    throw (.remark (word ++ " is not allowed in a " ++ kind ++ " merge clause"))
  match ← oneOf? ["UPDATE", "INSERT", "DELETE"] with
  | some "UPDATE" =>
    if isNew then refuse "UPDATE"
    else
      keyword "SET"
      return "UPDATE SET " ++ commas (Assignment.texts (← commaList (assignment g)))
  | some "DELETE" => if isNew then refuse "DELETE" else return "DELETE"
  | some _ =>
    if isNew then
      let columns ← columnNames?
      keyword "VALUES"
      return "INSERT " ++ (if columns.isEmpty then "" else namesText columns ++ " ") ++
        (← values g).text
    else refuse "INSERT"
  | none => throw (.remark "expected UPDATE, DELETE or INSERT in merge clause")

/-- A clause of `MERGE`, unless the statement ends here. -/
def mergeClause? (g : Grammar) : Parser (Option String) := do
  match ← peek with
  | none | some (.symbol ";") => return none
  | _ =>
    keyword "WHEN"
    let (kind, isNew) ← mergeKind
    let condition ← behind? "AND" g.whole
    keyword "THEN"
    return some ("WHEN " ++ kind ++ Expr.textAfter " AND " condition ++ " THEN " ++
      (← mergeAction g kind isNew))

def merge (g : Grammar) : Parser String := do
  let into ← keyword? "INTO"
  let table ← tableFactor g (tableTree g)
  keyword "USING"
  let source ← tableFactor g (tableTree g)
  keyword "ON"
  let condition ← g.whole
  let clauses ← loop (fun (read : List String) => do
    return (← mergeClause? g).map (· :: read)) []
  return "MERGE" ++ (if into then " INTO" else "") ++ " " ++ table.text ++ " USING " ++
    source.text ++ " ON " ++ condition.text ++ " " ++ " ".intercalate clauses.reverse

/-! ## Files -/

/-- A character of a text in double quotes, as messages show it. -/
def shownChar (c : Char) : String :=
  if c = '"' then "\\\""
  else if c = '\\' then "\\\\"
  else if c = '\n' then "\\n"
  else if c = '\r' then "\\r"
  else if c = '\t' then "\\t"
  else if c.toNat = 0 then "\\0"
  else if c.toNat < 32 || c.toNat = 127 then
    "\\u\x7b" ++ String.ofList (Nat.toDigits 16 c.toNat) ++ "\x7d"
  else c.toString

/-- A text that must be a single character of one byte, between quotes. -/
def literalChar : Parser String := do
  let s ← literalString
  if s.utf8ByteSize = 1 then return "'" ++ s ++ "'"
  else
    throw (.remark ("Expect a char, found \"" ++ String.join (s.toList.map shownChar) ++ "\""))

def quotedString : Parser String := do
  return quoted '\'' (← literalString)

def copyOption : Parser String := do
  if ← keyword? "FORMAT" then return "FORMAT " ++ (← ident).text
  else if let some word ← oneOf? ["FREEZE", "HEADER"] then
    return word ++ (if (← oneOf? ["TRUE", "FALSE"]) = some "FALSE" then " FALSE" else "")
  else if let some word ← oneOf? ["DELIMITER", "QUOTE", "ESCAPE"] then
    return word ++ " " ++ (← literalChar)
  else if let some word ← oneOf? ["NULL", "ENCODING"] then return word ++ " " ++ (← quotedString)
  else if let some word ← oneOf? ["FORCE_QUOTE", "FORCE_NOT_NULL", "FORCE_NULL"] then
    return word ++ " " ++ namesText (← columnNames)
  else expected "option"

/-- An option for files of separated values, in the older form. -/
def separatedOption : Parser String := do
  if ← keyword? "HEADER" then return "HEADER"
  else if let some word ← oneOf? ["QUOTE", "ESCAPE"] then
    let _ ← keyword? "AS"
    return word ++ " " ++ (← literalChar)
  else if let some words ← [["FORCE", "NOT", "NULL"], ["FORCE", "QUOTE"]].findM? keywords? then
    return " ".intercalate words ++ " " ++ commas ((← commaList ident).map Ident.text)
  else expected "csv option"

/-- An option of a copy in the older form. -/
def olderCopyOption : Parser String := do
  if ← keyword? "BINARY" then return "BINARY"
  else if ← keyword? "DELIMITER" then
    let _ ← keyword? "AS"
    return "DELIMITER " ++ (← literalChar)
  else if ← keyword? "NULL" then
    let _ ← keyword? "AS"
    return "NULL " ++ (← quotedString)
  else if ← keyword? "CSV" then return "CSV " ++ " ".intercalate (← many separatedOption)
  else expected "option"

/-- The query or the table that is copied, and whether it is a query. -/
def copySource (g : Grammar) : Parser (String × Bool) := do
  if ← atSymbol "(" then return ("(" ++ (← parenthesized g.query).text ++ ")", true)
  else
    let name ← objectName
    return (name.text ++ optionsText "" ((← columnNames?).map Ident.text), false)

def copyTarget : Parser String := do
  if let some word ← oneOf? ["STDIN", "STDOUT"] then return word
  else if ← keyword? "PROGRAM" then return "PROGRAM " ++ (← quotedString)
  else quotedString

/-- `COPY` behind its keyword. Rows that are written in the script must stand behind a semicolon. -/
def copy (g : Grammar) : Parser String := do
  let (source, isQuery) ← copySource g
  let direction ←
    match ← oneOf? ["FROM", "TO"] with
    | some word => pure word
    | none => expected "FROM or TO"
  if isQuery && direction = "FROM" then
    throw (.remark "COPY ... FROM does not support query as a source")
  let target ← copyTarget
  let _ ← keyword? "WITH"
  let options ← if ← atSymbol "(" then parenthesized (commaList copyOption) else pure []
  let older ← many olderCopyOption
  if target = "STDIN" then symbol ";"
  return "COPY " ++ source ++ " " ++ direction ++ " " ++ target ++ optionsText "" options ++
    afterBlanks older

def unload (g : Grammar) : Parser String := do
  let query ← parenthesized g.query
  keyword "TO"
  let target ← ident
  return "UNLOAD(" ++ query.text ++ ") TO " ++ target.text ++
    optionsText " WITH" (← storageOptions? g "WITH")

/-! ## Rows at hand -/

/-- The query that gives the rows of a table that is kept at hand, if the statement goes on. -/
def cachedQuery? (g : Grammar) : Parser String := do
  match ← peek with
  | none => return ""
  | some (.word _) =>
    let isBehindAs ← keyword? "AS"
    return (if isBehindAs then " AS " else " ") ++ (← g.query).text
  | _ => expected "a QUERY statement"

def cache (g : Grammar) : Parser String := do
  let tokens ← get
  let flag ← if ← atKeyword ["TABLE"] then pure none else pure (some (← objectName))
  unless ← keyword? "TABLE" do
    throw (.expected "a \x60TABLE\x60 keyword" ((← peek) <|> tokens.getLast?))
  let name ← objectName
  let options ← storageOptions? g "OPTIONS"
  return "CACHE " ++ (flag.map (·.text ++ " ")).getD "" ++ "TABLE " ++ name.text ++
    (if options.isEmpty then "" else " OPTIONS(" ++ commas options ++ ")") ++ (← cachedQuery? g)

def uncache : Parser String := do
  keyword "TABLE"
  let ifExists ← keywords? ["IF", "EXISTS"]
  return "UNCACHE TABLE " ++ flagText ifExists "IF EXISTS" ++ (← objectName).text

end ColumnLineage.Parser
