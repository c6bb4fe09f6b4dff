import ColumnLineage.Parser.Definition

/-!
# Reading statements about transactions and sessions

They change no definitions and read no rows that could be followed, so they are read as their
texts.
-/

namespace ColumnLineage.Parser

/-! ## Transactions -/

/-- The words for how much transactions see of each other. -/
def isolationLevel : Parser String := do
  let levels := [["READ", "UNCOMMITTED"], ["READ", "COMMITTED"], ["REPEATABLE", "READ"],
    ["SERIALIZABLE"]]
  match ← levels.findM? keywords? with
  | some words => return "ISOLATION LEVEL " ++ " ".intercalate words
  | none => expected "isolation level"

/-- A mode of a transaction, if one comes next. -/
def transactionMode? : Parser (Option String) := do
  if ← keywords? ["ISOLATION", "LEVEL"] then return some (← isolationLevel)
  else if ← keywords? ["READ", "ONLY"] then return some "READ ONLY"
  else if ← keywords? ["READ", "WRITE"] then return some "READ WRITE"
  else return none

/-- The modes of a transaction behind a blank. Commas between them may be left out, but a mode must
follow a comma. -/
def transactionModes : Parser String := do
  let (read, _) ← loop (fun ((read : List String), required) => do
    match ← transactionMode? with
    | some mode => return some (mode :: read, ← symbol? ",")
    | none => if required then expected "transaction mode" else return none) ([], false)
  return if read.isEmpty then "" else " " ++ commas read.reverse

def beginTransaction : Parser String := do
  let word ← oneOf? ["TRANSACTION", "WORK"]
  return "BEGIN" ++ afterBlanks word.toList ++ (← transactionModes)

def startTransaction : Parser String := do
  keyword "TRANSACTION"
  return "START TRANSACTION" ++ (← transactionModes)

/-- Whether a transaction follows the one that ends, behind a blank. -/
def chain : Parser String := do
  let _ ← oneOf? ["TRANSACTION", "WORK"]
  if ← keyword? "AND" then
    let isLast ← keyword? "NO"
    keyword "CHAIN"
    return if isLast then "" else " AND CHAIN"
  else return ""

def rollback : Parser String := do
  let chained ← chain
  if ← keyword? "TO" then
    let _ ← keyword? "SAVEPOINT"
    return "ROLLBACK" ++ chained ++ " TO SAVEPOINT " ++ (← ident).text
  else return "ROLLBACK" ++ chained

def release : Parser String := do
  let _ ← keyword? "SAVEPOINT"
  return "RELEASE SAVEPOINT " ++ (← ident).text

/-! ## Settings -/

def settingValue (g : Grammar) : Parser Expr := do
  if ← atQuery then return .scalar (← g.query)
  else recover g.whole (expected "variable value")

/-- The role of a session, behind `SET` and the word for how long it lasts. -/
def settingRole (scope : Option String) : Parser String := do
  keyword "ROLE"
  let role ← if ← keyword? "NONE" then pure "NONE" else pure (← ident).text
  return "SET" ++ afterBlanks scope.toList ++ " ROLE " ++ role

/-- A setting that is written without an equals sign. -/
def specialSetting (g : Grammar) (scope : Option String) (name : ObjectName) : Parser Statement := do
  if name.text.toUpper = "TIMEZONE" then
    let value ← recover g.whole (expected "timezone value")
    return .other ("SET " ++ flagText (scope = some "LOCAL") "LOCAL" ++ "TIME ZONE " ++ value.text)
  else if name.text = "CHARACTERISTICS" then
    keyword "AS"
    keyword "TRANSACTION"
    return .other ("SET SESSION CHARACTERISTICS AS TRANSACTION" ++ (← transactionModes))
  else if name.text = "TRANSACTION" && scope.isNone then
    if ← keyword? "SNAPSHOT" then
      return .other ("SET TRANSACTION SNAPSHOT " ++ (← constant).print)
    else return .other ("SET TRANSACTION" ++ (← transactionModes))
  else expected "equals sign or TO"

def setting (g : Grammar) : Parser Statement := do
  let scope ← oneOf? ["SESSION", "LOCAL", "HIVEVAR"]
  let hivevar := scope = some "HIVEVAR"
  if hivevar then symbol ":"
  else if let some role ← attempt? (settingRole scope) then return .other role
  let name ← if ← keywords? ["TIME", "ZONE"] then pure ⟨[⟨"TIMEZONE", none⟩]⟩ else objectName
  if ← symbol? "=" <||> keyword? "TO" then
    let values ← commaList (settingValue g)
    return .setVariable { hivevar, isLocal := scope = some "LOCAL", name, values }
  else specialSetting g scope name

def discard : Parser String := do
  match ← oneOf? ["ALL", "PLANS", "SEQUENCES", "TEMP", "TEMPORARY"] with
  | some "TEMPORARY" => return "DISCARD TEMP"
  | some word => return "DISCARD " ++ word
  | none => expected "ALL, PLANS, SEQUENCES, TEMP or TEMPORARY after DISCARD"

/-! ## Prepared statements and messages -/

def prepare (statement : Parser Statement) : Parser String := do
  let name ← ident
  let types ← if ← atSymbol "(" then parenthesized (commaList dataType) else pure []
  keyword "AS"
  return "PREPARE " ++ name.text ++ optionsText "" (types.map DataType.text) ++ " AS " ++
    (← statement).text

/-- The values of a prepared statement, as they are printed: in parentheses, or behind a blank. -/
def executeValues (g : Grammar) : Parser String := do
  if ← symbol? "(" then
    let values ← if ← atSymbol ")" then pure [] else commaList g.whole
    symbol ")"
    return "(" ++ commas (values.map Expr.text) ++ ")"
  else
    match ← peek with
    | none | some (.symbol ";") => return ""
    | some t =>
      if t.isKeyword "USING" then return ""
      else return " " ++ commas ((← commaList g.whole).map Expr.text)

def execute (g : Grammar) : Parser String := do
  let name ← objectName
  let values ← executeValues g
  let used ← behind? "USING" (commaList g.whole)
  return "EXECUTE " ++ name.text ++ values ++ clause " USING " ((used.getD []).map Expr.text)

def deallocate : Parser String := do
  let prepare ← keyword? "PREPARE"
  return "DEALLOCATE " ++ flagText prepare "PREPARE" ++ (← ident).text

def notify : Parser String := do
  let channel ← ident
  if ← symbol? "," then return "NOTIFY " ++ channel.text ++ ", '" ++ (← literalString) ++ "'"
  else return "NOTIFY " ++ channel.text

def callStatement (g : Grammar) : Parser String := do
  let name ← objectName
  if ← symbol? "(" then return "CALL " ++ (← call g name).text else return "CALL " ++ name.text

def unlisten : Parser String := do
  let found ← peek
  if ← symbol? "*" then return "UNLISTEN *"
  else
    match ← attempt? ident with
    | some channel => return "UNLISTEN " ++ channel.text
    | none => throw (.expected "wildcard or identifier" found)

/-! ## Cursors -/

/-- `DECLARE` behind its keyword: a cursor and its query. -/
def declaration (g : Grammar) : Parser String := do
  let name ← ident
  let binary ← keyword? "BINARY"
  let sensitive ← oneOf? ["INSENSITIVE", "ASENSITIVE"]
  let scroll ← [["SCROLL"], ["NO", "SCROLL"]].findM? keywords?
  keyword "CURSOR"
  let hold ←
    match ← oneOf? ["WITH", "WITHOUT"] with
    | some word =>
      keyword "HOLD"
      pure [word ++ " HOLD"]
    | none => pure []
  keyword "FOR"
  return "DECLARE " ++ name.text ++ afterBlanks ((if binary then ["BINARY"] else []) ++
    sensitive.toList ++ (scroll.map (" ".intercalate ·)).toList ++ ["CURSOR"] ++ hold) ++
    " FOR " ++ (← g.query).text

def fetchDirection : Parser String := do
  match ← oneOf? ["NEXT", "PRIOR", "FIRST", "LAST", "ABSOLUTE", "RELATIVE", "FORWARD", "BACKWARD",
      "ALL"] with
  | none => numberValue
  | some word =>
    if ["ABSOLUTE", "RELATIVE"].contains word then return word ++ " " ++ (← numberValue)
    else if ["FORWARD", "BACKWARD"].contains word then
      if ← keyword? "ALL" then return word ++ " ALL" else return word ++ " " ++ (← numberValue)
    else return word

def fetching : Parser String := do
  let direction ← fetchDirection
  let _ ← oneOf ["FROM", "IN"]
  let name ← ident
  let into ← behind? "INTO" objectName
  return "FETCH " ++ direction ++ " IN " ++ name.text ++ (into.map (" INTO " ++ ·.text)).getD ""

def closing : Parser String := do
  if ← keyword? "ALL" then return "CLOSE ALL" else return "CLOSE " ++ (← ident).text

/-! ## The server -/

def kill : Parser String := do
  let kind ← oneOf? ["CONNECTION", "QUERY", "MUTATION"]
  let id ← wholeNumber
  if kind = some "MUTATION" then expected "Unsupported type for KILL, allowed: CONNECTION | QUERY"
  return "KILL" ++ afterBlanks (kind.toList ++ [id])

def assertion (g : Grammar) : Parser String := do
  let condition ← g.whole
  return "ASSERT " ++ condition.text ++ Expr.textAfter " AS " (← behind? "AS" g.whole)

def attach (g : Grammar) : Parser String := do
  let database ← keyword? "DATABASE"
  let file ← g.whole
  keyword "AS"
  return "ATTACH " ++ flagText database "DATABASE" ++ file.text ++ " AS " ++ (← ident).text

def pragmaValue : Parser String := do
  let tokens ← get
  let value ← constant
  match value with
  | .text _ | .doubleQuoted _ | .number _ | .placeholder _ => return value.print
  | _ =>
    set (tokens.drop (tokens.length - (← get).length - 1))
    expected "number or string or ? placeholder"

def pragma : Parser String := do
  let name ← objectName
  if ← atSymbol "(" then return "PRAGMA " ++ name.text ++ "(" ++ (← parenthesized pragmaValue) ++ ")"
  else if ← symbol? "=" then return "PRAGMA " ++ name.text ++ " = " ++ (← pragmaValue)
  else return "PRAGMA " ++ name.text

/-! ## Plans -/

def planOption (g : Grammar) : Parser String := do
  let name ← ident
  if ← atSymbol "," <||> atSymbol ")" then return name.text
  else return name.text ++ " " ++ (← g.whole).text

/-- The format of a plan, behind its keyword. -/
def planFormat : Parser String := do
  let found ← next
  match found with
  | some (.word w) =>
    if ["TEXT", "GRAPHVIZ", "JSON"].contains w.keyword then return w.keyword
    else throw (.expected "fileformat" found)
  | _ => throw (.expected "fileformat" found)

/-- What is said about a plan, each word with a blank behind it. -/
def planWords (g : Grammar) (explained : Bool) : Parser String := do
  if ← pure explained <&&> atSymbol "(" then
    return "(" ++ commas (← parenthesized (commaList (planOption g))) ++ ") "
  else if ← keywords? ["QUERY", "PLAN"] then return "QUERY PLAN "
  else
    let analyze ← keyword? "ANALYZE"
    let verbose ← keyword? "VERBOSE"
    let format ← if ← keyword? "FORMAT" then pure ("FORMAT " ++ (← planFormat) ++ " ") else pure ""
    return flagText analyze "ANALYZE" ++ flagText verbose "VERBOSE" ++ format

/-- `EXPLAIN` or one of its other names, behind the keyword: the plan of a statement, or what is
known about a table. -/
def explain (g : Grammar) (name : String) (statement : Parser Statement) : Parser String := do
  let words ← planWords g (name = "EXPLAIN")
  let isPlan ← atKeyword ["EXPLAIN", "DESCRIBE", "DESC"]
  match ← attempt? statement with
  | some s =>
    if isPlan then throw (.remark "Explain must be root of the plan")
    else return name ++ " " ++ words ++ s.text
  | none =>
    let detail ← oneOf? ["EXTENDED", "FORMATTED"]
    return name ++ afterBlanks detail.toList ++ " " ++ (← objectName).text

end ColumnLineage.Parser
