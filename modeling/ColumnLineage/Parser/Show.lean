import ColumnLineage.Parser.Session

/-!
# Reading questions to the server

`SHOW` asks for a setting, or for the tables, views, columns or other things there are.
-/

namespace ColumnLineage.Parser

/-! ## Which things are shown -/

/-- The pattern or the condition that things must meet, behind a blank. -/
def shownFilter? (g : Grammar) : Parser String := do
  if ← keyword? "LIKE" then return " LIKE " ++ quoted '\'' (← literalString)
  else if ← keyword? "ILIKE" then
    return " ILIKE " ++ String.ofList (doubleQuotes '\'' (← literalString).toList)
  else if ← keyword? "WHERE" then return " WHERE " ++ (← g.whole).text
  else return ((← attempt? literalString).map fun s => " '" ++ s ++ "'").getD ""

/-- What the things belong to, behind `FROM` or `IN`. -/
def shownParent : Parser String := do
  match ← oneOf? ["ACCOUNT", "DATABASE", "SCHEMA", "TABLE", "VIEW"] with
  | some kind =>
    let tokens ← get
    let goesOn ← keywords? ["STARTS", "WITH"] <||> keyword? "LIMIT"
    set tokens
    if goesOn && ["DATABASE", "SCHEMA"].contains kind then return " " ++ kind
    else return " " ++ kind ++ ((← attempt? objectName).map (" " ++ ·.text)).getD ""
  | none =>
    let name ← objectName
    if (← oneOf? ["FROM", "IN"]).isSome then return " " ++ (⟨(← ident) :: name.parts⟩ : ObjectName).text
    else return " " ++ name.text

/-- What is said about the things that are shown. The filter is printed last. -/
def shownClauses (g : Grammar) : Parser String := do
  let parent ←
    match ← oneOf? ["FROM", "IN"] with
    | some word => pure (" " ++ word ++ (← shownParent))
    | none => pure ""
  let filter ← shownFilter? g
  let starts ←
    if ← keywords? ["STARTS", "WITH"] then pure (" STARTS WITH " ++ (← constant).print) else pure ""
  let limit ← behind? "LIMIT" (limitCount g)
  let first ← behind? "FROM" constant
  return parent ++ starts ++ Expr.textAfter " LIMIT " limit.join ++
    (first.map (" FROM " ++ ·.print)).getD "" ++ filter

/-! ## What is shown -/

/-- A setting: the words up to an equals sign, and nothing else that stands there. -/
def shownSetting : Parser String := do
  let tokens ← get
  let shown := tokens.takeWhile (!·.isSymbol "=")
  set (tokens.drop shown.length)
  return "SHOW" ++ afterBlanks (shown.filterMap fun
    | .word w => some w.ident.text
    | _ => none)

/-- A thing and how it was made, behind `CREATE`. -/
def shownDefinition : Parser String := do
  let kind ← oneOf ["TABLE", "TRIGGER", "FUNCTION", "PROCEDURE", "EVENT", "VIEW"]
  return "SHOW CREATE " ++ kind ++ " " ++ (← objectName).text

/-- Databases or schemas, behind the words for them. -/
def shownSpaces (g : Grammar) (terse : Bool) (kind : String) : Parser String := do
  let history ← keyword? "HISTORY"
  return "SHOW " ++ flagText terse "TERSE" ++ kind ++ (if history then " HISTORY" else "") ++
    (← shownClauses g)

/-- What is not a table, a view, a column or a function. -/
def shownOther (g : Grammar) (terse : Bool) : Parser String := do
  if ← keyword? "CREATE" then shownDefinition
  else if ← keyword? "COLLATION" then return "SHOW COLLATION" ++ (← shownFilter? g)
  else
    skippedWords [["VARIABLES"], ["STATUS"]]
    match ← oneOf? ["DATABASES", "SCHEMAS"] with
    | some kind => shownSpaces g terse kind
    | none => shownSetting

def shown (g : Grammar) : Parser String := do
  let terse ← keyword? "TERSE"
  let extended ← keyword? "EXTENDED"
  let full ← keyword? "FULL"
  skippedWords [["SESSION"], ["GLOBAL"]]
  let external ← keyword? "EXTERNAL"
  let detail := flagText extended "EXTENDED" ++ flagText full "FULL"
  if (← oneOf? ["COLUMNS", "FIELDS"]).isSome then
    return "SHOW " ++ detail ++ "COLUMNS" ++ (← shownClauses g)
  else if ← keyword? "TABLES" then
    let history ← if external then pure false else keyword? "HISTORY"
    return "SHOW " ++ flagText terse "TERSE" ++ detail ++ flagText external "EXTERNAL" ++ "TABLES" ++
      (if history then " HISTORY" else "") ++ (← shownClauses g)
  else if let some words ← [["MATERIALIZED", "VIEWS"], ["VIEWS"]].findM? keywords? then
    return "SHOW " ++ flagText terse "TERSE" ++ " ".intercalate words ++ (← shownClauses g)
  else if ← keyword? "FUNCTIONS" then return "SHOW FUNCTIONS" ++ (← shownFilter? g)
  else if extended || full then
    throw (.remark "EXTENDED/FULL are not supported with this type of SHOW query")
  else shownOther g terse

end ColumnLineage.Parser
